import Footprint.CommandLine
import Footprint.Json.Reader
import Footprint.Store.Snapshot

namespace Footprint.CommandLine

/-- The content of a file, none when there is no file. -/
def readFile (name : String) : IO (Except String (Option ByteArray)) := do
  try
    return .ok (some (← IO.FS.readBinFile name))
  catch
    | .noFileOrDirectory .. => return .ok none
    | e => return .error (toString e)

def readSettings : IO Settings.Source := do
  match ← readFile "gateway.toml" with
  | .ok (some bytes) => return .content bytes
  | .ok none => return .missing
  | .error reason => return .unreadable reason

/-- The store of a snapshot; a text that is none breaks the store. -/
def storeOfBytes (bytes : ByteArray) : Except Error Store :=
  match ((String.fromUTF8? bytes).bind Json.parse?).bind Store.ofJson? with
  | some s => .ok s
  | none => .error .brokenKey

def readStore : IO (Except Error Store) := do
  let name := (← IO.getEnv "FOOTPRINT_STORE").getD "data/footprint_store.json"
  match ← readFile name with
  | .ok (some bytes) => return storeOfBytes bytes
  | .ok none => return .ok .empty
  | .error _ => return .error .brokenKey

end Footprint.CommandLine

/-- Settings are in `gateway.toml`. The store is the snapshot in the file named by
`FOOTPRINT_STORE`, and empty when there is no such file. -/
def main (arguments : List String) : IO UInt32 := do
  let source ← Footprint.CommandLine.readSettings
  let store ← Footprint.CommandLine.readStore
  let outcome := Footprint.CommandLine.run source store arguments
  (← IO.getStdout).putStr outcome.output
  (← IO.getStderr).putStr outcome.failure
  return outcome.code.toUInt32
