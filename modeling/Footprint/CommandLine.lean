import Footprint.Exchange.Derivation
import Footprint.Settings.File
import Footprint.Body.Document

namespace Footprint.CommandLine

/-- What a run of the command shows and how it ends. -/
structure Outcome where
  code : UInt8
  output : String
  failure : String
deriving DecidableEq

def readId (given : String) : Except Error Uuid :=
  match Uuid.parse? given with
  | some id => .ok id
  | none => refuseWith (.malformedId given "not an identifier")

/-- The figures for the parts, one item or field per line. -/
def report (s : Store) (operator : String) (traces : List String) : Except Error String := do
  let operator ← readId operator
  let traces ← traces.mapM readId
  let fs ← Exchange.figuresFor s operator traces
  .ok ((Json.ofFigures fs).indented 0 ++ "\n")

/-- The output of a command; without arguments the store is only opened. -/
def output (s : Store) : List String → Except Error String
  | [] => .ok ""
  | "cfp" :: operator :: traces => report s operator traces
  | _ => refuseWith .unknownArguments

/-- Settings come first, then the store, then the arguments. -/
def result (source : Settings.Source) (store : Except Error Store) (arguments : List String) :
    Except Error String := do
  let _ ← Settings.ofSource source
  let s ← store
  output s arguments

def run (source : Settings.Source) (store : Except Error Store) (arguments : List String) :
    Outcome :=
  match result source store arguments with
  | .ok text => ⟨0, text, ""⟩
  | .error e => ⟨1, "", "Error: " ++ e.detail ++ "\n"⟩

end Footprint.CommandLine
