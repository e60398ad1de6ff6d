import Footprint.Error
import Footprint.Settings.Basic
import Footprint.Toml.Reader

namespace Footprint.Settings

open Toml

/-- What is found where the settings file should be. -/
inductive Source where
  | missing
  | unreadable (reason : String)
  | content (bytes : ByteArray)

def nat? : Value → Option Nat
  | .integer (.ofNat n) => some n
  | _ => none

/-- The value of a key, its default when the key is missing. -/
def keyOr (fields : Fields) (name : String) (default : Nat) : Option Nat :=
  match fields.get? name with
  | some value => nat? value
  | none => some default

/-- The item of a list, the default when the list is shorter. -/
def itemOr (items : List Value) (index default : Nat) : Option Nat :=
  match items[index]? with
  | some value => nat? value
  | none => some default

/-- A section of two keys with their defaults. It is a table, or a list of the values in the order
of the keys. A date or time counts as a table with neither key. -/
def section? (fields : Fields) (name : String) (first second : String × Nat) :
    Option (Nat × Nat) :=
  match fields.get? name with
  | none => some (first.2, second.2)
  | some (.table _ inner) => do
    some (← keyOr inner first.1 first.2, ← keyOr inner second.1 second.2)
  | some (.array items) => do
    some (← itemOr items 0 first.2, ← itemOr items 1 second.2)
  | some (.datetime _) => some (first.2, second.2)
  | some _ => none

def ofFields? (fields : Fields) : Option Settings := do
  let (defaultLimit, maxLimit) ← section? fields "listing"
    ("default_limit", default.listing.defaultLimit) ("max_limit", default.listing.maxLimit)
  let (reply, message) ← section? fields "trade"
    ("reply_message_max_len", default.trade.reply) ("message_max_len", default.trade.message)
  some ⟨⟨defaultLimit, maxLimit⟩, ⟨reply, message⟩⟩

/-- The default page is not empty and not larger than the greatest. -/
def check (s : Settings) : Except Error Settings :=
  if s.listing.defaultLimit = 0 ∨ s.listing.maxLimit < s.listing.defaultLimit then
    .error (.settings (.defaultLimit s.listing.maxLimit))
  else .ok s

/-- The settings of a text. -/
def ofText (text : String) : Except Error Settings :=
  match Toml.parse? text with
  | none => .error (.settings (.malformed "not a TOML document"))
  | some fields =>
    match ofFields? fields with
    | none => .error (.settings (.malformed "a limit is not a whole number"))
    | some s => check s

/-- Every section and key may be missing and then has its default; so may the file. -/
def ofSource : Source → Except Error Settings
  | .missing => .ok default
  | .unreadable reason => .error (.settings (.unreadable reason))
  | .content bytes =>
    match String.fromUTF8? bytes with
    | some text => ofText text
    | none => .error (.settings (.unreadable "the text is not UTF-8"))

end Footprint.Settings
