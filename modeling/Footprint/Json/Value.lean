import Footprint.Decimal.Layout
import Footprint.Json.Quoted

namespace Footprint

inductive Json where
  | null
  | bool (b : Bool)
  | int (n : Int)
  | float (x : Float)
  | string (s : String)
  | array (items : List Json)
  | object (fields : List (String × Json))
deriving Inhabited

namespace Json

/-- A null for what is absent. -/
def ofOption (f : α → Json) : Option α → Json
  | none => null
  | some a => f a

def ofNat (n : Nat) : Json :=
  int n

/-- Numbers that are not finite have no JSON text and become null. -/
def floatText (x : Float) : String :=
  if x.isFinite then Decimal.Layout.document.text x else "null"

def quotedText (s : String) : String :=
  String.ofList (quote s)

mutual

/-- Text without any blanks. -/
def compact : Json → String
  | null => "null"
  | bool b => if b then "true" else "false"
  | int n => toString n
  | float x => floatText x
  | string s => quotedText s
  | array items => "[" ++ compactItems items ++ "]"
  | object fields => "\x7b" ++ compactFields fields ++ "\x7d"

def compactItems : List Json → String
  | [] => ""
  | [j] => compact j
  | j :: js => compact j ++ "," ++ compactItems js

def compactFields : List (String × Json) → String
  | [] => ""
  | [(name, j)] => quotedText name ++ ":" ++ compact j
  | (name, j) :: fs => quotedText name ++ ":" ++ compact j ++ "," ++ compactFields fs

end

def newline (depth : Nat) : String :=
  "\n" ++ String.ofList (List.replicate (2 * depth) ' ')

mutual

/-- Text with every item and field on a line of its own, two blanks deeper than its container. -/
def indented (depth : Nat) : Json → String
  | array [] => "[]"
  | array (j :: js) => "[" ++ indentedItems depth (j :: js) ++ newline depth ++ "]"
  | object [] => "\x7b\x7d"
  | object (f :: fs) => "\x7b" ++ indentedFields depth (f :: fs) ++ newline depth ++ "\x7d"
  | null => "null"
  | bool b => if b then "true" else "false"
  | int n => toString n
  | float x => floatText x
  | string s => quotedText s

def indentedItems (depth : Nat) : List Json → String
  | [] => ""
  | [j] => newline (depth + 1) ++ indented (depth + 1) j
  | j :: js => newline (depth + 1) ++ indented (depth + 1) j ++ "," ++ indentedItems depth js

def indentedFields (depth : Nat) : List (String × Json) → String
  | [] => ""
  | [(name, j)] => newline (depth + 1) ++ quotedText name ++ ": " ++ indented (depth + 1) j
  | (name, j) :: fs =>
    newline (depth + 1) ++ quotedText name ++ ": " ++ indented (depth + 1) j ++ ","
      ++ indentedFields depth fs

end

/-- What a value holds, none when it is of another kind. -/
def bool? : Json → Option Bool
  | bool b => some b
  | _ => none

def int? : Json → Option Int
  | int n => some n
  | _ => none

def nat? : Json → Option Nat
  | int (.ofNat n) => some n
  | _ => none

/-- Integers are numbers too. -/
def float? : Json → Option Float
  | int n => some (Decimal.toFloat (n < 0) n.natAbs 0)
  | float x => some x
  | _ => none

def string? : Json → Option String
  | string s => some s
  | _ => none

def array? : Json → Option (List Json)
  | array items => some items
  | _ => none

def object? : Json → Option (List (String × Json))
  | object fields => some fields
  | _ => none

def isObject (j : Json) : Bool :=
  j.object?.isSome

/-- The field of that name, null when there is none; of several the last. -/
def field (j : Json) (name : String) : Json :=
  match j with
  | object fields => ((fields.reverse.find? (·.1 == name)).map (·.2)).getD null
  | _ => null

/-- Whether a field of that name is there, be it null. -/
def hasField (j : Json) (name : String) : Bool :=
  match j with
  | object fields => fields.any (·.1 == name)
  | _ => false

/-- A field that may be null or missing, read by `f` when it is neither. -/
def optional (f : Json → Option α) (j : Json) (name : String) : Option (Option α) :=
  match j.field name with
  | null => some none
  | value => (f value).map some

/-- A field that must be there, read by `f`. -/
def required (f : Json → Option α) (j : Json) (name : String) : Option α :=
  f (j.field name)

/-- A record as an object. It may also be written as an array of its fields' values in their order,
where those after the first `least` may be left out. -/
def record? (names : List String) (least : Nat) : Json → Option Json
  | object fields => some (object fields)
  | array items =>
    if least ≤ items.length ∧ items.length ≤ names.length then some (object (names.zip items))
    else none
  | _ => none

@[simp] theorem record?_object (names : List String) (least : Nat)
    (fields : List (String × Json)) :
    (object fields).record? names least = some (object fields) := rfl

/-- A list of values, each read by `f`. -/
def list? (f : Json → Option α) : Json → Option (List α)
  | array items => items.mapM f
  | _ => none

end Json

end Footprint
