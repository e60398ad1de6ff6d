namespace Footprint.Toml

/-- How a table was defined, which decides what may still be added to it. -/
inductive Origin where
  /-- By a header of its own. -/
  | header
  /-- As part of the path in the header of another table. -/
  | implied
  /-- As part of a dotted key. -/
  | dotted
  /-- In braces. -/
  | braces
deriving DecidableEq, Repr

inductive Value where
  | string (s : String)
  | integer (n : Int)
  | float (x : Float)
  | boolean (b : Bool)
  | datetime (text : String)
  | array (items : List Value)
  | table (origin : Origin) (fields : List (String × Value))
  /-- Tables collected under a header in double brackets. -/
  | tables (items : List (Origin × List (String × Value)))

abbrev Fields := List (String × Value)

namespace Fields

def get? (fields : Fields) (name : String) : Option Value :=
  (fields.find? fun f => f.1 == name).map (·.2)

/-- Replaces the value of a field, or adds the field at the end. -/
def set (name : String) (value : Value) (fields : Fields) : Fields :=
  if fields.any fun f => f.1 == name then
    fields.map fun f => if f.1 == name then (name, value) else f
  else fields ++ [(name, value)]

/-- Changes the table at a path, given how it was defined. Tables missing on the way are made; a
collection of tables is entered at its last one. With `dotted` the path belongs to a key, which may
not reach into a table that has a header. -/
def alter (dotted : Bool) (change : Origin → Fields → Option Fields) :
    List String → Origin → Fields → Option Fields
  | [], origin, fields => change origin fields
  | name :: path, _, fields =>
    match fields.get? name with
    | none =>
      let origin := if dotted then Origin.dotted else .implied
      (alter dotted change path origin []).map fun inner => fields.set name (.table origin inner)
    | some (.table origin inner) =>
      if origin = .braces ∨ (dotted ∧ origin = .header) then none
      else
        (alter dotted change path origin inner).map fun inner =>
          fields.set name (.table origin inner)
    | some (.tables items) =>
      match items.getLast? with
      | none => none
      | some (origin, inner) =>
        (alter dotted change path origin inner).map fun inner =>
          fields.set name (.tables (items.dropLast ++ [(origin, inner)]))
    | some _ => none

/-- Adds a field that is not there yet. -/
def add? (name : String) (value : Value) (fields : Fields) : Option Fields :=
  if (fields.get? name).isSome then none else some (fields ++ [(name, value)])

/-- Adds the value of a possibly dotted key. The table it goes to has to be made by dotted keys
exactly when the key is dotted. -/
def addKey (path : List String) (name : String) (value : Value) (origin : Origin)
    (fields : Fields) : Option Fields :=
  alter true
    (fun origin inner =>
      if path.isEmpty ∨ origin = .dotted then inner.add? name value else none)
    path origin fields

/-- Opens a table by its header. A table that other headers implied may still get one. -/
def openTable (path : List String) (name : String) (fields : Fields) : Option Fields :=
  alter false
    (fun _ outer =>
      match outer.get? name with
      | none => some (outer ++ [(name, .table .header [])])
      | some (.table .implied inner) => some (outer.set name (.table .header inner))
      | some _ => none)
    path .header fields

/-- Adds one more table to a collection. -/
def openItem (path : List String) (name : String) (fields : Fields) : Option Fields :=
  alter false
    (fun _ outer =>
      match outer.get? name with
      | none => some (outer ++ [(name, .tables [(.header, [])])])
      | some (.tables items) => some (outer.set name (.tables (items ++ [(.header, [])])))
      | some _ => none)
    path .header fields

end Fields

end Footprint.Toml
