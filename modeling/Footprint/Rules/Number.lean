import Footprint.Error

namespace Footprint.Rules

/-- The violation unless the condition holds. -/
def require (holds : Bool) (violation : Violation) : List Violation :=
  if holds then [] else [violation]

def inRange (x : Float) : Bool :=
  x.isFinite && 0 ≤ x && x ≤ Violation.numberBound

/-- A number is in range and its shortest decimal has no more digits after the point than
allowed. -/
def number (field : String) (x : Float) : List Violation :=
  if inRange x then
    require (Decimal.fractionDigits x ≤ Violation.fractionBound) (.tooPrecise field x)
  else [.outOfRange field x]

def optionalNumber (field : String) (x : Option Float) : List Violation :=
  (x.map (number field)).getD []

/-- A text has no more characters than allowed. -/
def length (field : String) (text : Option String) (limit : Nat) : List Violation :=
  match text with
  | some s => require (s.length ≤ limit) (.tooLong field limit s.length)
  | none => []

end Footprint.Rules
