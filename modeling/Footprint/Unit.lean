import Footprint.Enumerated

namespace Footprint

/-- What an emission is stated per. -/
inductive DeclaredUnit where
  | liter
  | kilogram
  | cubicMeter
  | kilowattHour
  | megajoule
  | tonKilometer
  | squareMeter
  | unit
deriving DecidableEq, Repr, Inhabited

/-- What the amount of a component is counted in; `notSet` has the empty literal. -/
inductive AmountUnit where
  | liter
  | kilogram
  | cubicMeter
  | kilowattHour
  | megajoule
  | tonKilometer
  | squareMeter
  | unit
  | notSet
deriving DecidableEq, Repr, Inhabited

instance : Enumerated DeclaredUnit where
  typeName := "GhgDeclaredUnit"
  all := [.liter, .kilogram, .cubicMeter, .kilowattHour, .megajoule, .tonKilometer, .squareMeter,
    .unit]
  literal
    | .liter => "kgCO2e/liter"
    | .kilogram => "kgCO2e/kilogram"
    | .cubicMeter => "kgCO2e/cubic-meter"
    | .kilowattHour => "kgCO2e/kilowatt-hour"
    | .megajoule => "kgCO2e/megajoule"
    | .tonKilometer => "kgCO2e/ton-kilometer"
    | .squareMeter => "kgCO2e/square-meter"
    | .unit => "kgCO2e/unit"
  mem_all a := by cases a <;> decide
  literal_injective a b := by cases a <;> cases b <;> decide

instance : Enumerated AmountUnit where
  typeName := "AmountRequiredUnit"
  all := [.liter, .kilogram, .cubicMeter, .kilowattHour, .megajoule, .tonKilometer, .squareMeter,
    .unit, .notSet]
  literal
    | .liter => "liter"
    | .kilogram => "kilogram"
    | .cubicMeter => "cubic-meter"
    | .kilowattHour => "kilowatt-hour"
    | .megajoule => "megajoule"
    | .tonKilometer => "ton-kilometer"
    | .squareMeter => "square-meter"
    | .unit => "unit"
    | .notSet => ""
  mem_all a := by cases a <;> decide
  literal_injective a b := by cases a <;> cases b <;> decide

/-- No declared unit has the empty literal, so that literal can stand for an absent unit. -/
theorem DeclaredUnit.literal_ne_empty (u : DeclaredUnit) : Enumerated.literal u ≠ "" := by
  cases u <;> decide

end Footprint
