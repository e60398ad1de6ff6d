import Footprint.Error

namespace Footprint.FigureSet

/-- The first shared field on which some figure differs from the first one. -/
def disagreement? (driver : Figure) (others : List Figure) : Option SharedField :=
  SharedField.all.find? fun field => !others.all fun f => field.agrees driver f

/-- The set of the figures kept for a trace, none when there are none. -/
def ofFigures (trace : Uuid) : List Figure → Except Error (Option FigureSet)
  | [] => .ok none
  | driver :: others =>
    match disagreement? driver others with
    | some field => .error (.inconsistent field trace)
    | none => .ok (some ⟨driver, others⟩)

end Footprint.FigureSet
