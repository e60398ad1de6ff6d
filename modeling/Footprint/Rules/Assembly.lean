import Footprint.Rules.Number
import Footprint.Text.Blank

namespace Footprint.Rules

/-- The rules for one draft on its own. -/
def draft (operator : Uuid) (slot : Slot) (d : PartDraft) : List Violation :=
  require (d.operator = operator) (.foreignOperator slot)
    ++ require d.plant.isSome (.slotPlantMissing slot)
    ++ require (!Text.isBlankText d.name && d.name.length ≤ Violation.nameBound) (.badName slot)
    ++ require (d.supportName.all fun s => s.length ≤ Violation.nameBound) (.longSupportName slot)
    ++ optionalNumber (slot.label ++ ".amountRequired") d.amount

/-- The children from `index` on; `seen` holds the traces named before them. -/
def childDrafts (operator : Uuid) : Nat → List Uuid → List PartDraft → List Violation
  | _, _, [] => []
  | index, seen, d :: ds =>
    draft operator (.child index) d
      ++ (match d.trace with
        | some trace => require (!seen.contains trace) (.repeatedTrace (.child index) trace)
        | none => [])
      ++ childDrafts operator (index + 1) (d.trace.toList ++ seen) ds

def assembly (operator : Uuid) (a : AssemblyDraft) : List Violation :=
  (match a.parent with
    | some parent => draft operator .parent parent
    | none => [.parentMissing])
    ++ childDrafts operator 0 (a.parent.bind (·.trace)).toList a.children

end Footprint.Rules
