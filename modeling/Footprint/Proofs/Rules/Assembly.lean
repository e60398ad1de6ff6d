import Footprint.Proofs.Rules.Number
import Footprint.Rules.Assembly
import Mathlib.Data.List.Nodup

namespace Footprint

/-- A part that the operator may submit. -/
structure PartDraft.Obeys (operator : Uuid) (d : PartDraft) : Prop where
  operator : d.operator = operator
  plant : ∃ plant, d.plant = some plant
  name : Text.isBlankText d.name = false ∧ d.name.length ≤ Violation.nameBound
  supportName : ∀ text, d.supportName = some text → text.length ≤ Violation.nameBound
  amount : ∀ x ∈ d.amount, Rules.Admits x

namespace Rules

variable {operator : Uuid} {slot : Slot} {d : PartDraft} {ds : List PartDraft} {index : Nat}
variable {seen : List Uuid}

theorem draft_eq_nil_iff : draft operator slot d = [] ↔ d.Obeys operator := by
  simp only [draft, List.append_eq_nil_iff, require_eq_nil, decide_eq_true_eq,
    Option.isSome_iff_exists, Bool.and_eq_true, Bool.not_eq_true', Option.all_eq_true,
    optionalNumber_eq_nil]
  constructor
  · rintro ⟨⟨⟨⟨hoperator, hplant⟩, hname⟩, hsupport⟩, hamount⟩
    exact ⟨hoperator, hplant, hname, hsupport, hamount⟩
  · rintro ⟨hoperator, hplant, hname, hsupport, hamount⟩
    exact ⟨⟨⟨⟨hoperator, hplant⟩, hname⟩, hsupport⟩, hamount⟩

/-- A trace is named once, and the children name none of those seen before. -/
theorem childDrafts_eq_nil_iff : childDrafts operator index seen ds = [] ↔
    (∀ d ∈ ds, d.Obeys operator) ∧ (ds.filterMap (·.trace)).Nodup ∧
      ∀ trace ∈ ds.filterMap (·.trace), trace ∉ seen := by
  induction ds generalizing index seen with
  | nil => simp [childDrafts]
  | cons d ds ih =>
    simp only [childDrafts, List.append_eq_nil_iff, draft_eq_nil_iff, ih, List.forall_mem_cons,
      and_assoc]
    refine and_congr_right fun _ => ?_
    cases hname : d.trace with
    | none => simp [hname]
    | some name =>
      simp only [require_eq_nil, Bool.not_eq_true', List.contains_eq_mem, decide_eq_false_iff_not,
        Option.toList_some, List.cons_append, List.nil_append, List.mem_cons, not_or,
        List.filterMap_cons_some hname, List.nodup_cons, forall_eq_or_imp]
      constructor
      · rintro ⟨hunseen, hobeys, hnodup, hothers⟩
        exact ⟨hobeys, ⟨fun hmem => (hothers name hmem).1 rfl, hnodup⟩, hunseen,
          fun trace htrace => (hothers trace htrace).2⟩
      · rintro ⟨hobeys, ⟨hother, hnodup⟩, hunseen, hothers⟩
        refine ⟨hunseen, hobeys, hnodup, fun trace htrace => ⟨?_, hothers trace htrace⟩⟩
        rintro rfl
        exact hother htrace

/-- There is a parent, every part obeys rules that do not depend on its slot, and no trace is named
twice. -/
theorem assembly_eq_nil_iff {draft : AssemblyDraft} : assembly operator draft = [] ↔
    ∃ d, draft.parent = some d ∧ (∀ x ∈ d :: draft.children, x.Obeys operator) ∧
      ((d :: draft.children).filterMap (·.trace)).Nodup := by
  cases hparent : draft.parent with
  | none => simp [assembly, hparent]
  | some d =>
    simp only [assembly, hparent, List.append_eq_nil_iff, draft_eq_nil_iff,
      childDrafts_eq_nil_iff, Option.some.injEq, exists_eq_left', List.forall_mem_cons, and_assoc,
      Option.bind_some]
    refine and_congr_right fun _ => and_congr_right fun _ => ?_
    cases hname : d.trace with
    | none => simp [hname]
    | some name =>
      rw [List.filterMap_cons_some hname, List.nodup_cons, and_comm]
      refine and_congr_left fun _ => ⟨fun h hmem => h name hmem (by simp), fun h trace htrace => ?_⟩
      rw [Option.toList_some, List.mem_singleton]
      rintro rfl
      exact h htrace

theorem obeys_of_assembly {draft : AssemblyDraft} (h : assembly operator draft = [])
    (hparent : draft.parent = some d) : ∀ x ∈ d :: draft.children, x.Obeys operator := by
  obtain ⟨d', hparent', hobeys, -⟩ := assembly_eq_nil_iff.1 h
  rwa [Option.some.inj (hparent.symm.trans hparent')]

theorem nodup_of_assembly {draft : AssemblyDraft} (h : assembly operator draft = [])
    (hparent : draft.parent = some d) : ((d :: draft.children).filterMap (·.trace)).Nodup := by
  obtain ⟨d', hparent', -, hnodup⟩ := assembly_eq_nil_iff.1 h
  rwa [Option.some.inj (hparent.symm.trans hparent')]

end Rules

end Footprint
