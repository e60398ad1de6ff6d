import Footprint.Proofs.Exchange.Renaming
import Footprint.Proofs.Part.Moves
import Footprint.Proofs.Rules.Legal

namespace Footprint

open Exchange

/-- What is wrong with a draft on its own. -/
def PartDraft.faults (operator : Uuid) (slot : Slot) (d : PartDraft) : List Violation :=
  (if d.operator = operator then [] else [Violation.foreignOperator slot])
    ++ (if d.plant = none then [Violation.slotPlantMissing slot] else [])
    ++ (if Text.isBlankText d.name ∨ Violation.nameBound < d.name.length then
        [Violation.badName slot]
      else [])
    ++ (if ∃ text ∈ d.supportName, Violation.nameBound < text.length then
        [Violation.longSupportName slot]
      else [])
    ++ Violation.rejections (d.amount.toList.map (slot.label ++ ".amountRequired", ·))

/-- The trace of a draft, if one of the drafts before names it too. -/
def PartDraft.repeats (before : List PartDraft) (slot : Slot) (d : PartDraft) : List Violation :=
  (d.trace.toList.filter (· ∈ before.filterMap (·.trace))).map (.repeatedTrace slot)

/-- What is wrong with an assembly: its parent, and every child with its trace. -/
def AssemblyDraft.faults (operator : Uuid) (draft : AssemblyDraft) : List Violation :=
  (draft.parent.map (·.faults operator .parent)).getD [.parentMissing]
    ++ (draft.children.mapIdx fun index d =>
      d.faults operator (.child index)
        ++ d.repeats (draft.parent.toList ++ draft.children.take index) (.child index)).flatten

/-- An assembly that an operator may submit, whatever is stored. -/
structure LegalAssembly (operator : Uuid) (draft : AssemblyDraft) : Prop where
  parent : draft.parent ≠ none
  drafts : ∀ d ∈ draft.parent.toList ++ draft.children, d.Obeys operator
  named : draft.named.Nodup

def Violation.isRepeat : Violation → Bool
  | .repeatedTrace _ _ => true
  | _ => false

variable {operator caller parent trace : Uuid} {slot : Slot} {d : PartDraft} {ds : List PartDraft}
variable {draft : AssemblyDraft} {s : Store} {seen : List Uuid} {index : Nat}

namespace Rules

theorem draft_eq_faults : Rules.draft operator slot d = d.faults operator slot := by
  have hname : require (!Text.isBlankText d.name && decide (d.name.length ≤ Violation.nameBound))
      (.badName slot) =
        if Text.isBlankText d.name ∨ Violation.nameBound < d.name.length then [.badName slot]
        else [] := by
    cases hblank : Text.isBlankText d.name <;>
      by_cases hlength : d.name.length ≤ Violation.nameBound <;> simp [require, hlength]
  have hsupport : require (d.supportName.all fun text => text.length ≤ Violation.nameBound)
      (.longSupportName slot) =
        if ∃ text ∈ d.supportName, Violation.nameBound < text.length then [.longSupportName slot]
        else [] := by
    cases d.supportName with
    | none => simp [require]
    | some text =>
      by_cases hlength : text.length ≤ Violation.nameBound <;> simp [require, hlength]
  have hplant : require d.plant.isSome (.slotPlantMissing slot) =
      if d.plant = none then [.slotPlantMissing slot] else [] := by
    cases d.plant <;> simp [require]
  rw [Rules.draft, PartDraft.faults, hname, hsupport, hplant, optionalNumber_eq_rejections]
  simp [require]

theorem childDrafts_cons : childDrafts operator index seen (d :: ds) =
    Rules.draft operator (.child index) d
      ++ (d.trace.toList.filter (· ∈ seen)).map (.repeatedTrace (.child index))
      ++ childDrafts operator (index + 1) (d.trace.toList ++ seen) ds := by
  rw [childDrafts]
  cases d.trace with
  | none => rfl
  | some trace => by_cases hmem : trace ∈ seen <;> simp [require, hmem]

/-- The traces seen are those that the drafts before have named. -/
theorem childDrafts_eq_faults {before : List PartDraft}
    (hseen : ∀ trace, trace ∈ seen ↔ trace ∈ before.filterMap (·.trace)) :
    childDrafts operator index seen ds =
      (ds.mapIdx fun i d => d.faults operator (.child (index + i))
        ++ d.repeats (before ++ ds.take i) (.child (index + i))).flatten := by
  induction ds generalizing index seen before with
  | nil => rfl
  | cons d ds ih =>
    have hrepeats : (d.trace.toList.filter (· ∈ seen)).map (.repeatedTrace (.child index)) =
        d.repeats before (.child index) := by
      simp only [PartDraft.repeats, hseen]
    have hseen' (trace : Uuid) : trace ∈ d.trace.toList ++ seen ↔
        trace ∈ (before ++ [d]).filterMap (·.trace) := by
      rw [List.filterMap_append, List.mem_append, List.mem_append, hseen trace, or_comm]
      cases hname : d.trace <;> simp [hname]
    rw [childDrafts_cons, hrepeats, draft_eq_faults, ih hseen', List.mapIdx_cons,
      List.flatten_cons]
    simp only [List.take_zero, List.append_nil, Nat.add_zero, List.take_succ_cons,
      List.append_assoc, List.singleton_append, Nat.add_right_comm index 1, ← Nat.add_assoc]

theorem assembly_eq_append : Rules.assembly operator draft =
    (draft.parent.map (Rules.draft operator .parent)).getD [.parentMissing]
      ++ childDrafts operator 0 (draft.parent.bind (·.trace)).toList draft.children := by
  rw [Rules.assembly]
  cases draft.parent <;> rfl

theorem assembly_eq_faults : Rules.assembly operator draft = draft.faults operator := by
  have hseen (trace : Uuid) : trace ∈ (draft.parent.bind (·.trace)).toList ↔
      trace ∈ draft.parent.toList.filterMap (·.trace) := by
    cases draft.parent <;> simp
  have hdraft : Rules.draft operator .parent = fun d => d.faults operator .parent :=
    funext fun d => draft_eq_faults
  rw [assembly_eq_append, AssemblyDraft.faults, childDrafts_eq_faults hseen, hdraft]
  simp only [Nat.zero_add]

theorem assembly_eq_nil_iff_legal :
    Rules.assembly operator draft = [] ↔ LegalAssembly operator draft := by
  rw [assembly_eq_nil_iff]
  constructor
  · rintro ⟨d, hparent, hobeys, hnodup⟩
    refine ⟨by simp [hparent], ?_, ?_⟩
    · rwa [hparent]
    · rwa [AssemblyDraft.named, hparent]
  · rintro ⟨hsome, hobeys, hnodup⟩
    obtain ⟨d, hparent⟩ := Option.ne_none_iff_exists'.1 hsome
    rw [hparent] at hobeys
    rw [AssemblyDraft.named, hparent] at hnodup
    exact ⟨d, hparent, hobeys, hnodup⟩

theorem countP_isRepeat_draft : (Rules.draft operator slot d).countP Violation.isRepeat = 0 := by
  have hrequire {holds : Bool} {v : Violation} (h : v.isRepeat = false) :
      (require holds v).countP Violation.isRepeat = 0 := by
    cases holds <;> simp [require, h]
  have hamount : (optionalNumber (slot.label ++ ".amountRequired") d.amount).countP
      Violation.isRepeat = 0 := by
    rw [optionalNumber_eq_rejections, Violation.rejections, List.countP_eq_zero]
    intro v hv
    obtain ⟨⟨field, x⟩, -, rfl⟩ := List.mem_map.1 hv
    change ¬(Violation.rejected field x).isRepeat
    rw [Violation.rejected]
    split <;> exact Bool.false_ne_true
  simp only [Rules.draft, List.countP_append, hamount]
  rw [hrequire rfl, hrequire rfl, hrequire rfl, hrequire rfl]

/-- Every named trace is a repetition or one more that has been seen. -/
theorem countP_isRepeat_childDrafts (index : Nat) (seen : List Uuid) :
    (childDrafts operator index seen ds).countP Violation.isRepeat
        + (seen ++ ds.filterMap (·.trace)).toFinset.card =
      (ds.filterMap (·.trace)).length + seen.toFinset.card := by
  induction ds generalizing index seen with
  | nil => simp [childDrafts]
  | cons d ds ih =>
    rw [childDrafts_cons, List.countP_append, List.countP_append, countP_isRepeat_draft]
    cases hname : d.trace with
    | none => simpa [hname] using ih (index + 1) seen
    | some trace =>
      have hrest := ih (index + 1) (trace :: seen)
      have hsame : (seen ++ trace :: ds.filterMap (·.trace)).toFinset =
          (trace :: seen ++ ds.filterMap (·.trace)).toFinset := by
        ext x
        simp only [List.mem_toFinset, List.mem_append, List.mem_cons]
        tauto
      simp only [List.filterMap_cons, hname, hsame, List.length_cons, Option.toList_some,
        List.singleton_append]
      by_cases hmem : trace ∈ seen
      · have hcard : (trace :: seen).toFinset.card = seen.toFinset.card := by
          rw [List.toFinset_cons, Finset.insert_eq_of_mem (List.mem_toFinset.2 hmem)]
        have hone : (([trace].filter (· ∈ seen)).map (.repeatedTrace (.child index))).countP
            Violation.isRepeat = 1 := by
          simp [hmem, Violation.isRepeat]
        omega
      · have hcard : (trace :: seen).toFinset.card = seen.toFinset.card + 1 := by
          rw [List.toFinset_cons, Finset.card_insert_of_notMem (mt List.mem_toFinset.1 hmem)]
        have hnone : (([trace].filter (· ∈ seen)).map (.repeatedTrace (.child index))).countP
            Violation.isRepeat = 0 := by
          simp [hmem]
        omega

theorem countP_isRepeat_assembly :
    (Rules.assembly operator draft).countP Violation.isRepeat + draft.named.toFinset.card =
      draft.named.length := by
  have hnamed : draft.named =
      (draft.parent.bind (·.trace)).toList ++ draft.children.filterMap (·.trace) := by
    rw [AssemblyDraft.named, List.filterMap_append]
    cases hparent : draft.parent with
    | none => rfl
    | some d => cases hname : d.trace <;> simp [hname]
  have hparent : ((draft.parent.map (Rules.draft operator .parent)).getD
      [.parentMissing]).countP Violation.isRepeat = 0 := by
    cases draft.parent with
    | none => rfl
    | some d => exact countP_isRepeat_draft
  have hhead : (draft.parent.bind (·.trace)).toList.toFinset.card =
      (draft.parent.bind (·.trace)).toList.length := by
    cases draft.parent.bind (·.trace) <;> rfl
  rw [assembly_eq_append, List.countP_append, hparent, Nat.zero_add, hnamed,
    countP_isRepeat_childDrafts, hhead, List.length_append, Nat.add_comm]

end Rules

namespace Store

theorem part_ne_invalid {r : PartRecord} {violations : List Violation} :
    r.part ≠ .error (.invalid violations) := by
  intro h
  rcases bind_eq_error.1 h with h | ⟨unit, -, h⟩
  · obtain ⟨text, -, -, he⟩ := readOptionalLiteral_eq_error.1 h
    cases he
  · cases h

theorem part?_ne_invalid {violations : List Violation} :
    s.part? operator trace ≠ .error (.invalid violations) := by
  intro h
  obtain ⟨r, -, hread⟩ := readOptional_eq_error.1 h
  exact part_ne_invalid hread

theorem assembly?_ne_invalid {violations : List Violation} :
    s.assembly? operator parent ≠ .error (.invalid violations) := by
  intro h
  rcases bind_eq_error.1 h with h | ⟨o, -, h⟩
  · exact part?_ne_invalid h
  · cases o with
    | none => cases h
    | some p =>
      dsimp only at h
      split at h
      · rcases bind_eq_error.1 h with h | ⟨children, -, h⟩
        · obtain ⟨r, -, hread⟩ := exists_of_mapM_eq_error h
          exact part_ne_invalid hread
        · cases h
      · cases h

end Store

theorem checkNamed_eq_invalid {violations : List Violation}
    (h : checkNamed s caller parent slot trace = .error (.invalid violations)) :
    violations = [.otherAssembly trace] := by
  rcases bind_eq_error.1 h with h | ⟨o, -, h⟩
  · exact absurd h Store.part?_ne_invalid
  · cases o with
    | none => cases h
    | some p =>
      dsimp only at h
      split at h
      · cases h
      · split at h
        · cases h
        · cases h
          rfl

/-- Past the rules no data is refused but a part that is named in another's place. -/
theorem violations_of_putAssembly {ids : List Uuid} {violations : List Violation}
    (hlegal : LegalAssembly caller draft)
    (h : Exchange.putAssembly ids caller draft s = .error (.invalid violations)) :
    ∃ trace, violations = [.otherAssembly trace] := by
  obtain ⟨d, hparent⟩ := Option.ne_none_iff_exists'.1 hlegal.parent
  obtain ⟨trace, ids', hassigned, -⟩ := assignTraces_cons ids d.trace
  have hrules := Rules.assembly_eq_nil_iff_legal.2 hlegal
  rw [putAssembly_eq hrules hparent (hassigned _)] at h
  rcases bind_eq_error.1 h with hnamed | ⟨⟨⟩, -, h⟩
  · obtain ⟨_, ⟨slot, name⟩, _, -, -, hcheck⟩ := forM_eq_error_iff.1 hnamed
    exact ⟨name, checkNamed_eq_invalid hcheck⟩
  · rcases bind_eq_error.1 h with hexisting | ⟨existing, -, h⟩
    · exact absurd hexisting Store.assembly?_ne_invalid
    · rcases bind_eq_error.1 h with htraded | ⟨⟨⟩, -, h⟩
      · obtain ⟨_, name, _, -, -, hcheck⟩ := forM_eq_error_iff.1 htraded
        rw [requireUntraded] at hcheck
        split at hcheck <;> cases hcheck
      · cases h

/-- The rules accept an assembly if and only if it is legal. Any other is refused with every fault
of every part, and those that repeat a trace are as many as the named traces exceed the distinct
ones. Registration refuses with the same faults, and it finds neither a parent nor a plant missing
once the rules are passed. -/
theorem assembly_accepted_iff_legal (operator : Uuid) (draft : AssemblyDraft) :
    (refuse (Rules.assembly operator draft) = .ok () ↔ LegalAssembly operator draft) ∧
      (¬LegalAssembly operator draft →
        refuse (Rules.assembly operator draft) = .error (.invalid (draft.faults operator))) ∧
      (draft.faults operator).countP Violation.isRepeat + draft.named.toFinset.card =
        draft.named.length ∧
      ∀ ids s,
        (¬LegalAssembly operator draft →
          Exchange.putAssembly ids operator draft s =
            .error (.invalid (draft.faults operator))) ∧
        (LegalAssembly operator draft →
          Exchange.putAssembly ids operator draft s ≠ refuseWith .parentMissing ∧
          Exchange.putAssembly ids operator draft s ≠ refuseWith .plantMissing) := by
  have hrefused (hillegal : ¬LegalAssembly operator draft) :
      refuse (Rules.assembly operator draft) = .error (.invalid (draft.faults operator)) := by
    rw [refuse, if_neg, Rules.assembly_eq_faults]
    rwa [List.isEmpty_iff, Rules.assembly_eq_nil_iff_legal]
  refine ⟨?_, hrefused, ?_, fun ids s => ⟨fun hillegal => ?_, fun hlegal => ?_⟩⟩
  · rw [refuse_eq_ok_iff, Rules.assembly_eq_nil_iff_legal]
  · rw [← Rules.assembly_eq_faults]
    exact Rules.countP_isRepeat_assembly
  · rw [Exchange.putAssembly, hrefused hillegal]
    rfl
  · constructor
    all_goals
      intro h
      obtain ⟨trace, hviolations⟩ := violations_of_putAssembly hlegal h
      cases hviolations

end Footprint
