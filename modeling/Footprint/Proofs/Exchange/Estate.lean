import Footprint.Proofs.Exchange.Totals
import Footprint.Proofs.Trade.Reference

namespace Footprint

open Table Exchange

namespace Store

/-- Whether the part is the operator's, be it deleted. -/
def owns (s : Store) (operator trace : Uuid) : Bool :=
  s.parts.any fun r => r.trace = trace && r.operator = operator

/-- Whether a live request of the operator is answered with the part. -/
def supplies (s : Store) (operator trace : Uuid) : Bool :=
  s.trades.any fun t => t.requester = operator && t.isLive && t.supplierPart = some trace

/-- The rows that an operator reads. -/
def estate (s : Store) (operator : Uuid) : Store where
  parts := s.parts.filter (·.operator = operator)
  placements := s.placements.filter (s.owns operator ·.trace)
  figures := s.figures.filter fun r => s.owns operator r.trace || s.supplies operator r.trace
  trades := s.trades.filter fun t => t.requester = operator && t.isLive
  statuses := []

end Store

variable {s : Store} {operator parent trace : Uuid} {p : Part} {r : PartRecord}

theorem Store.owns_iff :
    s.owns operator trace ↔ ∃ r ∈ s.parts, r.trace = trace ∧ r.operator = operator := by
  simp [Store.owns]

theorem Store.owns_of_part? (h : s.part? operator trace = .ok (some p)) :
    s.owns operator trace := by
  obtain ⟨r, hr, htrace, hoperator, -⟩ := Store.part?_eq_some h
  exact Store.owns_iff.2 ⟨r, hr, htrace, hoperator⟩

/-- A part has one owner. -/
theorem operator_of_owns (hs : Reachable s) (howns : s.owns operator trace) (hr : r ∈ s.parts)
    (htrace : r.trace = trace) : r.operator = operator := by
  obtain ⟨q, hq, hqt, hoperator⟩ := Store.owns_iff.1 howns
  rw [eq_of_key_eq (nodup_parts hs) hr hq (htrace.trans hqt.symm), hoperator]

theorem not_owns_of_owns {other : Uuid} (hs : Reachable s) (howns : s.owns operator trace)
    (hother : other ≠ operator) : s.owns other trace = false := by
  rw [Bool.eq_false_iff]
  intro howns'
  obtain ⟨r, hr, htrace, hoperator⟩ := Store.owns_iff.1 howns'
  exact hother (hoperator.symm.trans (operator_of_owns hs howns hr htrace))

theorem supplies_of_requestFor? (hs : Reachable s) (howns : s.owns operator trace) {t : Trade}
    {part : Uuid} (ht : s.requestFor? trace = some t) (hpart : t.supplierPart = some part) :
    s.supplies operator part := by
  obtain ⟨q, hq, htrace, hlive, rfl⟩ := Store.requestFor?_eq_some ht
  obtain ⟨r, hr, hrt, -, hoperator⟩ := (Referenced.of_reachable hs q hq hlive).requested
  have hrequester : q.requester = operator :=
    hoperator.symm.trans (operator_of_owns hs howns hr (hrt.trans htrace))
  refine List.any_eq_true.2 ⟨q, hq, ?_⟩
  simp only [Bool.and_eq_true, decide_eq_true_eq]
  exact ⟨⟨hrequester, hlive⟩, hpart⟩

theorem part?_estate (s : Store) (operator trace : Uuid) :
    (s.estate operator).part? operator trace = s.part? operator trace := by
  refine congrArg (readOptional PartRecord.part) (find?_filter_of_imp fun r _ hfound => ?_)
  simp only [Bool.and_eq_true] at hfound
  exact hfound.1.2

theorem isParent_estate (howns : s.owns operator trace) :
    (s.estate operator).isParent trace = s.isParent trace := by
  have hplacement : (s.estate operator).placement? trace = s.placement? trace := by
    refine congrArg (Option.map _) (find?_filter_of_imp fun q _ hfound => ?_)
    rw [of_decide_eq_true hfound]
    exact howns
  rw [Store.isParent, hplacement, Store.isParent]

theorem ne_nil_of_owns (hs : Reachable s) (howns : s.owns operator trace) : trace ≠ Uuid.nil := by
  obtain ⟨r, hr, rfl, -⟩ := Store.owns_iff.1 howns
  exact (Arranged.of_reachable hs).named r hr

/-- What stands under a part has the same owner. -/
theorem owns_parent_iff (hs : Reachable s) {q : PlacementRecord} (hq : q ∈ s.placements)
    (hnil : q.parent ≠ Uuid.nil) : s.owns operator q.parent ↔ s.owns operator q.trace := by
  obtain ⟨owner, hchild, hhead⟩ := (Arranged.of_reachable hs).owners q hq hnil
  obtain ⟨r, hr, howner⟩ := List.mem_map.1 hchild
  obtain ⟨top, htop, howner'⟩ := List.mem_map.1 hhead
  have hrtrace : r.trace = q.trace := congrArg Prod.fst howner
  have htoptrace : top.trace = q.parent := congrArg Prod.fst howner'
  have hsame : top.operator = r.operator :=
    (congrArg Prod.snd howner').trans (congrArg Prod.snd howner).symm
  constructor
  · intro howns
    exact Store.owns_iff.2
      ⟨r, hr, hrtrace, hsame.symm.trans (operator_of_owns hs howns htop htoptrace)⟩
  · intro howns
    exact Store.owns_iff.2
      ⟨top, htop, htoptrace, hsame.trans (operator_of_owns hs howns hr hrtrace)⟩

theorem children_estate (hs : Reachable s) (howns : s.owns operator parent) :
    (s.estate operator).children parent = s.children parent := by
  have hunder {q : PlacementRecord} (hq : q ∈ s.placements) (hparent : q.parent = parent) :
      s.owns operator q.trace := by
    rw [← hparent] at howns
    exact (owns_parent_iff hs hq (ne_nil_of_owns hs howns)).1 howns
  have hplacements : (s.estate operator).placements.filter (fun q => q.parent = parent) =
      s.placements.filter fun q => q.parent = parent :=
    filter_filter_of_imp fun q hq hparent => hunder hq (of_decide_eq_true hparent)
  have htraces : (s.estate operator).childTraces parent = s.childTraces parent := by
    rw [Store.childTraces, hplacements, Store.childTraces]
  have howned : ∀ trace ∈ s.childTraces parent, s.owns operator trace := by
    intro trace htrace
    obtain ⟨q, hq, rfl⟩ := List.mem_map.1 htrace
    rw [List.mem_mergeSort, List.mem_filter, decide_eq_true_eq] at hq
    exact hunder hq.1 hq.2
  have hpool : (s.estate operator).parts.filter
        (fun r => (s.childTraces parent).contains r.trace && r.isLive) =
      s.parts.filter fun r => (s.childTraces parent).contains r.trace && r.isLive := by
    refine filter_filter_of_imp fun r hr hfound => decide_eq_true ?_
    simp only [Bool.and_eq_true, List.contains_eq_mem, decide_eq_true_eq] at hfound
    exact operator_of_owns hs (howned _ hfound.1) hr rfl
  rw [Store.children, htraces, hpool, Store.children]

theorem assembly?_estate (hs : Reachable s) (operator parent : Uuid) :
    (s.estate operator).assembly? operator parent = s.assembly? operator parent := by
  rw [Store.assembly?, part?_estate, Store.assembly?]
  cases hpart : s.part? operator parent with
  | error e => rfl
  | ok o =>
    cases o with
    | none => rfl
    | some p =>
      have howns := Store.owns_of_part? hpart
      rw [ok_bind, ok_bind, isParent_estate howns, children_estate hs howns]

theorem storedSet_estate (h : s.owns operator trace || s.supplies operator trace) :
    storedSet (s.estate operator) trace = storedSet s trace := by
  have hfigures : (s.estate operator).figures.filter (fun r => r.trace = trace) =
      s.figures.filter fun r => r.trace = trace := by
    refine filter_filter_of_imp fun r _ htrace => ?_
    rw [of_decide_eq_true htrace]
    exact h
  rw [storedSet, Store.figuresOf, hfigures, storedSet, Store.figuresOf]

theorem requestFor?_estate (hs : Reachable s) (howns : s.owns operator trace) :
    (s.estate operator).requestFor? trace = s.requestFor? trace := by
  refine congrArg (Option.map _) (find?_filter_of_imp fun t ht hfound => ?_)
  simp only [Bool.and_eq_true, decide_eq_true_eq] at hfound ⊢
  obtain ⟨htrace, hlive⟩ := hfound
  obtain ⟨r, hr, hrt, -, hoperator⟩ := (Referenced.of_reachable hs t ht hlive).requested
  exact ⟨hoperator.symm.trans (operator_of_owns hs howns hr (hrt.trans htrace)), hlive⟩

theorem suppliedSet_estate (hs : Reachable s) (howns : s.owns operator trace) :
    suppliedSet (s.estate operator) trace = suppliedSet s trace := by
  rw [suppliedSet, requestFor?_estate hs howns, suppliedSet]
  cases ht : s.requestFor? trace with
  | none => rfl
  | some t =>
    cases hpart : t.supplierPart with
    | none => simp [hpart]
    | some part =>
      have hsupplies := supplies_of_requestFor? hs howns ht hpart
      simp only [Option.bind_some, hpart]
      exact storedSet_estate (by simp [hsupplies])

theorem contribution_estate (hs : Reachable s) (howns : s.owns operator p.trace) :
    contribution (s.estate operator) p = contribution s p := by
  rw [contribution, suppliedSet_estate hs howns, storedSet_estate (by simp [howns]), contribution]

theorem addChildren_estate (hs : Reachable s) {children : List Part}
    (howns : ∀ p ∈ children, s.owns operator p.trace) {unit : Option DeclaredUnit}
    (c : Components) :
    children.foldlM (addChild (s.estate operator) trace unit) c =
      children.foldlM (addChild s trace unit) c := by
  induction children generalizing c with
  | nil => rfl
  | cons p ps ih =>
    obtain ⟨hp, hps⟩ := List.forall_mem_cons.1 howns
    have hstep : addChild (s.estate operator) trace unit c p = addChild s trace unit c p := by
      rw [addChild, contribution_estate hs hp, addChild]
    rw [List.foldlM_cons, List.foldlM_cons, hstep]
    exact congrArg _ (funext fun c => ih hps c)

theorem classOf_estate (hs : Reachable s) (howns : s.owns p.operator p.trace) :
    classOf (s.estate p.operator) p = classOf s p := by
  rw [classOf, isParent_estate howns, assembly?_estate hs, classOf]

/-- The children by which a part is classed are its operator's. -/
theorem owns_of_classOf (hs : Reachable s) {children : List Part}
    (h : classOf s p = .ok (.parent children)) :
    ∀ child ∈ children, s.owns p.operator child.trace := by
  rw [classOf] at h
  split at h
  · cases h
  split at h
  · obtain ⟨o, ha, h⟩ := bind_eq_ok.1 h
    cases o with
    | none => cases h
    | some a =>
      have hchildren : children = a.children := by
        simp only [Option.map_some, Option.getD_some] at h
        split at h
        · cases h
        · rename_i hsplit
          cases h
          exact hsplit.symm
      intro child hchild
      rw [hchildren] at hchild
      exact Store.owns_of_part? (child_of_assembly hs ha hchild).1
  · cases h

theorem partFigures?_estate (hs : Reachable s) (howns : s.owns p.operator p.trace) :
    partFigures? (s.estate p.operator) p = partFigures? s p := by
  have hclass := classOf_estate hs howns
  have hstored : storedSet (s.estate p.operator) p.trace = storedSet s p.trace :=
    storedSet_estate (by simp [howns])
  cases hk : classOf s p with
  | error e => rw [partFigures?, hclass, partFigures?, hk]; rfl
  | ok k =>
    rw [hk] at hclass
    cases k with
    | terminal isParent =>
      rw [partFigures?_terminal hclass, partFigures?_terminal hk, hstored]
    | imported =>
      rw [partFigures?_imported hclass, partFigures?_imported hk, requestFor?_estate hs howns,
        suppliedSet_estate hs howns]
    | parent children =>
      have hchildren := owns_of_classOf hs hk
      rw [partFigures?_parent hclass, partFigures?_parent hk, hstored]
      simp only [addChildren_estate hs hchildren]

theorem vector_estate (hs : Reachable s) (operator trace : Uuid) :
    vector (s.estate operator) operator trace = vector s operator trace := by
  cases hpart : s.part? operator trace with
  | error e => rw [vector, part?_estate, vector, hpart]; rfl
  | ok o =>
    cases o with
    | none => rw [vector, part?_estate, vector, hpart]; rfl
    | some p =>
      have hpart' := (part?_estate s operator trace).trans hpart
      obtain ⟨htrace, hoperator⟩ := trace_of_part? hpart
      have howns : s.owns p.operator p.trace := by
        rw [htrace, hoperator]
        exact Store.owns_of_part? hpart
      rw [vector_eq hpart, vector_eq hpart', ← hoperator, partFigures?_estate hs howns]

/-- In a reachable store an operator reads nothing but its estate. -/
theorem figuresFor_estate (hs : Reachable s) (operator : Uuid) (traces : List Uuid) :
    figuresFor (s.estate operator) operator traces = figuresFor s operator traces := by
  rw [figuresFor, funext (vector_estate hs operator), figuresFor]

end Footprint
