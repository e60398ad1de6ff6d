import Footprint.Proofs.Exchange.Final
import Footprint.Proofs.Exchange.Served
import Footprint.Proofs.Part.Moves

namespace Footprint

open Table Exchange

/-- Whether the part is the head or stands under it. -/
def Store.spans (s : Store) (head trace : Uuid) : Bool :=
  trace = head || s.placements.any fun q => q.trace = trace && q.parent = head

/-- The row of a part once it is removed. -/
def PartRecord.removed (now : Instant) (author : Uuid) (r : PartRecord) : PartRecord :=
  { r with deletedAt := some now, updatedAt := now, updatedBy := author }

/-- The rows of the parts of an assembly are deleted, their places and figures are gone. -/
def Store.withoutAssembly (s : Store) (now : Instant) (author head : Uuid) : Store :=
  { s with
    parts := updateWhere (fun r => s.spans head r.trace) (PartRecord.removed now author) s.parts
    placements := deleteWhere (fun q => s.spans head q.trace) s.placements
    figures := deleteWhere (fun r => s.spans head r.trace) s.figures }

/-- What a removal does: to the assembly that the part heads, and for the first of its parts that is
traded, in the order of their places. -/
structure Removes (s : Store) (c : Call) (head : Uuid) : Prop where
  succeeds : c.Succeeds s ↔ s.holds c.caller head ∧ s.Heads head ∧
    ∀ trace, s.spans head trace → ¬ s.Traded trace
  missing : ¬ (s.holds c.caller head ∧ s.Heads head) →
    c.served s = (.error (.partNotFound head), s)
  traded : s.holds c.caller head → s.Heads head → ∀ before trace after,
    head :: s.childTraces head = before ++ trace :: after → (∀ t ∈ before, ¬ s.Traded t) →
    s.Traded trace → c.served s = (.error (.partInUse trace), s)
  removed : c.Succeeds s → c.served s = (.ok .done, s.withoutAssembly c.now c.caller head)
  gone : c.Succeeds s → ∀ trace, s.spans head trace →
    ∃ r ∈ s.parts, r.trace = trace ∧ r.operator = c.caller ∧ r.isLive ∧
      (r.removed c.now c.caller).IsGone (s.withoutAssembly c.now c.caller head)

variable {s : Store} {c : Call} {caller head trace : Uuid} {a : Assembly} {now : Instant}

theorem spans_iff : s.spans head trace ↔ trace ∈ head :: s.childTraces head := by
  simp [Store.spans, mem_childTraces]

theorem exists_assembly_of_heads (hs : Reachable s) (hholds : s.holds caller head)
    (hheads : s.Heads head) : ∃ a, s.assembly? caller head = .ok (some a) := by
  obtain ⟨-, -, -, -, part, hpart, -⟩ := exists_part_of_holds hs hholds
  obtain ⟨existing, hread⟩ := (Coherent.of_reachable hs).exists_assembly? caller head
  obtain ⟨a, rfl⟩ := exists_of_assembly? hread hpart
    ((isParent_iff_heads (Arranged.of_reachable hs)).2 hheads)
  exact ⟨a, hread⟩

theorem heads_of_assembly? (hs : Reachable s) (ha : s.assembly? caller head = .ok (some a)) :
    s.holds caller head ∧ s.Heads head := by
  obtain ⟨hpart, hparent, -⟩ := assembly?_eq_some ha
  exact ⟨Store.holds_of_part? hpart, (isParent_iff_heads (Arranged.of_reachable hs)).1 hparent⟩

/-- The parts of an assembly in the order in which they are looked at. -/
theorem traces_of_assembly? (hs : Reachable s) (ha : s.assembly? caller head = .ok (some a)) :
    a.traces = head :: s.childTraces head := by
  obtain ⟨hpart, -, hchildren⟩ := assembly?_eq_some ha
  rw [Assembly.traces, Assembly.parts, List.map_cons, (trace_of_part? hpart).1,
    map_trace_children hs hchildren]

theorem removeAssembly_eq_withoutAssembly (hs : Reachable s)
    (ha : s.assembly? caller head = .ok (some a)) :
    s.removeAssembly now a = s.withoutAssembly now caller head := by
  have hcontains (trace : Uuid) : a.traces.contains trace = s.spans head trace := by
    rw [Bool.eq_iff_iff, spans_iff, traces_of_assembly? hs ha, List.contains_iff_mem]
  rw [Store.removeAssembly, Store.dropParts, (trace_of_part? (assembly?_eq_some ha).1).2]
  simp only [hcontains]
  rfl

theorem removeAssembly_of_missing (hs : Reachable s)
    (hmissing : ¬ (s.holds caller head ∧ s.Heads head)) :
    Exchange.removeAssembly caller head s = .error (.partNotFound head) := by
  obtain ⟨existing, hread⟩ := (Coherent.of_reachable hs).exists_assembly? caller head
  cases existing with
  | none => rw [Exchange.removeAssembly, hread, ok_bind]
  | some a => exact absurd (heads_of_assembly? hs hread) hmissing

theorem removeAssembly_eq (hs : Reachable s) (ha : s.assembly? caller head = .ok (some a)) :
    Exchange.removeAssembly caller head s =
      (head :: s.childTraces head).forM (requireUntraded s) >>= fun _ =>
        .ok (.removeAssembly a, ()) := by
  rw [Exchange.removeAssembly, ha, ok_bind]
  simp only [traces_of_assembly? hs ha]

theorem not_traded_iff : (∀ trace, s.spans head trace → ¬ s.Traded trace) ↔
    (head :: s.childTraces head).forM (requireUntraded s) = .ok () := by
  simp only [spans_iff, forM_eq_ok_iff, requireUntraded_eq_ok_iff]

theorem served_of_untraded (hs : Reachable s) (hop : c.op = .removeAssembly head)
    (hholds : s.holds c.caller head) (hheads : s.Heads head)
    (huntraded : ∀ trace, s.spans head trace → ¬ s.Traded trace) :
    c.served s = (.ok .done, s.withoutAssembly c.now c.caller head) := by
  obtain ⟨a, ha⟩ := exists_assembly_of_heads hs hholds hheads
  have hplan : Exchange.removeAssembly c.caller head s = .ok (.removeAssembly a, ()) := by
    rw [removeAssembly_eq hs ha, not_traded_iff.1 huntraded]
    rfl
  rw [← removeAssembly_eq_withoutAssembly hs ha]
  exact served_of_plan_ok (f := fun _ => .done) (by rw [hop]; rfl) hplan rfl

/-- Each part of a removed assembly was a live part of the operator, and its row is all that is
left of it. -/
theorem gone_of_spans (hs : Reachable s) (hs' : Reachable (s.withoutAssembly now caller head))
    (ha : s.assembly? caller head = .ok (some a)) (hspans : s.spans head trace) :
    ∃ r ∈ s.parts, r.trace = trace ∧ r.operator = caller ∧ r.isLive ∧
      (r.removed now caller).IsGone (s.withoutAssembly now caller head) := by
  have hmem : trace ∈ a.traces := by rwa [traces_of_assembly? hs ha, ← spans_iff]
  obtain ⟨r, hr, rfl, hoperator, hlive⟩ := Store.holds_iff.1 (holds_of_assembly hs ha trace hmem)
  refine ⟨r, hr, rfl, hoperator, hlive, isGone_of_dead_part hs' ?_ rfl⟩
  exact mem_updateWhere.2 (Or.inr ⟨r, hr, hspans, rfl⟩)

/-- A removal, for every caller and trace, in a reachable store. It succeeds if and only if the
trace is that of a live part of the caller which heads an assembly, and no live trade is for a part
of the assembly or is answered with one. Then the parts of the assembly, all of them live parts of the
caller, are deleted and nothing is kept for them but their rows, and all other rows are as before.
Otherwise nothing changes, and the first part that is traded is named if there is an assembly. -/
theorem assembly_removed_exact (hs : Reachable s) (hop : c.op = .removeAssembly head) :
    Removes s c head := by
  have hplan : c.op.plan c.limits c.now c.caller =
      Operation.withReply (fun _ => .done) (Exchange.removeAssembly c.caller head) := by
    rw [hop]
    rfl
  have hfresh : c.Fresh s := by simp [Call.Fresh, hop, Operation.minted]
  have hmissing (h : ¬ (s.holds c.caller head ∧ s.Heads head)) :
      c.served s = (.error (.partNotFound head), s) :=
    served_of_plan_error hplan (removeAssembly_of_missing hs h)
  have htraded (hholds : s.holds c.caller head) (hheads : s.Heads head) (before after : List Uuid)
      (trace : Uuid) (hsplit : head :: s.childTraces head = before ++ trace :: after)
      (hbefore : ∀ t ∈ before, ¬ s.Traded t) (htraded : s.Traded trace) :
      c.served s = (.error (.partInUse trace), s) := by
    obtain ⟨a, ha⟩ := exists_assembly_of_heads hs hholds hheads
    refine served_of_plan_error hplan ?_
    rw [removeAssembly_eq hs ha]
    refine bind_eq_error.2 (Or.inl (forM_eq_error_iff.2 ⟨before, trace, after, hsplit, ?_, ?_⟩))
    · exact fun t ht => requireUntraded_eq_ok_iff.2 (hbefore t ht)
    · exact if_pos (Store.isTraded_iff.2 htraded)
  have hsucceeds : c.Succeeds s ↔ s.holds c.caller head ∧ s.Heads head ∧
      ∀ trace, s.spans head trace → ¬ s.Traded trace := by
    constructor
    · intro h
      by_cases hfound : s.holds c.caller head ∧ s.Heads head
      case neg => exact absurd h (not_succeeds_of_error (hmissing hfound))
      obtain ⟨hholds, hheads⟩ := hfound
      refine ⟨hholds, hheads, not_traded_iff.2 ?_⟩
      cases hchecks : (head :: s.childTraces head).forM (requireUntraded s) with
      | ok => rfl
      | error e =>
        obtain ⟨before, trace, after, hsplit, hbefore, herror⟩ := forM_eq_error_iff.1 hchecks
        have hserved := htraded hholds hheads before after trace hsplit
          (fun t ht => requireUntraded_eq_ok_iff.1 (hbefore t ht))
          (requireUntraded_eq_error herror).1
        exact absurd h (not_succeeds_of_error hserved)
    · rintro ⟨hholds, hheads, huntraded⟩
      exact succeeds_of_ok (served_of_untraded hs hop hholds hheads huntraded)
  constructor
  case succeeds => exact hsucceeds
  case missing => exact hmissing
  case traded =>
    exact fun hholds hheads before trace after => htraded hholds hheads before after trace
  case removed =>
    intro h
    obtain ⟨hholds, hheads, huntraded⟩ := hsucceeds.1 h
    exact served_of_untraded hs hop hholds hheads huntraded
  case gone =>
    intro h trace hspans
    obtain ⟨hholds, hheads, huntraded⟩ := hsucceeds.1 h
    obtain ⟨a, ha⟩ := exists_assembly_of_heads hs hholds hheads
    have hs' := reachable_of_served hs hfresh (served_of_untraded hs hop hholds hheads huntraded)
    exact gone_of_spans hs hs' ha hspans

/-- Part 10 heads 11 and 12 and goes with them. Part 11 heads nothing and cannot go alone. Once it
is asked for, part 10 has to stay. -/
theorem assembly_removed_exact_sample :
    (sampleCall ⟨1⟩ (.removeAssembly (.v4 10))).served pairStore =
        (.ok .done, pairStore.withoutAssembly ⟨0, 0⟩ ⟨1⟩ (.v4 10)) ∧
      (pairStore.withoutAssembly ⟨0, 0⟩ ⟨1⟩ (.v4 10)).figures = [] ∧
      (sampleCall ⟨1⟩ (.removeAssembly (.v4 11))).served pairStore =
        (.error (.partNotFound (.v4 11)), pairStore) ∧
      (sampleCall ⟨1⟩ (.removeAssembly (.v4 10))).served sampleAnswered =
        (.error (.partInUse (.v4 10)), sampleAnswered) := by
  have hremoves := assembly_removed_exact reachable_pairStore
    (c := sampleCall ⟨1⟩ (.removeAssembly (.v4 10))) rfl
  have hchild := assembly_removed_exact reachable_pairStore
    (c := sampleCall ⟨1⟩ (.removeAssembly (.v4 11))) rfl
  have hasked := assembly_removed_exact reachable_sampleAnswered
    (c := sampleCall ⟨1⟩ (.removeAssembly (.v4 10))) rfl
  have huntraded : ∀ trace, pairStore.spans (.v4 10) trace → ¬ pairStore.Traded trace := by
    have htrades : pairStore.trades = [] := by decide +kernel
    rintro trace - ⟨t, ht, -⟩
    rw [htrades] at ht
    cases ht
  refine ⟨hremoves.removed (hremoves.succeeds.2 ⟨?_, ?_, huntraded⟩), ?_, hchild.missing ?_,
    hasked.traded ?_ ?_ [] (.v4 10) [] ?_ ?_ ?_⟩
  all_goals decide +kernel

end Footprint
