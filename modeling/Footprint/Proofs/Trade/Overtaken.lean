import Footprint.Proofs.Trade.Exact

namespace Footprint

open Table Enumerated Exchange

/-- Whether an operation decides on what it read of the trade: a revision, an answer, or the
registration of figures for the part that answers it. -/
def Exchange.Operation.settles (t : TradeRecord) : Operation → Prop
  | .putRequest _ _ r => r.trade = some t.id
  | .answer trade _ => trade = t.id
  | op@(.putFigures _ _) => ∃ trace, op.registers = some trace ∧ t.supplierPart = some trace
  | _ => False

/-- What a call writes to one store if it has read and decided on another. -/
def Exchange.Call.late (c : Call) (decided written : Store) : Except Error Store := do
  let (w, _) ← c.op.plan c.limits c.now c.caller decided
  written.apply c.now w

/-- The call `c` reads the store `s` and decides, the call `d` is made, then `c` writes. -/
structure Overtaken (s : Store) (c d : Call) (x x' : TradeRecord × StatusRecord) (s' : Store) :
    Prop where
  reachable : Reachable s
  fresh : c.Fresh s
  fresh' : d.Fresh s
  mem : x ∈ s.pairs
  settles : c.op.settles x.1
  mem' : x' ∈ (d.after s).pairs
  same : x'.1.id = x.1.id
  late : c.late s (d.after s) = .ok s'

/-- What the call that comes between makes of the trade and its status. -/
inductive Overtaking (s : Store) (d : Call) (x : TradeRecord × StatusRecord) :
    TradeRecord × StatusRecord → Prop
  | refused (same : d.after s = s) : Overtaking s d x x
  | passed (other : d.op.addresses ≠ some x.1.id) (succeeds : d.Succeeds s)
      (waiting : ∀ trace, d.op.registers = some trace → x.1.supplierPart = some trace →
        x.2.isPending = false) : Overtaking s d x x
  | ended {x'} (closed : x'.2.isPending = false) : Overtaking s d x x'
  | revised {tradeId statusId r} (revision : d.op = .putRequest tradeId statusId r)
      (named : r.trade = some x.1.id) (revisable : Revisable d.limits d.caller r x) :
      Overtaking s d x (x.1.readdressed d.now d.caller r.supplier,
        x.2.readdressed d.now d.caller r.supplier r.message r.dueDate)
  | answered {trace part} (answer : d.op = .answer x.1.id trace)
      (answerable : Answerable s d.caller trace part x)
      (outcome : s.outcome trace x.1.requesterPart = .pending) :
      Overtaking s d x (x.1.answered d.now d.caller trace,
        x.2.answered d.now d.caller .pending part.terminal)

variable {s s' : Store} {c d : Call} {x x' : TradeRecord × StatusRecord}
variable {trade trace tradeId statusId : Uuid} {r : TradeRequest}

theorem overtaking_of_addresses (hs : Reachable s) (hfresh : d.Fresh s) (hx : x ∈ s.pairs)
    (hsucceeds : d.Succeeds s) (hfound : (d.after s).pairOf? x.1.id = some x')
    (hpending : x'.2.isPending) (hnames : d.op.addresses = some x.1.id) : Overtaking s d x x' := by
  obtain ⟨w, reply, hplan, -⟩ := hsucceeds.planned
  have hcloses : d.op.closes ≠ some x.1.id := by
    intro hcloses
    obtain ⟨-, reply, haccepted⟩ := (d.after_cases s).resolve_left fun hrefused =>
      hrefused.1 hsucceeds
    obtain ⟨hx', hid⟩ := Store.of_pairOf? hfound
    have htrade := ((Store.Paired.of_reachable (hs.call d hfresh)).belongs x' hx').trade
    rw [not_pending_of_closes haccepted hcloses x'.2 (Store.snd_mem_of_pairs hx')
      (htrade.trans hid)] at hpending
    cases hpending
  cases hop : d.op with
  | putRequest tradeId statusId r =>
    rw [hop] at hnames
    obtain ⟨hrevisable, -⟩ := (plan_revision hs hx hop hnames).1 ⟨_, hplan⟩
    rw [hrevisable.pairOf?_after hs hx hop hnames] at hfound
    cases hfound
    exact .revised hop hnames hrevisable
  | answer trade trace =>
    rw [hop] at hnames
    cases hnames
    obtain ⟨part, hanswerable, -⟩ := (plan_answer hs hx hop).1 ⟨_, hplan⟩
    rw [hanswerable.pairOf?_after hs hx hop] at hfound
    cases hfound
    by_cases houtcome : s.outcome trace x.1.requesterPart = .completed
    · rw [StatusRecord.not_pending_of_completed (congrArg literal houtcome)] at hpending
      cases hpending
    · have hleaves := (Store.outcome_of_ne houtcome).1
      rw [hleaves]
      exact .answered hop hanswerable hleaves
  | cancel | reject | deleteTrade =>
    rw [hop] at hnames hcloses
    exact absurd hnames hcloses
  | putAssembly | removeAssembly | putFigures | certify =>
    rw [hop] at hnames
    cases hnames

/-- A registration that completes the request ends it. -/
theorem overtaking_of_other (hs : Reachable s) (hx : x ∈ s.pairs) (hsucceeds : d.Succeeds s)
    (hfound : (d.after s).pairOf? x.1.id = some x') (hpending : x'.2.isPending)
    (hother : d.op.addresses ≠ some x.1.id) : Overtaking s d x x' := by
  have hwaiting : ∀ trace, d.op.registers = some trace → x.1.supplierPart = some trace →
      x.2.isPending = false := by
    intro trace hregisters hpart
    by_contra hopen
    obtain ⟨w, reply, hplan, -⟩ := hsucceeds.planned
    obtain ⟨id, fs, hop, -⟩ := exists_putFigures hregisters
    obtain ⟨-, -, part, -, howned, -⟩ := (plan_registration hs hop hregisters).1 ⟨_, hplan⟩
    rw [pairOf?_of_registration hs hx hregisters hsucceeds howned (by simpa using hopen) hpart]
      at hfound
    cases hfound
    rw [StatusRecord.not_pending_of_completed rfl] at hpending
    cases hpending
  rw [d.pairOf?_of_silent hs hx hother hwaiting] at hfound
  cases hfound
  exact .passed hother hsucceeds hwaiting

theorem overtaking_of_after (hs : Reachable s) (hfresh : d.Fresh s) (hx : x ∈ s.pairs)
    (hx' : x' ∈ (d.after s).pairs) (hid : x'.1.id = x.1.id) : Overtaking s d x x' := by
  have hfound := (Store.Paired.of_reachable (hs.call d hfresh)).pairOf?_eq hx'
  rw [hid] at hfound
  rcases d.after_cases s with ⟨-, hsame⟩ | ⟨hsucceeds, -⟩
  · rw [hsame, (Store.Paired.of_reachable hs).pairOf?_eq hx] at hfound
    cases hfound
    exact .refused hsame
  by_cases hpending : x'.2.isPending
  · by_cases hnames : d.op.addresses = some x.1.id
    · exact overtaking_of_addresses hs hfresh hx hsucceeds hfound hpending hnames
    · exact overtaking_of_other hs hx hsucceeds hfound hpending hnames
  · exact .ended (by simpa using hpending)

namespace Overtaken

theorem paired (h : Overtaken s c d x x' s') : s.Paired :=
  .of_reachable h.reachable

theorem reachable' (h : Overtaken s c d x x' s') : Reachable (d.after s) :=
  h.reachable.call d h.fresh'

theorem paired' (h : Overtaken s c d x x' s') : (d.after s).Paired :=
  .of_reachable h.reachable'

theorem overtaking (h : Overtaken s c d x x' s') : Overtaking s d x x' :=
  overtaking_of_after h.reachable h.fresh' h.mem h.mem' h.same

theorem written (h : Overtaken s c d x x' s') :
    ∃ w reply, c.op.plan c.limits c.now c.caller s = .ok (w, reply) ∧
      (d.after s).apply c.now w = .ok s' := by
  obtain ⟨⟨w, reply⟩, hplan, happly⟩ := bind_eq_ok.1 h.late
  exact ⟨w, reply, hplan, happly⟩

/-- The rows stay with their trade, their requester and the part they are for. -/
theorem kept (h : Overtaken s c d x x' s') :
    x'.2.id = x.2.id ∧ x'.1.requester = x.1.requester ∧
      x'.1.requesterPart = x.1.requesterPart := by
  rcases d.after_eq s with hsame | ⟨reply, haccepted⟩
  · have hx' := h.mem'
    rw [hsame] at hx'
    rw [h.paired.eq_of_trade hx' h.mem h.same]
    exact ⟨rfl, rfl, rfl⟩
  · obtain ⟨q, hq, hmove⟩ := (evolves_of_accepted h.paired haccepted).next h.paired h.mem
    obtain ⟨hid, hstatus, -⟩ := hmove.keeps (h.paired.belongs x h.mem)
    rw [h.paired'.eq_of_trade h.mem' hq (h.same.trans hid.symm)]
    exact ⟨hstatus, hmove.requester, hmove.requesterPart⟩

theorem status_id (h : Overtaken s c d x x' s') : x'.2.id = x.2.id :=
  h.kept.1

theorem pending (h : Overtaken s c d x x' s') (hpending : x'.2.isPending) : x.2.isPending := by
  cases h.overtaking with
  | refused | passed => exact hpending
  | ended hclosed =>
    rw [hclosed] at hpending
    cases hpending
  | revised _ _ hrevisable => exact hrevisable.pending
  | answered _ hanswerable => exact hanswerable.pending

theorem pairOf?_revision (h : Overtaken s c d x x' s') (hop : c.op = .putRequest tradeId statusId r) :
    r.trade = some x.1.id ∧ Revisable c.limits c.caller r x ∧ x'.2.isPending ∧
      s'.pairOf? x.1.id = some (x'.1.readdressed c.now c.caller r.supplier,
        StatusRecord.overwritten c.now (some c.caller) { x'.2 with supplier := r.supplier }
          (x.2.readdressed c.now c.caller r.supplier r.message r.dueDate)) := by
  obtain ⟨w, reply, hplan, hwritten⟩ := h.written
  have hnamed : r.trade = some x.1.id := by
    have hsettles := h.settles
    rw [hop] at hsettles
    exact hsettles
  obtain ⟨hrevisable, status, hread, rfl⟩ :=
    (plan_revision h.reachable h.mem hop hnamed).1 ⟨_, hplan⟩
  have hid : status.id = x'.2.id := (StatusRecord.status_eq_ok.1 hread).2.2.2.1.trans h.status_id.symm
  obtain ⟨hpending, hpair⟩ := h.paired'.pairOf?_reviseTrade h.mem' hwritten h.same.symm hid
  rw [h.same, StatusRecord.revise_eq_overwritten (StatusRecord.status_readdressed hread)] at hpair
  exact ⟨hnamed, hrevisable, hpending, hpair⟩

theorem pairOf?_answer (h : Overtaken s c d x x' s') (hop : c.op = .answer trade trace) :
    trade = x.1.id ∧ ∃ part, Answerable s c.caller trace part x ∧ x'.2.isPending ∧
      s'.pairOf? x.1.id = some (x'.1.answered c.now c.caller trace,
        x'.2.overwritten c.now (some c.caller) (x.2.answered c.now c.caller
          (s.outcome trace x.1.requesterPart) part.terminal)) := by
  obtain ⟨w, reply, hplan, hwritten⟩ := h.written
  obtain rfl : trade = x.1.id := by
    have hsettles := h.settles
    rw [hop] at hsettles
    exact hsettles
  obtain ⟨part, hanswerable, status, hread, rfl⟩ :=
    (plan_answer h.reachable h.mem hop).1 ⟨_, hplan⟩
  have hid : status.id = x'.2.id := (StatusRecord.status_eq_ok.1 hread).2.2.2.1.trans h.status_id.symm
  rw [← h.same] at hwritten
  obtain ⟨hpending, hpair⟩ := h.paired'.pairOf?_answerTrade h.mem' hwritten hid
  rw [h.same, StatusRecord.revise_eq_overwritten (StatusRecord.status_answered hread)] at hpair
  exact ⟨rfl, part, hanswerable, hpending, hpair⟩

theorem pairOf?_registration (h : Overtaken s c d x x' s') {id : Uuid} {fs : List Figure}
    (hop : c.op = .putFigures id fs) :
    ∃ trace part, c.op.registers = some trace ∧ x.1.supplierPart = some trace ∧
      c.Succeeds s ∧ s.part? c.caller trace = .ok (some part) ∧
      s'.pairOf? x.1.id = some (x'.1, if x'.2.isPending then
        x'.2.overwritten c.now none (x.2.completed c.now part.terminal) else x'.2) := by
  obtain ⟨w, reply, hplan, hwritten⟩ := h.written
  obtain ⟨trace, hregisters, hpart⟩ : ∃ trace, c.op.registers = some trace ∧
      x.1.supplierPart = some trace := by
    have hsettles := h.settles
    rw [hop] at hsettles ⊢
    exact hsettles
  have hne : fs ≠ [] := by
    rintro rfl
    rw [hop] at hregisters
    cases hregisters
  have hsucceeds : c.Succeeds s :=
    ⟨_, Operation.run_eq_ok.2 ⟨w, hplan, Call.apply_eq_after h.reachable h.fresh hplan⟩⟩
  obtain ⟨-, -, part, completed, howned, hcompleted, rfl⟩ :=
    (plan_registration h.reachable hop hregisters).1 ⟨_, hplan⟩
  have hpair := h.paired'.pairOf?_addFigures h.mem' hne hwritten
  rw [h.same, h.paired.foldl_completions h.mem hcompleted h.status_id fun hpending =>
    (Evolves.waitsFor_iff h.paired h.mem).2 ⟨h.pending hpending, hpart⟩] at hpair
  exact ⟨trace, part, hregisters, hpart, hsucceeds, howned, hpair⟩

end Overtaken

end Footprint
