import Footprint.Proofs.Trade.Overtaken

namespace Footprint

open Table Enumerated Exchange

/-- The row without its times of change and their author. -/
def TradeRecord.unstamped (t : TradeRecord) : TradeRecord :=
  { t with
    createdAt := ⟨0, 0⟩
    updatedAt := ⟨0, 0⟩
    deletedAt := t.deletedAt.map fun _ => ⟨0, 0⟩
    updatedBy := .nil }

def StatusRecord.unstamped (r : StatusRecord) : StatusRecord :=
  { r with
    updatedAt := ⟨0, 0⟩
    deletedAt := r.deletedAt.map fun _ => ⟨0, 0⟩
    updatedBy := .nil }

/-- A trade and its status but for the stamps. -/
def Store.content? (s : Store) (trade : Uuid) : Option (TradeRecord × StatusRecord) :=
  (s.pairOf? trade).map (Prod.map TradeRecord.unstamped StatusRecord.unstamped)

/-- Whether the trade is, but for stamps, what the calls make of it in one order or the other. -/
def Serial (s : Store) (c d : Call) (s' : Store) (trade : Uuid) : Prop :=
  s'.content? trade = (d.after (c.after s)).content? trade ∨
    s'.content? trade = (c.after (d.after s)).content? trade

instance (s : Store) (c d : Call) (s' : Store) (trade : Uuid) : Decidable (Serial s c d s' trade) :=
  inferInstanceAs (Decidable (_ ∨ _))

/-- Whether a write that was decided on the store `s` with the pair `x` makes something of the
store `s'` with the pair `x'` that no order of the calls does.

A revision takes back the tree state that an answer has set. That answer would not have come after
the revision if this names another supplier, but its part stays recorded, unless it was before.

An answer that completes the request is not the answer of the supplier who has been named since. One
that does not takes back the message and due date of a revision, and misses figures that have been
registered since.

A registration completes a request that is answered with another part, or, if another supplier has
been named, takes back the message and due date that came with that. -/
def Spoils (s s' : Store) (x x' : TradeRecord × StatusRecord) : Operation → Prop
  | .putRequest _ _ r =>
    x'.2.tree ≠ x.2.tree ∧
      (r.supplier = x.1.supplier ∨ x'.1.supplierPart ≠ x.1.supplierPart)
  | .answer _ trace =>
    if s.outcome trace x.1.requesterPart = .completed then x'.1.supplier ≠ x.1.supplier
    else x'.2.message ≠ x.2.message ∨ x'.2.dueDate ≠ x.2.dueDate ∨ s'.hasFigures trace
  | .putFigures _ _ =>
    x'.2.isPending ∧ (x'.1.supplierPart ≠ x.1.supplierPart ∨
      x'.1.supplier ≠ x.1.supplier ∧
        (x'.2.message ≠ x.2.message ∨ x'.2.dueDate ≠ x.2.dueDate))
  | _ => False

variable {s s' : Store} {c d : Call} {p q x x' y z : TradeRecord × StatusRecord}
variable {trade trace tradeId statusId : Uuid} {r : TradeRequest} {part : Part}

theorem Store.content?_eq (h : s.pairOf? trade = some p) :
    s.content? trade = some (p.1.unstamped, p.2.unstamped) := by
  rw [content?, h]
  rfl

theorem Serial.of_first (hz : s'.pairOf? trade = some z)
    (hp : (d.after (c.after s)).pairOf? trade = some p) (htrade : z.1.unstamped = p.1.unstamped)
    (hstatus : z.2.unstamped = p.2.unstamped) : Serial s c d s' trade :=
  Or.inl (by rw [Store.content?_eq hz, Store.content?_eq hp, htrade, hstatus])

theorem Serial.of_second (hz : s'.pairOf? trade = some z)
    (hq : (c.after (d.after s)).pairOf? trade = some q) (htrade : z.1.unstamped = q.1.unstamped)
    (hstatus : z.2.unstamped = q.2.unstamped) : Serial s c d s' trade :=
  Or.inr (by rw [Store.content?_eq hz, Store.content?_eq hq, htrade, hstatus])

/-- The call that is refused comes second. -/
theorem Serial.of_refused (hz : s'.pairOf? trade = some z) (hsame : d.after s = s)
    (hy : (c.after s).pairOf? trade = some y) (htrade : z.1.unstamped = y.1.unstamped)
    (hstatus : z.2.unstamped = y.2.unstamped) : Serial s c d s' trade :=
  .of_second hz (by rw [hsame, hy]) htrade hstatus

theorem serial_iff (hz : s'.pairOf? trade = some z)
    (hp : (d.after (c.after s)).pairOf? trade = some p)
    (hq : (c.after (d.after s)).pairOf? trade = some q) :
    Serial s c d s' trade ↔ (z.1.unstamped = p.1.unstamped ∧ z.2.unstamped = p.2.unstamped) ∨
      z.1.unstamped = q.1.unstamped ∧ z.2.unstamped = q.2.unstamped := by
  rw [Serial, Store.content?_eq hz, Store.content?_eq hp, Store.content?_eq hq]
  simp only [Option.some.injEq, Prod.mk.injEq]

namespace Overtaken

/-- After an answer that left the request pending, the revision takes back the tree state. Coming
second the answer would be refused if the revision names another supplier. -/
theorem serial_revision_of_answered
    (h : Overtaken s c d x (x.1.answered d.now d.caller trace,
      x.2.answered d.now d.caller .pending part.terminal) s')
    (hop : c.op = .putRequest tradeId statusId r) (hop' : d.op = .answer x.1.id trace)
    (hanswerable : Answerable s d.caller trace part x)
    (houtcome : s.outcome trace x.1.requesterPart = .pending)
    (hsecond : (c.after (d.after s)).pairOf? x.1.id =
      some ((x.1.answered d.now d.caller trace).readdressed c.now c.caller r.supplier,
        (x.2.answered d.now d.caller .pending part.terminal).readdressed c.now c.caller
          r.supplier r.message r.dueDate)) :
    Serial s c d s' x.1.id ↔
      (if part.terminal then "TERMINATED" else "UNTERMINATED") = x.2.tree ∨
        r.supplier ≠ x.1.supplier ∧ some trace = x.1.supplierPart := by
  obtain ⟨hnamed, hrevisable, hpending, hz⟩ := h.pairOf?_revision hop
  have hnames : c.op.addresses = some x.1.id := (congrArg Operation.addresses hop).trans hnamed
  have hreach := h.reachable.call c h.fresh
  have hy := hrevisable.pairOf?_after h.reachable h.mem hop hnamed
  have hmem := (Store.of_pairOf? hy).1
  obtain ⟨hprogress, hcompleted, htrades⟩ :=
    counts_of_pending h.reachable h.mem hrevisable.pending
  by_cases hsupplier : r.supplier = x.1.supplier
  · have howned := (c.part?_of_addresses hnames d.caller trace).trans hanswerable.owned
    have hfirst := Answerable.pairOf?_after hreach hmem hop'
      ⟨hsupplier.trans hanswerable.supplier, hrevisable.pending, howned⟩
    have houtcome' := (c.outcome_of_addresses hnames trace x.1.requesterPart).trans houtcome
    rw [TradeRecord.readdressed, houtcome'] at hfirst
    rw [serial_iff hz hfirst hsecond]
    simp [TradeRecord.unstamped, StatusRecord.unstamped, StatusRecord.overwritten,
      TradeRecord.readdressed, StatusRecord.readdressed, TradeRecord.answered,
      StatusRecord.answered, hsupplier, hprogress, hcompleted, htrades,
      eq_comm (a := x.2.tree)]
  · have hfirst := after_of_not_answerable hreach hmem hop' fun _ hanswerable' =>
      hsupplier (hanswerable'.supplier.trans hanswerable.supplier.symm)
    rw [← hfirst] at hy
    rw [serial_iff hz hy hsecond]
    simp [TradeRecord.unstamped, StatusRecord.unstamped, StatusRecord.overwritten,
      TradeRecord.readdressed, StatusRecord.readdressed, TradeRecord.answered,
      StatusRecord.answered, hsupplier, hprogress, hcompleted, htrades,
      eq_comm (a := x.2.tree), or_comm]

theorem serial_revision (h : Overtaken s c d x x' s') (hop : c.op = .putRequest tradeId statusId r) :
    Serial s c d s' x.1.id ↔ ¬ Spoils s (d.after s) x x' c.op := by
  obtain ⟨hnamed, hrevisable, hpending, hz⟩ := h.pairOf?_revision hop
  obtain ⟨-, hrequester, hpart⟩ := h.kept
  have hnamed' : r.trade = some x'.1.id := by rw [h.same, hnamed]
  have hsecond := (hrevisable.again hrequester hpart hpending).pairOf?_after h.reachable' h.mem'
    hop hnamed'
  rw [h.same] at hsecond
  rw [hop, Spoils]
  cases h.overtaking with
  | ended hclosed =>
    rw [hclosed] at hpending
    cases hpending
  | refused | passed | revised =>
    -- The tree state is the one that was read.
    simpa [StatusRecord.readdressed] using Serial.of_second hz hsecond rfl rfl
  | answered hop' hanswerable houtcome =>
    rw [h.serial_revision_of_answered hop hop' hanswerable houtcome hsecond]
    simp [TradeRecord.answered, StatusRecord.answered, or_iff_not_imp_left]

/-- After a revision, an answer that completes the request is still one if the supplier is the same. -/
theorem serial_completing_of_revised
    (h : Overtaken s c d x (x.1.readdressed d.now d.caller r.supplier,
      x.2.readdressed d.now d.caller r.supplier r.message r.dueDate) s')
    (hop : c.op = .answer x.1.id trace) (hop' : d.op = .putRequest tradeId statusId r)
    (hnamed : r.trade = some x.1.id)
    (houtcome : s.outcome trace x.1.requesterPart = .completed) :
    Serial s c d s' x.1.id ↔ r.supplier = x.1.supplier := by
  obtain ⟨-, part, hanswerable, hpending, hz⟩ := h.pairOf?_answer hop
  have hreach := h.reachable.call c h.fresh
  have hy := hanswerable.pairOf?_after h.reachable h.mem hop
  rw [houtcome] at hz hy
  have hfirst := after_of_not_revisable hreach (Store.of_pairOf? hy).1 hop' hnamed
    (not_revisable_of_closed (StatusRecord.not_pending_of_completed rfl))
  rw [← hfirst] at hy
  by_cases hsame : r.supplier = x.1.supplier
  · have hsupplier := (h.paired.belongs x h.mem).supplier
    refine iff_of_true (.of_first hz hy ?_ ?_) hsame
    · simp [TradeRecord.unstamped, TradeRecord.readdressed, TradeRecord.answered, hsame]
    · simp [StatusRecord.unstamped, StatusRecord.overwritten, StatusRecord.readdressed,
        StatusRecord.answered, hsame, hsupplier]
  · have hsecond := after_of_not_answerable h.reachable' h.mem' hop fun _ hanswerable' =>
      hsame (hanswerable'.supplier.trans hanswerable.supplier.symm)
    have hx' := h.paired'.pairOf?_eq h.mem'
    rw [← hsecond] at hx'
    rw [serial_iff hz hy hx']
    have hprogress := (StatusRecord.isPending_iff.1 hanswerable.pending).1
    simp [TradeRecord.unstamped, StatusRecord.unstamped, StatusRecord.overwritten,
      TradeRecord.readdressed, StatusRecord.readdressed, TradeRecord.answered,
      StatusRecord.answered, hsame, hprogress, literal_completed_ne]

/-- After a revision, an answer that leaves the request pending takes back message and due date. -/
theorem serial_leaving_of_revised
    (h : Overtaken s c d x (x.1.readdressed d.now d.caller r.supplier,
      x.2.readdressed d.now d.caller r.supplier r.message r.dueDate) s')
    (hop : c.op = .answer x.1.id trace) (hop' : d.op = .putRequest tradeId statusId r)
    (hnamed : r.trade = some x.1.id) (hrevisable : Revisable d.limits d.caller r x)
    (houtcome : s.outcome trace x.1.requesterPart = .pending) :
    Serial s c d s' x.1.id ↔ r.message = x.2.message ∧ r.dueDate = x.2.dueDate := by
  obtain ⟨-, part, hanswerable, hpending, hz⟩ := h.pairOf?_answer hop
  have hnames' : d.op.addresses = some x.1.id := (congrArg Operation.addresses hop').trans hnamed
  have hreach := h.reachable.call c h.fresh
  have hy := hanswerable.pairOf?_after h.reachable h.mem hop
  rw [houtcome] at hz hy
  have hopen : (x.2.answered c.now c.caller .pending part.terminal).isPending :=
    StatusRecord.isPending_iff.2 ⟨rfl, (StatusRecord.isPending_iff.1 hpending).2⟩
  have hfirst := Revisable.pairOf?_after hreach (Store.of_pairOf? hy).1 hop' hnamed
    (hrevisable.again rfl rfl hopen)
  -- Accepted or not, a second answer leaves the message and the due date of the revision.
  obtain ⟨q, hsecond, hmessage, hdue⟩ : ∃ q, (c.after (d.after s)).pairOf? x.1.id = some q ∧
      q.2.unstamped.message = r.message ∧ q.2.unstamped.dueDate = r.dueDate := by
    by_cases hsame : r.supplier = x.1.supplier
    · have howned := (d.part?_of_addresses hnames' c.caller trace).trans hanswerable.owned
      have hsecond := Answerable.pairOf?_after h.reachable' h.mem' hop
        ⟨hsame.trans hanswerable.supplier, hpending, howned⟩
      exact ⟨_, hsecond, rfl, rfl⟩
    · have hrefused := after_of_not_answerable h.reachable' h.mem' hop fun _ hanswerable' =>
        hsame (hanswerable'.supplier.trans hanswerable.supplier.symm)
      have hx' := h.paired'.pairOf?_eq h.mem'
      rw [← hrefused] at hx'
      exact ⟨_, hx', rfl, rfl⟩
  rw [serial_iff hz hfirst hsecond]
  constructor
  · rintro (⟨-, hstatus⟩ | ⟨-, hstatus⟩)
    · exact ⟨congrArg StatusRecord.message hstatus.symm, congrArg StatusRecord.dueDate hstatus.symm⟩
    · rw [← hstatus] at hmessage hdue
      exact ⟨hmessage.symm, hdue.symm⟩
  · rintro ⟨hmessage, hdue⟩
    refine Or.inl ⟨rfl, ?_⟩
    simp [StatusRecord.unstamped, StatusRecord.overwritten, StatusRecord.readdressed,
      StatusRecord.answered, hmessage, hdue]

/-- In both orders the request is completed if the part that answers it is registered. -/
theorem not_serial_of_registered (h : Overtaken s c d x x s') (hop : c.op = .answer x.1.id trace)
    (houtcome : s.outcome trace x.1.requesterPart = .pending) (hsucceeds : d.Succeeds s)
    (hregisters : d.op.registers = some trace) : ¬ Serial s c d s' x.1.id := by
  obtain ⟨-, part, hanswerable, hpending, hz⟩ := h.pairOf?_answer hop
  have hnames : c.op.addresses = some x.1.id := congrArg Operation.addresses hop
  have hreach := h.reachable.call c h.fresh
  have hy := hanswerable.pairOf?_after h.reachable h.mem hop
  rw [houtcome] at hz hy
  have hopen : (x.2.answered c.now c.caller .pending part.terminal).isPending :=
    StatusRecord.isPending_iff.2 ⟨rfl, (StatusRecord.isPending_iff.1 hpending).2⟩
  obtain ⟨id, fs, hop', -⟩ := exists_putFigures hregisters
  obtain ⟨w, reply, hplan, -⟩ := hsucceeds.planned
  obtain ⟨-, -, part', -, howned, -⟩ :=
    (plan_registration h.reachable hop' hregisters).1 ⟨_, hplan⟩
  have hfirst := pairOf?_of_registration hreach (Store.of_pairOf? hy).1 hregisters
    (registration_again h.reachable hnames hregisters hsucceeds)
    ((c.part?_of_addresses hnames d.caller trace).trans howned) hopen rfl
  obtain ⟨hparts, hhas⟩ := tables_of_registers hsucceeds hregisters
  have howned' : (d.after s).part? c.caller trace = .ok (some part) := by
    rw [Store.part?, hparts]
    exact hanswerable.owned
  have hsecond := Answerable.pairOf?_after h.reachable' h.mem' hop
    ⟨hanswerable.supplier, hpending, howned'⟩
  have houtcome' : (d.after s).outcome trace x.1.requesterPart = .completed := by
    rw [Store.outcome, hhas]
    rfl
  rw [houtcome'] at hsecond
  rw [serial_iff hz hfirst hsecond]
  simp [StatusRecord.unstamped, StatusRecord.overwritten, StatusRecord.answered,
    StatusRecord.completed, literal_completed_ne.symm]

/-- After a call that does not name the trade, an answer misses the figures of its part. -/
theorem serial_answer_of_passed (h : Overtaken s c d x x s') (hop : c.op = .answer x.1.id trace)
    (hother : d.op.addresses ≠ some x.1.id) (hsucceeds : d.Succeeds s) :
    Serial s c d s' x.1.id ↔ s.outcome trace x.1.requesterPart = .completed ∨
      (d.after s).hasFigures trace = false := by
  obtain ⟨-, part, hanswerable, hpending, hz⟩ := h.pairOf?_answer hop
  have hreach := h.reachable.call c h.fresh
  have hy := hanswerable.pairOf?_after h.reachable h.mem hop
  have hmem := (Store.of_pairOf? hy).1
  by_cases houtcome : s.outcome trace x.1.requesterPart = .completed
  · have hfirst := d.pairOf?_of_silent hreach hmem hother fun _ _ _ =>
      StatusRecord.not_pending_of_completed (congrArg literal houtcome)
    exact iff_of_true (.of_first hz hfirst rfl rfl) (Or.inl houtcome)
  obtain ⟨hleaves, hblank, -⟩ := Store.outcome_of_ne houtcome
  by_cases hregisters : d.op.registers = some trace
  · obtain ⟨-, hhas⟩ := tables_of_registers hsucceeds hregisters
    refine iff_of_false (h.not_serial_of_registered hop hleaves hsucceeds hregisters) ?_
    simp [houtcome, hhas]
  · have hfirst := d.pairOf?_of_silent hreach hmem hother fun trace' hregisters' hpart => by
      cases hpart
      exact absurd hregisters' hregisters
    refine iff_of_true (.of_first hz hfirst rfl rfl) (Or.inr ?_)
    obtain ⟨-, reply, haccepted⟩ := (d.after_cases s).resolve_left fun hrefused =>
      hrefused.1 hsucceeds
    by_contra hhas
    rcases hasFigures_new haccepted (by simpa using hhas) with hregisters' | hhas
    · exact hregisters hregisters'
    · rw [hblank] at hhas
      cases hhas

theorem serial_answer (h : Overtaken s c d x x' s') (hop : c.op = .answer trade trace) :
    Serial s c d s' x.1.id ↔ ¬ Spoils s (d.after s) x x' c.op := by
  obtain ⟨rfl, part, hanswerable, hpending, hz⟩ := h.pairOf?_answer hop
  -- What is left when the message and the due date are those that were read.
  have hspoils (hsupplier : x'.1.supplier = x.1.supplier) (hmessage : x'.2.message = x.2.message)
      (hdue : x'.2.dueDate = x.2.dueDate) : ¬ Spoils s (d.after s) x x' c.op ↔
        s.outcome trace x.1.requesterPart = .completed ∨
          (d.after s).hasFigures trace = false := by
    rw [hop, Spoils]
    split <;> simp [*]
  have hblank (hfigures : (d.after s).figures = s.figures) :
      s.outcome trace x.1.requesterPart = .completed ∨ (d.after s).hasFigures trace = false := by
    rw [or_iff_not_imp_left, Store.hasFigures, hfigures]
    exact fun houtcome => (Store.outcome_of_ne houtcome).2.1
  cases h.overtaking with
  | refused hsame =>
    have hy := hanswerable.pairOf?_after h.reachable h.mem hop
    exact iff_of_true (.of_refused hz hsame hy rfl rfl)
      ((hspoils rfl rfl rfl).2 (hblank (congrArg Store.figures hsame)))
  | passed hother hsucceeds =>
    rw [hspoils rfl rfl rfl, h.serial_answer_of_passed hop hother hsucceeds]
  | ended hclosed =>
    rw [hclosed] at hpending
    cases hpending
  | @revised _ _ r hop' hnamed hrevisable =>
    have hnames' : d.op.addresses = some x.1.id := (congrArg Operation.addresses hop').trans hnamed
    have hblank := hblank (d.tables_of_addresses hnames').2
    rw [hop, Spoils]
    by_cases houtcome : s.outcome trace x.1.requesterPart = .completed
    · rw [if_pos houtcome, h.serial_completing_of_revised hop hop' hnamed houtcome, not_not]
      rfl
    · have hleaves := (Store.outcome_of_ne houtcome).1
      rw [if_neg houtcome, h.serial_leaving_of_revised hop hop' hnamed hrevisable hleaves]
      simp [StatusRecord.readdressed, hblank.resolve_left houtcome]
  | @answered trace' part' hop' hanswerable' =>
    have hnames' : d.op.addresses = some x.1.id := congrArg Operation.addresses hop'
    have howned := (d.part?_of_addresses hnames' c.caller trace).trans hanswerable.owned
    have hsecond := Answerable.pairOf?_after h.reachable' h.mem' hop
      ⟨hanswerable.supplier, hpending, howned⟩
    have houtcome := d.outcome_of_addresses (s := s) hnames' trace x.1.requesterPart
    rw [TradeRecord.answered, houtcome] at hsecond
    exact iff_of_true (.of_second hz hsecond rfl rfl)
      ((hspoils rfl rfl rfl).2 (hblank (d.tables_of_addresses hnames').2))

/-- After a revision, a registration takes back message and due date. Coming second the revision
would be refused, which shows if it names another supplier. -/
theorem serial_registration_of_revised
    (h : Overtaken s c d x (x.1.readdressed d.now d.caller r.supplier,
      x.2.readdressed d.now d.caller r.supplier r.message r.dueDate) s')
    {id : Uuid} {fs : List Figure} (hop : c.op = .putFigures id fs)
    (hop' : d.op = .putRequest tradeId statusId r) (hnamed : r.trade = some x.1.id)
    (hrevisable : Revisable d.limits d.caller r x) :
    Serial s c d s' x.1.id ↔ r.supplier = x.1.supplier ∨
      r.message = x.2.message ∧ r.dueDate = x.2.dueDate := by
  obtain ⟨trace, part, hregisters, hpart, hsucceeds, howned, hz⟩ := h.pairOf?_registration hop
  have hpending : (x.2.readdressed d.now d.caller r.supplier r.message r.dueDate).isPending :=
    hrevisable.pending
  rw [if_pos hpending] at hz
  have hnames' : d.op.addresses = some x.1.id := (congrArg Operation.addresses hop').trans hnamed
  have hreach := h.reachable.call c h.fresh
  have hy := pairOf?_of_registration h.reachable h.mem hregisters hsucceeds howned
    hrevisable.pending hpart
  have hfirst := after_of_not_revisable hreach (Store.of_pairOf? hy).1 hop' hnamed
    (not_revisable_of_closed (StatusRecord.not_pending_of_completed rfl))
  rw [← hfirst] at hy
  have hsecond := pairOf?_of_registration h.reachable' h.mem' hregisters
    (registration_again h.reachable hnames' hregisters hsucceeds)
    ((d.part?_of_addresses hnames' c.caller trace).trans howned) hpending hpart
  rw [serial_iff hz hy hsecond]
  have hsupplier := (h.paired.belongs x h.mem).supplier
  simp [TradeRecord.unstamped, StatusRecord.unstamped, StatusRecord.overwritten,
    TradeRecord.readdressed, StatusRecord.readdressed, StatusRecord.completed, hsupplier,
    eq_comm (a := x.2.message), eq_comm (a := x.2.dueDate)]

/-- After an answer, a registration completes the request, but only that of the answer's part would
have done so. -/
theorem serial_registration_of_answered
    (h : Overtaken s c d x (x.1.answered d.now d.caller trace,
      x.2.answered d.now d.caller .pending part.terminal) s')
    {id : Uuid} {fs : List Figure} (hop : c.op = .putFigures id fs)
    (hop' : d.op = .answer x.1.id trace) (hanswerable : Answerable s d.caller trace part x) :
    Serial s c d s' x.1.id ↔ some trace = x.1.supplierPart := by
  obtain ⟨trace', part', hregisters, hpart, hsucceeds, howned, hz⟩ := h.pairOf?_registration hop
  have hpending : (x.2.answered d.now d.caller .pending part.terminal).isPending :=
    StatusRecord.isPending_iff.2 ⟨rfl, (StatusRecord.isPending_iff.1 hanswerable.pending).2⟩
  rw [if_pos hpending] at hz
  have hnames' : d.op.addresses = some x.1.id := congrArg Operation.addresses hop'
  have hreach := h.reachable.call c h.fresh
  by_cases hsame : trace = trace'
  · have hsecond := pairOf?_of_registration h.reachable' h.mem' hregisters
      (registration_again h.reachable hnames' hregisters hsucceeds)
      ((d.part?_of_addresses hnames' c.caller trace').trans howned) hpending
      (congrArg some hsame)
    exact iff_of_true (.of_second hz hsecond rfl rfl) (by rw [hpart, hsame])
  · have hy := pairOf?_of_registration h.reachable h.mem hregisters hsucceeds howned
      hanswerable.pending hpart
    have hfirst := after_of_not_answerable hreach (Store.of_pairOf? hy).1 hop' fun _ =>
      not_answerable_of_closed (StatusRecord.not_pending_of_completed rfl)
    rw [← hfirst] at hy
    have hnames : c.op.addresses ≠ some x.1.id := by simp [hop, Operation.addresses]
    have hsecond := c.pairOf?_of_silent h.reachable' h.mem' hnames fun _ hregisters' hpart' => by
      cases hregisters.symm.trans hregisters'
      exact absurd (Option.some.inj hpart') hsame
    rw [serial_iff hz hy hsecond]
    simp [TradeRecord.unstamped, StatusRecord.unstamped, StatusRecord.overwritten,
      TradeRecord.answered, StatusRecord.answered, StatusRecord.completed, hpart, hsame]

theorem serial_registration (h : Overtaken s c d x x' s') {id : Uuid} {fs : List Figure}
    (hop : c.op = .putFigures id fs) :
    Serial s c d s' x.1.id ↔ ¬ Spoils s (d.after s) x x' c.op := by
  obtain ⟨trace, part, hregisters, hpart, hsucceeds, howned, hz⟩ := h.pairOf?_registration hop
  have hnames : c.op.addresses ≠ some x'.1.id := by simp [hop, Operation.addresses]
  rw [hop, Spoils]
  by_cases hpending : x'.2.isPending
  swap
  · -- The request has been closed and stays as it is.
    have hsecond := c.pairOf?_of_silent h.reachable' h.mem' hnames fun _ _ _ => by
      simpa using hpending
    rw [h.same] at hsecond
    rw [if_neg hpending] at hz
    exact iff_of_true (.of_second hz hsecond rfl rfl) fun hspoils => hpending hspoils.1
  rw [if_pos hpending] at hz
  rw [and_iff_right hpending]
  have hreach := h.reachable.call c h.fresh
  have hy := pairOf?_of_registration h.reachable h.mem hregisters hsucceeds howned
    (h.pending hpending) hpart
  cases h.overtaking with
  | refused hsame => simpa using Serial.of_refused hz hsame hy rfl rfl
  | passed hother =>
    have hfirst := d.pairOf?_of_silent hreach (Store.of_pairOf? hy).1 hother fun _ _ _ =>
      StatusRecord.not_pending_of_completed rfl
    simpa using Serial.of_first hz hfirst rfl rfl
  | ended hclosed =>
    rw [hclosed] at hpending
    cases hpending
  | revised hop' hnamed hrevisable =>
    rw [h.serial_registration_of_revised hop hop' hnamed hrevisable]
    simp [TradeRecord.readdressed, StatusRecord.readdressed, or_iff_not_imp_left]
  | answered hop' hanswerable =>
    rw [h.serial_registration_of_answered hop hop' hanswerable]
    simp [TradeRecord.answered, StatusRecord.answered]

end Overtaken

/-- A late write leaves the trade as one of the two orders would, unless it spoils it. -/
theorem overtaken_iff (h : Overtaken s c d x x' s') :
    Serial s c d s' x.1.id ↔ ¬ Spoils s (d.after s) x x' c.op := by
  have hsettles := h.settles
  cases hop : c.op with
  | putRequest tradeId statusId r =>
    rw [← hop]
    exact h.serial_revision hop
  | answer trade trace =>
    rw [← hop]
    exact h.serial_answer hop
  | putFigures id fs =>
    rw [← hop]
    exact h.serial_registration hop
  | putAssembly | removeAssembly | certify | cancel | reject | deleteTrade =>
    rw [hop] at hsettles
    cases hsettles

/-- The request of operator 1, which operator 2 is asked to answer with its terminal part 20. -/
def sampleRequested : Store :=
  runAll (sampleCalls.take 3) Store.empty

def sampleRow : TradeRecord × StatusRecord :=
  let r : TradeRequest := ⟨none, ⟨1⟩, ⟨2⟩, .v4 10, none, "2024-04-01"⟩
  (.ofTrade ⟨0, 0⟩ ⟨1⟩ (requestedTrade (.v4 30) ⟨1⟩ r),
    .ofStatus ⟨0, 0⟩ ⟨1⟩ (requestedTrade (.v4 30) ⟨1⟩ r)
      (requestedStatus ⟨0, 0⟩ (.v4 30) (.v4 31) r))

/-- Operator 1 adds a message. -/
def sampleRevision (message : String) : Call :=
  sampleCall ⟨1⟩ (.putRequest (.v4 50) (.v4 51)
    ⟨some (.v4 30), ⟨1⟩, ⟨2⟩, .v4 10, some message, "2024-04-01"⟩)

/-- Another message that was decided on before. -/
theorem overtaken_by_revision :
    Overtaken sampleRequested (sampleRevision "late") (sampleRevision "early") sampleRow
      (sampleRow.1.readdressed ⟨0, 0⟩ ⟨1⟩ ⟨2⟩,
        sampleRow.2.readdressed ⟨0, 0⟩ ⟨1⟩ ⟨2⟩ (some "early") "2024-04-01")
      { sampleRequested with
        trades := [sampleRow.1.readdressed ⟨0, 0⟩ ⟨1⟩ ⟨2⟩]
        statuses := [sampleRow.2.readdressed ⟨0, 0⟩ ⟨1⟩ ⟨2⟩ (some "late") "2024-04-01"] } where
  reachable := Reachable.empty.calls (by decide +kernel)
  fresh := by decide +kernel
  fresh' := by decide +kernel
  mem := by decide +kernel
  settles := rfl
  mem' := by decide +kernel
  same := rfl
  late := by decide +kernel

theorem serial_late_message :
    ∃ s', Overtaken sampleRequested (sampleRevision "late") (sampleRevision "early") sampleRow
        (sampleRow.1.readdressed ⟨0, 0⟩ ⟨1⟩ ⟨2⟩,
          sampleRow.2.readdressed ⟨0, 0⟩ ⟨1⟩ ⟨2⟩ (some "early") "2024-04-01") s' ∧
      Serial sampleRequested (sampleRevision "late") (sampleRevision "early") s' (.v4 30) :=
  ⟨_, overtaken_by_revision, (overtaken_iff overtaken_by_revision).2 fun hspoils => hspoils.1 rfl⟩

/-- The message comes after the answer and takes back that the part is terminal. -/
theorem overtaken_by_answer :
    Overtaken sampleRequested (sampleRevision "late")
      (sampleCall ⟨2⟩ (.answer (.v4 30) (.v4 20))) sampleRow
      (sampleRow.1.answered ⟨0, 0⟩ ⟨2⟩ (.v4 20), sampleRow.2.answered ⟨0, 0⟩ ⟨2⟩ .pending true)
      { sampleRequested with
        trades := [(sampleRow.1.answered ⟨0, 0⟩ ⟨2⟩ (.v4 20)).readdressed ⟨0, 0⟩ ⟨1⟩ ⟨2⟩]
        statuses := [sampleRow.2.readdressed ⟨0, 0⟩ ⟨1⟩ ⟨2⟩ (some "late") "2024-04-01"] } where
  reachable := Reachable.empty.calls (by decide +kernel)
  fresh := by decide +kernel
  fresh' := by decide +kernel
  mem := by decide +kernel
  settles := rfl
  mem' := by decide +kernel
  same := rfl
  late := by decide +kernel

theorem not_always_serial : ¬ ∀ s c d x x' s', Overtaken s c d x x' s' → Serial s c d s' x.1.id :=
  fun hserial => absurd (hserial _ _ _ _ _ _ overtaken_by_answer) (by decide +kernel)

end Footprint
