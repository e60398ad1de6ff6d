import Footprint.Proofs.Exchange.Refused
import Footprint.Proofs.Trade.Rewritten

namespace Footprint

open Table Enumerated Exchange

/-- The trade that an operation names. -/
def Exchange.Operation.addresses : Operation → Option Uuid
  | .putRequest _ _ r => r.trade
  | .answer trade _ | .cancel trade _ | .reject trade _ | .deleteTrade trade => some trade
  | _ => none

/-- The progress that an answer gives a request. -/
def Store.outcome (s : Store) (answered requested : Uuid) : Progress :=
  if s.hasFigures answered || s.hasFigures requested then .completed else .pending

/-- What it takes to revise a request. -/
structure Revisable (limits : TextLimits) (caller : Uuid) (r : TradeRequest)
    (p : TradeRecord × StatusRecord) : Prop where
  rules : Rules.request caller r = []
  length : Rules.length "message" r.message limits.message = []
  requester : p.1.requester = caller
  part : p.1.requesterPart = r.requesterPart
  pending : p.2.isPending

/-- What it takes to answer a request with a part. -/
structure Answerable (s : Store) (caller trace : Uuid) (part : Part)
    (p : TradeRecord × StatusRecord) : Prop where
  supplier : p.1.supplier = caller
  pending : p.2.isPending
  owned : s.part? caller trace = .ok (some part)

variable {s s' : Store} {c d : Call} {p q : TradeRecord × StatusRecord} {w : Write} {reply : Reply}
variable {trade trace tradeId statusId : Uuid} {r : TradeRequest} {part : Part} {status : Status}

theorem Store.outcome_of_ne {answered requested : Uuid}
    (h : s.outcome answered requested ≠ .completed) :
    s.outcome answered requested = .pending ∧ s.hasFigures answered = false ∧
      s.hasFigures requested = false := by
  rw [outcome] at h ⊢
  split at h
  · exact absurd rfl h
  · rename_i hnone
    rw [Bool.or_eq_true, not_or, Bool.not_eq_true, Bool.not_eq_true] at hnone
    simp [hnone]

theorem literal_completed_ne : literal Progress.completed ≠ literal Progress.pending := by
  intro h
  cases literal_injective _ _ h

theorem StatusRecord.not_pending_of_completed {r : StatusRecord}
    (h : r.progress = literal Progress.completed) : r.isPending = false := by
  simp [isPending, h, literal_completed_ne]

namespace Exchange.Call

theorem apply_eq_after (hs : Reachable s) (hfresh : c.Fresh s)
    (hplan : c.op.plan c.limits c.now c.caller s = .ok (w, reply)) :
    s.apply c.now w = .ok (c.after s) := by
  obtain ⟨s', happly⟩ := (fulfils_of_fresh hs hfresh).written w reply hplan
  have hrun := Operation.run_eq_ok.2 ⟨w, hplan, happly⟩
  rw [Call.after, hrun]
  exact happly

/-- Without a plan nothing happens. -/
theorem after_eq_self (h : ∀ w reply, c.op.plan c.limits c.now c.caller s ≠ .ok (w, reply)) :
    c.after s = s := by
  rw [Call.after]
  cases hrun : c.op.run c.limits c.now c.caller s with
  | error e => rfl
  | ok result =>
    obtain ⟨w, hplan, -⟩ := Operation.run_eq_ok.1 hrun
    exact absurd hplan (h w _)

theorem Succeeds.planned (h : c.Succeeds s) :
    ∃ w reply, c.op.plan c.limits c.now c.caller s = .ok (w, reply) ∧
      s.apply c.now w = .ok (c.after s) := by
  obtain ⟨⟨reply, s'⟩, hrun⟩ := h
  obtain ⟨w, hplan, happly⟩ := Operation.run_eq_ok.1 hrun
  refine ⟨w, reply, hplan, ?_⟩
  rw [Call.after, hrun]
  exact happly

/-- Naming a trade gives no identifiers away. -/
theorem fresh_of_addresses (h : c.op.addresses = some trade) : c.Fresh s := by
  have hminted : c.op.minted = [] := by
    cases hop : c.op with
    | putRequest tradeId statusId r =>
      rw [hop] at h
      have hold : r.trade = some trade := h
      simp [Operation.minted, hold]
    | putAssembly ids draft => rw [hop] at h; cases h
    | putFigures id fs => rw [hop] at h; cases h
    | _ => rfl
  rw [Call.Fresh, hminted]
  exact ⟨List.nodup_nil, List.forall_mem_nil _⟩

end Exchange.Call

theorem tables_of_addresses {limits : TextLimits} {now : Instant} {caller : Uuid} {op : Operation}
    (h : Accepted limits now caller s op reply s') (hop : op.addresses = some trade) :
    s'.parts = s.parts ∧ s'.figures = s.figures := by
  cases h with
  | putAssembly | removeAssembly | registerFigures | reviseFigures | certify => cases hop
  | openRequest | deleteTrade => exact ⟨rfl, rfl⟩
  | reviseRequest _ _ _ _ _ _ _ _ hwritten | answer _ _ _ _ _ _ hwritten =>
    obtain ⟨-, rfl⟩ := Store.reviseWith_eq_ok.1 hwritten
    exact ⟨rfl, rfl⟩
  | cancel _ _ _ _ _ hwritten | reject _ _ _ _ _ hwritten =>
    obtain ⟨-, rfl⟩ := Store.endRequest_eq_ok.1 hwritten
    exact ⟨rfl, rfl⟩

/-- Naming a trade leaves parts and figures alone. -/
theorem Exchange.Call.tables_of_addresses (h : c.op.addresses = some trade) :
    (c.after s).parts = s.parts ∧ (c.after s).figures = s.figures := by
  rcases c.after_eq s with hsame | ⟨reply, haccepted⟩
  · rw [hsame]
    exact ⟨rfl, rfl⟩
  · exact Footprint.tables_of_addresses haccepted h

/-- So it does not change who owns a part. -/
theorem Exchange.Call.part?_of_addresses (h : c.op.addresses = some trade) (caller trace : Uuid) :
    (c.after s).part? caller trace = s.part? caller trace := by
  rw [Store.part?, (c.tables_of_addresses h).1]
  rfl

/-- Nor what an answer comes to. -/
theorem Exchange.Call.outcome_of_addresses (h : c.op.addresses = some trade)
    (answered requested : Uuid) :
    (c.after s).outcome answered requested = s.outcome answered requested := by
  rw [Store.outcome, Store.hasFigures, Store.hasFigures, (c.tables_of_addresses h).2]
  rfl

/-- A live pair can be read. -/
theorem readings_of_live (hs : Reachable s) (hp : p ∈ s.pairs) (hlive : p.1.isLive) :
    ∃ status, p.2.status = .ok status ∧ tradeWithStatus s p.1.id = .ok (p.1.trade, status) := by
  have hpaired := Store.Paired.of_reachable hs
  obtain ⟨status, hread⟩ := exists_status_of_live hs (Store.snd_mem_of_pairs hp)
    ((hpaired.belongs p hp).live.trans hlive)
  exact ⟨status, hread, tradeWithStatus_eq_ok.2
    ⟨hpaired.trade?_eq hp hlive, hpaired.statusOf?_eq hp hlive hread⟩⟩

theorem readings_of_pending (hs : Reachable s) (hp : p ∈ s.pairs) (hpending : p.2.isPending) :
    ∃ status, p.2.status = .ok status ∧ status.progress = .pending ∧
      tradeWithStatus s p.1.id = .ok (p.1.trade, status) := by
  have hlive := (Store.Paired.of_reachable hs).isLive_of_isPending hp hpending
  obtain ⟨status, hread, hreading⟩ := readings_of_live hs hp hlive
  have hprogress := (StatusRecord.isPending_iff.1 hpending).1
  exact ⟨status, hread,
    literal_injective _ _ ((StatusRecord.status_eq_ok.1 hread).1.symm.trans hprogress), hreading⟩

/-- Nothing is counted while a request is pending. -/
theorem counts_of_pending (hs : Reachable s) (hp : p ∈ s.pairs) (hpending : p.2.isPending) :
    p.2.progress = literal Progress.pending ∧ p.2.completedCount = 0 ∧ p.2.tradesCount = 0 := by
  obtain ⟨hpaired, hsound⟩ := AllSound.of_reachable hs
  obtain ⟨status, hread, hsound⟩ := hsound p hp (hpaired.isLive_of_isPending hp hpending)
  obtain ⟨hprogress, -, -, -, -, -, -, -, hcompleted, htrades, -⟩ :=
    StatusRecord.status_eq_ok.1 hread
  have hliteral := (StatusRecord.isPending_iff.1 hpending).1
  have hne : status.progress ≠ .completed := by
    rw [literal_injective _ _ (hprogress.symm.trans hliteral)]
    decide
  have hcompleted' := hsound.completedCount
  have htrades' := hsound.tradesCount
  rw [if_neg hne] at hcompleted' htrades'
  exact ⟨hliteral, hcompleted.symm.trans hcompleted', htrades.symm.trans htrades'⟩

theorem Revisable.again {limits : TextLimits} {caller : Uuid} (h : Revisable limits caller r p)
    (hrequester : q.1.requester = p.1.requester) (hpart : q.1.requesterPart = p.1.requesterPart)
    (hpending : q.2.isPending) : Revisable limits caller r q :=
  ⟨h.rules, h.length, hrequester.trans h.requester, hpart.trans h.part, hpending⟩

theorem not_revisable_of_closed {limits : TextLimits} {caller : Uuid}
    (hclosed : p.2.isPending = false) : ¬ Revisable limits caller r p := by
  rintro ⟨-, -, -, -, hpending⟩
  rw [hclosed] at hpending
  cases hpending

theorem not_answerable_of_closed {caller : Uuid} (hclosed : p.2.isPending = false) :
    ¬ Answerable s caller trace part p := by
  rintro ⟨-, hpending, -⟩
  rw [hclosed] at hpending
  cases hpending

theorem Revisable.putRequest_eq {limits : TextLimits} {now : Instant} {caller : Uuid}
    (h : Revisable limits caller r p) (hs : Reachable s) (hp : p ∈ s.pairs)
    (hnamed : r.trade = some p.1.id) (hread : p.2.status = .ok status) :
    putRequest limits now tradeId statusId caller r s =
      .ok (.reviseTrade { p.1.trade with supplier := r.supplier }
        { status with message := r.message, dueDate := r.dueDate } caller,
        { p.1.trade with supplier := r.supplier },
        { status with message := r.message, dueDate := r.dueDate }) := by
  obtain ⟨status', hread', hprogress, hreading⟩ := readings_of_pending hs hp h.pending
  cases hread.symm.trans hread'
  have hallowed : ¬ (p.1.requester ≠ caller ∨ p.1.requesterPart ≠ r.requesterPart) := by
    simp [h.requester, h.part]
  refine bind_eq_ok.2 ⟨(), refuse_eq_ok_iff.2 h.rules,
    bind_eq_ok.2 ⟨(), refuse_eq_ok_iff.2 h.length, ?_⟩⟩
  rw [hnamed]
  refine bind_eq_ok.2 ⟨_, hreading, ?_⟩
  exact (if_neg hallowed).trans (bind_eq_ok.2 ⟨(), requireOpen_eq_ok.2 hprogress, rfl⟩)

theorem plan_revision (hs : Reachable s) (hp : p ∈ s.pairs)
    (hop : c.op = .putRequest tradeId statusId r) (hnamed : r.trade = some p.1.id) :
    (∃ reply, c.op.plan c.limits c.now c.caller s = .ok (w, reply)) ↔
      Revisable c.limits c.caller r p ∧ ∃ status, p.2.status = .ok status ∧
        w = .reviseTrade { p.1.trade with supplier := r.supplier }
          { status with message := r.message, dueDate := r.dueDate } c.caller := by
  have hpaired := Store.Paired.of_reachable hs
  rw [hop, Operation.plan]
  constructor
  · rintro ⟨reply, hplan⟩
    obtain ⟨⟨t, status⟩, hplan, -⟩ := Operation.withReply_eq_ok.1 hplan
    obtain ⟨⟨⟩, hrules, hplan⟩ := bind_eq_ok.1 hplan
    obtain ⟨⟨⟩, hlength, hplan⟩ := bind_eq_ok.1 hplan
    rw [hnamed] at hplan
    obtain ⟨t, status, htrade, hstatus, hallowed, hpending, hplan⟩ :=
      onOpenTrade_eq_ok hplan fun _ _ => rfl
    rw [not_or, not_not, not_not] at hallowed
    cases hplan
    obtain ⟨q, hq, hid, hlive, hlive', rfl, hread⟩ := hpaired.pair_of_reading htrade hstatus
    cases hpaired.eq_of_trade hq hp hid
    exact ⟨⟨refuse_eq_ok_iff.1 hrules, refuse_eq_ok_iff.1 hlength, hallowed.1, hallowed.2,
      StatusRecord.isPending_of_status hread hlive' hpending⟩, status, hread, rfl⟩
  · rintro ⟨hrevisable, status, hread, rfl⟩
    exact ⟨_, Operation.withReply_eq_ok.2 ⟨_, hrevisable.putRequest_eq hs hp hnamed hread, rfl⟩⟩

theorem Revisable.pairOf?_after (hs : Reachable s) (hp : p ∈ s.pairs)
    (hop : c.op = .putRequest tradeId statusId r) (hnamed : r.trade = some p.1.id)
    (h : Revisable c.limits c.caller r p) :
    (c.after s).pairOf? p.1.id = some (p.1.readdressed c.now c.caller r.supplier,
      p.2.readdressed c.now c.caller r.supplier r.message r.dueDate) := by
  obtain ⟨status, hread, -⟩ := readings_of_pending hs hp h.pending
  obtain ⟨reply, hplan⟩ := (plan_revision hs hp hop hnamed).2 ⟨h, status, hread, rfl⟩
  have hfresh : c.Fresh s := Call.fresh_of_addresses (by rw [hop]; exact hnamed)
  have hid := (StatusRecord.status_eq_ok.1 hread).2.2.2.1
  obtain ⟨-, hpair⟩ := (Store.Paired.of_reachable hs).pairOf?_reviseTrade hp
    (Call.apply_eq_after hs hfresh hplan) rfl hid
  rw [hpair, StatusRecord.revise_readdressed hread]

theorem after_of_not_revisable (hs : Reachable s) (hp : p ∈ s.pairs)
    (hop : c.op = .putRequest tradeId statusId r) (hnamed : r.trade = some p.1.id)
    (h : ¬ Revisable c.limits c.caller r p) : c.after s = s :=
  Call.after_eq_self fun _ _ hplan => h ((plan_revision hs hp hop hnamed).1 ⟨_, hplan⟩).1

theorem answerProgress_eq (hs : Reachable s) (answered requested : Uuid) :
    answerProgress s answered requested = .ok (s.outcome answered requested) := by
  have hcoherent := Coherent.of_reachable hs
  obtain ⟨fs, hfs, -⟩ := hcoherent.figuresOf answered
  obtain ⟨gs, hgs, -⟩ := hcoherent.figuresOf requested
  rw [answerProgress, hfs, hgs, Store.outcome]
  simp only [ok_bind, Store.isEmpty_of_figuresOf hfs, Store.isEmpty_of_figuresOf hgs]
  cases s.hasFigures answered <;> cases s.hasFigures requested <;> rfl

theorem Answerable.answer_eq {caller : Uuid} (h : Answerable s caller trace part p)
    (hs : Reachable s) (hp : p ∈ s.pairs) (hread : p.2.status = .ok status) :
    answer caller p.1.id trace s =
      .ok (.answerTrade p.1.id trace
        (answeredStatus (s.outcome trace p.1.requesterPart) part.terminal status) caller,
        answeredStatus (s.outcome trace p.1.requesterPart) part.terminal status) := by
  obtain ⟨status', hread', hprogress, hreading⟩ := readings_of_pending hs hp h.pending
  cases hread.symm.trans hread'
  refine bind_eq_ok.2 ⟨_, hreading, ?_⟩
  refine (if_neg (not_not.2 h.supplier)).trans
    (bind_eq_ok.2 ⟨(), requireOpen_eq_ok.2 hprogress, ?_⟩)
  refine bind_eq_ok.2 ⟨_, h.owned, ?_⟩
  exact bind_eq_ok.2 ⟨_, answerProgress_eq hs .., rfl⟩

theorem plan_answer (hs : Reachable s) (hp : p ∈ s.pairs) (hop : c.op = .answer p.1.id trace) :
    (∃ reply, c.op.plan c.limits c.now c.caller s = .ok (w, reply)) ↔
      ∃ part, Answerable s c.caller trace part p ∧ ∃ status, p.2.status = .ok status ∧
        w = .answerTrade p.1.id trace
          (answeredStatus (s.outcome trace p.1.requesterPart) part.terminal status) c.caller := by
  have hpaired := Store.Paired.of_reachable hs
  rw [hop, Operation.plan]
  constructor
  · rintro ⟨reply, hplan⟩
    obtain ⟨_, hplan, -⟩ := Operation.withReply_eq_ok.1 hplan
    obtain ⟨t, status, htrade, hstatus, hallowed, hpending, hplan⟩ :=
      onOpenTrade_eq_ok hplan fun _ _ => rfl
    obtain ⟨o, hpart, hplan⟩ := bind_eq_ok.1 hplan
    cases o with
    | none => cases hplan
    | some part =>
      obtain ⟨q, hq, hid, hlive, hlive', rfl, hread⟩ := hpaired.pair_of_reading htrade hstatus
      cases hpaired.eq_of_trade hq hp hid
      dsimp only at hplan
      rw [answerProgress_eq hs] at hplan
      cases hplan
      exact ⟨part, ⟨not_not.1 hallowed, StatusRecord.isPending_of_status hread hlive' hpending,
        hpart⟩, status, hread, rfl⟩
  · rintro ⟨part, hanswerable, status, hread, rfl⟩
    exact ⟨_, Operation.withReply_eq_ok.2 ⟨_, hanswerable.answer_eq hs hp hread, rfl⟩⟩

theorem Answerable.pairOf?_after (hs : Reachable s) (hp : p ∈ s.pairs)
    (hop : c.op = .answer p.1.id trace) (h : Answerable s c.caller trace part p) :
    (c.after s).pairOf? p.1.id = some (p.1.answered c.now c.caller trace,
      p.2.answered c.now c.caller (s.outcome trace p.1.requesterPart) part.terminal) := by
  obtain ⟨status, hread, -⟩ := readings_of_pending hs hp h.pending
  obtain ⟨reply, hplan⟩ := (plan_answer hs hp hop).2 ⟨part, h, status, hread, rfl⟩
  have hfresh : c.Fresh s := Call.fresh_of_addresses (by rw [hop]; rfl)
  have hid := (StatusRecord.status_eq_ok.1 hread).2.2.2.1
  obtain ⟨-, hpair⟩ := (Store.Paired.of_reachable hs).pairOf?_answerTrade hp
    (Call.apply_eq_after hs hfresh hplan) hid
  rw [hpair, StatusRecord.revise_answered hread]

theorem after_of_not_answerable (hs : Reachable s) (hp : p ∈ s.pairs)
    (hop : c.op = .answer p.1.id trace) (h : ∀ part, ¬ Answerable s c.caller trace part p) :
    c.after s = s :=
  Call.after_eq_self fun _ _ hplan => by
    obtain ⟨part, hanswerable, -⟩ := (plan_answer hs hp hop).1 ⟨_, hplan⟩
    exact h part hanswerable

theorem plan_registration (hs : Reachable s) {id : Uuid} {fs : List Figure}
    (hop : c.op = .putFigures id fs) (hregisters : c.op.registers = some trace) :
    (∃ reply, c.op.plan c.limits c.now c.caller s = .ok (w, reply)) ↔
      Rules.figures fs = [] ∧ s.hasFigures trace = false ∧
        ∃ part completed, s.part? c.caller trace = .ok (some part) ∧
          completions s (.ofTerminal part.terminal) (s.tradesAnsweredWith trace) = .ok completed ∧
          w = .addFigures (fs.map fun f => { f with setId := some id }) completed := by
  rw [hop] at hregisters
  cases fs with
  | nil => cases hregisters
  | cons first rest =>
    have hfirst : first.setId = none ∧ first.trace = trace := by
      simpa [Operation.registers] using hregisters
    obtain ⟨hnew, rfl⟩ := hfirst
    rw [hop, Operation.plan]
    constructor
    · rintro ⟨reply, hplan⟩
      obtain ⟨setId, hplan, -⟩ := Operation.withReply_eq_ok.1 hplan
      obtain ⟨⟨⟩, hrules, hplan⟩ := bind_eq_ok.1 hplan
      obtain ⟨o, hpart, hplan⟩ := bind_eq_ok.1 hplan
      cases o with
      | none => cases hplan
      | some part =>
        simp only [hnew] at hplan
        obtain ⟨stored, hstored, hplan⟩ := bind_eq_ok.1 hplan
        rw [Store.isEmpty_of_figuresOf hstored] at hplan
        cases hblank : s.hasFigures first.trace with
        | true => simp [hblank] at hplan
        | false =>
          simp only [hblank, Bool.not_false, if_true] at hplan
          obtain ⟨completed, hcompleted, hplan⟩ := bind_eq_ok.1 hplan
          cases hplan
          exact ⟨refuse_eq_ok_iff.1 hrules, rfl, part, completed, hpart, hcompleted, rfl⟩
    · rintro ⟨hrules, hblank, part, completed, hpart, hcompleted, rfl⟩
      obtain ⟨stored, hstored, -⟩ := (Coherent.of_reachable hs).figuresOf first.trace
      have hempty : stored.isEmpty := by
        rw [Store.isEmpty_of_figuresOf hstored, hblank]
        rfl
      have hplan : putFigures id c.caller (first :: rest) s =
          .ok (.addFigures ((first :: rest).map fun f => { f with setId := some id }) completed,
            id) := by
        refine bind_eq_ok.2 ⟨(), refuse_eq_ok_iff.2 hrules, bind_eq_ok.2 ⟨_, hpart, ?_⟩⟩
        simp only [hnew]
        refine bind_eq_ok.2 ⟨stored, hstored, (if_pos hempty).trans ?_⟩
        exact bind_eq_ok.2 ⟨completed, hcompleted, rfl⟩
      exact ⟨_, Operation.withReply_eq_ok.2 ⟨_, hplan, rfl⟩⟩

theorem exists_putFigures {op : Operation} (h : op.registers = some trace) :
    ∃ id fs, op = .putFigures id fs ∧ fs ≠ [] := by
  cases op with
  | putFigures id fs =>
    refine ⟨id, fs, rfl, ?_⟩
    rintro rfl
    cases h
  | _ => cases h

theorem tables_of_registers (h : c.Succeeds s) (hregisters : c.op.registers = some trace) :
    (c.after s).parts = s.parts ∧ (c.after s).hasFigures trace := by
  rcases c.after_cases s with ⟨hrefused, -⟩ | ⟨-, reply, haccepted⟩
  · exact absurd h hrefused
  obtain ⟨removed, -, hhas⟩ := hasFigures_of_accepted haccepted
  refine ⟨?_, (hhas trace).2 (Or.inl hregisters)⟩
  cases figureChange_of_accepted haccepted with
  | registered _ _ _ _ _ hparts => exact hparts
  | kept hnone | dropped hnone | revised hnone | certified hnone =>
    rw [hnone] at hregisters
    cases hregisters

/-- A registration is also accepted after a call that names a trade. -/
theorem registration_again (hs : Reachable s) (hnames : d.op.addresses = some trade)
    (hregisters : c.op.registers = some trace) (h : c.Succeeds s) : c.Succeeds (d.after s) := by
  have hs' := hs.call d (Call.fresh_of_addresses hnames)
  obtain ⟨hparts, hfigures⟩ := d.tables_of_addresses (s := s) hnames
  obtain ⟨id, fs, hop, hne⟩ := exists_putFigures hregisters
  obtain ⟨w, reply, hplan, happly⟩ := h.planned
  obtain ⟨hrules, hblank, part, completed, hpart, -, rfl⟩ :=
    (plan_registration hs hop hregisters).1 ⟨_, hplan⟩
  obtain ⟨hunique, -⟩ := (Store.addFigures_eq_ok hne).1 happly
  obtain ⟨completed', hcompleted'⟩ :=
    exists_completions hs' (.ofTerminal part.terminal) ((d.after s).tradesAnsweredWith trace)
  have hblank' : (d.after s).hasFigures trace = false := by
    rw [Store.hasFigures, hfigures]
    exact hblank
  have hpart' := (d.part?_of_addresses hnames c.caller trace).trans hpart
  obtain ⟨reply', hplan'⟩ := (plan_registration hs' hop hregisters).2
    ⟨hrules, hblank', part, completed', hpart', hcompleted', rfl⟩
  rw [← hfigures] at hunique
  exact ⟨_, Operation.run_eq_ok.2 ⟨_, hplan', (Store.addFigures_eq_ok hne).2 ⟨hunique, rfl⟩⟩⟩

/-- A registration completes a pending request that is answered with its part. -/
theorem pairOf?_of_registration (hs : Reachable s) (hp : p ∈ s.pairs)
    (hregisters : c.op.registers = some trace) (h : c.Succeeds s)
    (hpart : s.part? c.caller trace = .ok (some part)) (hpending : p.2.isPending)
    (hanswered : p.1.supplierPart = some trace) :
    (c.after s).pairOf? p.1.id = some (p.1, p.2.completed c.now part.terminal) := by
  have hpaired := Store.Paired.of_reachable hs
  obtain ⟨id, fs, hop, hne⟩ := exists_putFigures hregisters
  obtain ⟨w, reply, hplan, happly⟩ := h.planned
  obtain ⟨-, -, part', completed, hpart', hcompleted, rfl⟩ :=
    (plan_registration hs hop hregisters).1 ⟨_, hplan⟩
  cases hpart.symm.trans hpart'
  have hwaits := (Evolves.waitsFor_iff hpaired hp).2 ⟨hpending, hanswered⟩
  rw [hpaired.pairOf?_addFigures hp hne happly,
    hpaired.foldl_completions hp hcompleted rfl fun _ => hwaits, if_pos hpending]
  rfl

/-- A call that neither names a trade nor completes it leaves it alone. -/
theorem Exchange.Call.pairOf?_of_silent (hs : Reachable s) (hp : p ∈ s.pairs)
    (hother : c.op.addresses ≠ some p.1.id)
    (hwaiting : ∀ trace, c.op.registers = some trace → p.1.supplierPart = some trace →
      p.2.isPending = false) : (c.after s).pairOf? p.1.id = some p := by
  have hpaired := Store.Paired.of_reachable hs
  rcases c.after_eq s with hsame | ⟨reply, haccepted⟩
  · rw [hsame]
    exact hpaired.pairOf?_eq hp
  · have hevolves := evolves_of_accepted hpaired haccepted
    obtain ⟨p', hp', hmove⟩ := hevolves.next hpaired hp
    have hsame : p' = p := by
      generalize c.op = op at hother hwaiting hmove
      cases hmove with
      | unchanged => rfl
      | completed hregisters hpart _ hpending =>
        rw [hwaiting _ hregisters hpart] at hpending
        cases hpending
      | readdressed hnamed => exact absurd hnamed hother
      | answered hnamed | cancelled hnamed | rejected hnamed | deleted hnamed =>
        exact absurd (congrArg some hnamed) hother
    rw [hsame] at hp'
    exact (hevolves.paired hpaired).pairOf?_eq hp'

/-- The trade that an operation closes or deletes. -/
def Exchange.Operation.closes : Operation → Option Uuid
  | .cancel trade _ | .reject trade _ | .deleteTrade trade => some trade
  | _ => none

theorem not_pending_of_closes {limits : TextLimits} {now : Instant} {caller : Uuid}
    {op : Operation} (h : Accepted limits now caller s op reply s') (hop : op.closes = some trade) :
    ∀ r ∈ s'.statuses, r.trade = trade → r.isPending = false := by
  intro r' hr' htrade
  have hended (progress : Progress) (reply : Option String) (hclosed : progress ≠ .pending)
      (hr' : r' ∈ updateWhere (StatusRecord.isOpenFor trade)
        (StatusRecord.ended now caller progress reply) s.statuses) : r'.isPending = false := by
    rcases mem_updateWhere.1 hr' with ⟨-, hnot⟩ | ⟨r, -, -, rfl⟩
    · simpa [StatusRecord.isOpenFor, htrade] using hnot
    · have hliteral : literal progress ≠ literal Progress.pending :=
        (literal_injective _ _).mt hclosed
      simp [StatusRecord.isPending, StatusRecord.ended, hliteral]
  cases h with
  | cancel _ _ _ _ _ hwritten =>
    cases hop
    obtain ⟨-, rfl⟩ := Store.endRequest_eq_ok.1 hwritten
    exact hended .cancelled _ (by decide) hr'
  | reject _ _ _ _ _ hwritten =>
    cases hop
    obtain ⟨-, rfl⟩ := Store.endRequest_eq_ok.1 hwritten
    exact hended .rejected _ (by decide) hr'
  | deleteTrade =>
    cases hop
    rcases mem_updateWhere.1 hr' with ⟨-, hnot⟩ | ⟨r, -, -, rfl⟩
    · exact absurd htrade (of_decide_eq_false hnot)
    · simp [StatusRecord.isPending, StatusRecord.isLive]
  | _ => cases hop

end Footprint
