import Footprint.Proofs.Exchange.Canonical
import Footprint.Proofs.Exchange.Isolation
import Footprint.Proofs.Exchange.Served
import Footprint.Proofs.Trade.Exact

namespace Footprint

open Table Enumerated Exchange

/-- What comes of naming a part in answer to a trade, and of naming others before. -/
structure AnswersTrade (s : Store) (c : Call) (trade trace : Uuid) : Prop where
  succeeds : c.Succeeds s ↔ s.holds c.caller trace ∧
    ∃ p ∈ s.pairs, p.1.id = trade ∧ p.1.isLive ∧ p.1.supplier = c.caller ∧ p.2.isPending
  foreign : (∀ t ∈ s.trades, t.id = trade → t.isLive → t.supplier ≠ c.caller) →
    c.served s = (.error (.tradeNotFound trade), s)
  closed : ∀ p ∈ s.pairs, p.1.id = trade → p.1.isLive → p.1.supplier = c.caller →
    p.2.isPending = false → c.served s = (.error (.closed p.2.progress .answer), s)
  missing : ∀ p ∈ s.pairs, p.1.id = trade → p.1.supplier = c.caller → p.2.isPending →
    s.holds c.caller trace = false → c.served s = (.error (.partNotFound trace), s)
  answered : c.Succeeds s → ∀ p ∈ s.pairs, p.1.id = trade →
    ∃ status terminal, p.2.status = .ok status ∧ s.HasPart c.caller trace terminal ∧
      c.served s =
        (.ok (.status (answeredStatus (s.outcome trace p.1.requesterPart) terminal status)),
          s.withPair trade (TradeRecord.answered c.now c.caller trace)
            (StatusRecord.answered c.now c.caller (s.outcome trace p.1.requesterPart) terminal)) ∧
      (c.after s).statusOf? trade =
        .ok (some (answeredStatus (s.outcome trace p.1.requesterPart) terminal status))
  again : ∀ ds : List Call, (∀ d ∈ ds, ∃ named, d.op = .answer trade named) →
    c.Succeeds (runAll ds s) → c.served (runAll ds s) = c.served s

variable {s : Store} {c d : Call} {caller trade trace named : Uuid} {part : Part}
variable {p : TradeRecord × StatusRecord} {status : Status}

theorem answer_of_foreign (hs : Reachable s)
    (h : ∀ t ∈ s.trades, t.id = trade → t.isLive → t.supplier ≠ caller) :
    answer caller trade trace s = .error (.tradeNotFound trade) := by
  cases htrade : s.trade? trade with
  | none => rw [answer, tradeWithStatus, htrade]; rfl
  | some t =>
    obtain ⟨p, hp, rfl, hlive, rfl⟩ := (Store.Paired.of_reachable hs).exists_pair_of_trade? htrade
    obtain ⟨status, -, hreading⟩ := readings_of_live hs hp hlive
    rw [answer, hreading]
    exact if_pos (h p.1 (Store.fst_mem_of_pairs hp) rfl hlive)

theorem answer_of_closed (hs : Reachable s) (hp : p ∈ s.pairs) (hlive : p.1.isLive)
    (hsupplier : p.1.supplier = caller) (hclosed : p.2.isPending = false) :
    answer caller p.1.id trace s = .error (.closed p.2.progress .answer) := by
  obtain ⟨status, hread, hreading⟩ := readings_of_live hs hp hlive
  have hprogress : p.2.progress = literal status.progress := (StatusRecord.status_eq_ok.1 hread).1
  have hne : status.progress ≠ .pending := fun hpending => by
    have hlive' := ((Store.Paired.of_reachable hs).belongs p hp).live.trans hlive
    rw [StatusRecord.isPending_of_status hread hlive' hpending] at hclosed
    cases hclosed
  have hrefused : requireOpen status .answer = .error (.closed p.2.progress .answer) := by
    rw [requireOpen, hprogress]
    cases hstate : status.progress with
    | pending => exact absurd hstate hne
    | _ => rfl
  rw [answer, hreading, ok_bind]
  refine (if_neg (not_not.2 hsupplier)).trans ?_
  rw [hrefused]
  rfl

theorem answer_of_unowned (hs : Reachable s) (hp : p ∈ s.pairs) (hsupplier : p.1.supplier = caller)
    (hpending : p.2.isPending) (hhidden : s.holds caller trace = false) :
    answer caller p.1.id trace s = .error (.partNotFound trace) := by
  obtain ⟨status, -, hprogress, hreading⟩ := readings_of_pending hs hp hpending
  rw [answer, hreading, ok_bind]
  refine (if_neg (not_not.2 hsupplier)).trans ?_
  rw [requireOpen_eq_ok.2 hprogress, ok_bind, part?_of_hidden hhidden]
  rfl

theorem plan_of_answer (hop : c.op = .answer trade trace) :
    c.op.plan c.limits c.now c.caller =
      Operation.withReply .status (answer c.caller trade trace) := by
  rw [hop]
  rfl

theorem Answerable.served (hs : Reachable s) (hop : c.op = .answer trade trace) (hp : p ∈ s.pairs)
    (hid : p.1.id = trade) (h : Answerable s c.caller trace part p)
    (hread : p.2.status = .ok status) :
    c.served s =
      (.ok (.status (answeredStatus (s.outcome trace p.1.requesterPart) part.terminal status)),
        s.withPair trade (TradeRecord.answered c.now c.caller trace)
          (StatusRecord.answered c.now c.caller (s.outcome trace p.1.requesterPart)
            part.terminal)) := by
  subst hid
  exact served_of_plan_ok (plan_of_answer hop) (h.answer_eq hs hp hread)
    ((Store.Paired.of_reachable hs).answerTrade_eq_ok hp hread h.pending ..)

theorem succeeds_iff_answerable (hs : Reachable s) (hop : c.op = .answer trade trace) :
    c.Succeeds s ↔
      ∃ p ∈ s.pairs, p.1.id = trade ∧ ∃ part, Answerable s c.caller trace part p := by
  constructor
  · rintro ⟨⟨reply, s'⟩, hrun⟩
    have haccepted := accepted_of_run hrun
    rw [hop] at haccepted
    cases haccepted with
    | answer htrade hstatus hsupplier hpending howned =>
      obtain ⟨p, hp, hid, -, hlive, rfl, hread⟩ :=
        (Store.Paired.of_reachable hs).pair_of_reading htrade hstatus
      exact ⟨p, hp, hid, _, hsupplier, StatusRecord.isPending_of_status hread hlive hpending,
        howned⟩
  · rintro ⟨p, hp, rfl, part, h⟩
    obtain ⟨status, hread, -⟩ := readings_of_pending hs hp h.pending
    exact succeeds_of_ok (h.served hs hop hp rfl hread)

theorem answerable_of_succeeds (hs : Reachable s) (hop : c.op = .answer trade trace)
    (h : c.Succeeds s) (hp : p ∈ s.pairs) (hid : p.1.id = trade) :
    ∃ part, Answerable s c.caller trace part p := by
  obtain ⟨q, hq, hid', hanswerable⟩ := (succeeds_iff_answerable hs hop).1 h
  rwa [(Store.Paired.of_reachable hs).eq_of_trade hp hq (hid.trans hid'.symm)]

/-- One answer leaves nothing that the next one does not write over. -/
theorem served_after_answer (hs : Reachable s) (hop : c.op = .answer trade trace)
    (hd : d.op = .answer trade named) (h : c.Succeeds (d.after s)) :
    c.served (d.after s) = c.served s := by
  rcases d.after_cases s with ⟨-, hsame⟩ | ⟨hsucceeds, -⟩
  · rw [hsame]
  have haddresses : d.op.addresses = some trade := by
    rw [hd]
    rfl
  have hs' := hs.call d (Call.fresh_of_addresses haddresses)
  obtain ⟨p, hp, rfl, part', hanswered⟩ := (succeeds_iff_answerable hs hd).1 hsucceeds
  obtain ⟨status, hread, -⟩ := readings_of_pending hs hp hanswered.pending
  have hafter := after_of_served (hanswered.served hs hd hp rfl hread)
  -- The pair as the first answer leaves it.
  have hp' := (Store.Paired.of_reachable hs).mem_withPair hp
    (f := TradeRecord.answered d.now d.caller named)
    (g := StatusRecord.answered d.now d.caller (s.outcome named p.1.requesterPart) part'.terminal)
  rw [← hafter] at hp'
  obtain ⟨part, hanswerable'⟩ := answerable_of_succeeds hs' hop h hp' rfl
  have hanswerable : Answerable s c.caller trace part p :=
    ⟨hanswerable'.supplier, hanswered.pending,
      (d.part?_of_addresses haddresses c.caller trace).symm.trans hanswerable'.owned⟩
  rw [hanswerable'.served hs' hop hp' rfl (StatusRecord.status_answered hread),
    hanswerable.served hs hop hp rfl hread, d.outcome_of_addresses haddresses, hafter]
  refine congrArg (Prod.mk _) ?_
  exact Store.withPair_withPair (fun _ => rfl) fun _ => rfl

theorem served_after_answers (hs : Reachable s) (hop : c.op = .answer trade trace) {ds : List Call}
    (hds : ∀ d ∈ ds, ∃ named, d.op = .answer trade named) (h : c.Succeeds (runAll ds s)) :
    c.served (runAll ds s) = c.served s := by
  induction ds generalizing s with
  | nil => rfl
  | cons d ds ih =>
    obtain ⟨⟨named, hd⟩, hds⟩ := List.forall_mem_cons.1 hds
    have hfresh : d.Fresh s := Call.fresh_of_addresses (by rw [hd]; rfl)
    have hrest : c.served (runAll ds (d.after s)) = c.served (d.after s) :=
      ih (hs.call d hfresh) hds h
    have hfirst : c.Succeeds (d.after s) := by
      rw [succeeds_iff_served, ← hrest, ← succeeds_iff_served]
      exact h
    exact hrest.trans (served_after_answer hs hop hd hfirst)

/-- An answer to a trade with a part, for every caller, in a reachable store. It is accepted if and
only if the trade is live, pending and the caller's to answer, and the part is a live one of the
caller; what is checked first is told first. Then the part is that of the trade, the request is
complete if and only if there are figures for this part or the one that was asked for, the tree
state is told by the part's flag, and nothing else changes; the status that is answered is the one read
afterwards. After any number of answers to the trade, another one leaves the store and is told the
result that it would have been on its own. -/
theorem answer_exact (hs : Reachable s) (hop : c.op = .answer trade trace) :
    AnswersTrade s c trade trace := by
  have hpaired := Store.Paired.of_reachable hs
  constructor
  case succeeds =>
    rw [succeeds_iff_answerable hs hop]
    constructor
    · rintro ⟨p, hp, hid, part, h⟩
      exact ⟨Store.holds_of_part? h.owned, p, hp, hid, hpaired.isLive_of_isPending hp h.pending,
        h.supplier, h.pending⟩
    · rintro ⟨hholds, p, hp, hid, -, hsupplier, hpending⟩
      obtain ⟨-, -, -, -, part, hpart, -⟩ := exists_part_of_holds hs hholds
      exact ⟨p, hp, hid, part, hsupplier, hpending, hpart⟩
  case foreign =>
    exact fun h => served_of_plan_error (plan_of_answer hop) (answer_of_foreign hs h)
  case closed =>
    rintro p hp rfl hlive hsupplier hclosed
    exact served_of_plan_error (plan_of_answer hop) (answer_of_closed hs hp hlive hsupplier hclosed)
  case missing =>
    rintro p hp rfl hsupplier hpending hhidden
    exact served_of_plan_error (plan_of_answer hop)
      (answer_of_unowned hs hp hsupplier hpending hhidden)
  case answered =>
    rintro h p hp rfl
    obtain ⟨part, hanswerable⟩ := answerable_of_succeeds hs hop h hp rfl
    obtain ⟨status, hread, -⟩ := readings_of_pending hs hp hanswerable.pending
    have hserved := hanswerable.served hs hop hp rfl hread
    refine ⟨status, part.terminal, hread, hasPart_of_part? hanswerable.owned, hserved, ?_⟩
    have hs' := reachable_of_served hs (Call.fresh_of_addresses (by rw [hop]; rfl)) hserved
    have hlive := hpaired.isLive_of_isPending hp hanswerable.pending
    rw [after_of_served hserved]
    exact (Store.Paired.of_reachable hs').statusOf?_eq (hpaired.mem_withPair hp) hlive
      (StatusRecord.status_answered hread)
  case again => exact fun ds hds h => served_after_answers hs hop hds h

/-- Operator 2 has part 20, which is terminal, and part 21, which is not. -/
def sampleChoice : Store :=
  runAll (sampleCalls.take 3 ++ [sampleCall ⟨2⟩ (.putAssembly [.v4 21] (sampleDraft ⟨2⟩ false))])
    Store.empty

def sampleAnswer (caller trace : Uuid) : Call :=
  sampleCall caller (.answer (.v4 30) trace)

/-- What an answer decides in the rows of the statuses. -/
def Store.decided (s : Store) : List (String × String × Int × Int) :=
  s.statuses.map fun r => (r.progress, r.tree, r.completedCount, r.tradesCount)

/-- Part 20 terminates the request and part 21 does not; figures for part 20 complete it. The answer
with part 21 comes to the same after that with part 20. Operator 2 does not have part 10, and
operator 1 has nothing to answer. -/
theorem answer_exact_sample :
    (sampleAnswer ⟨2⟩ (.v4 21)).Succeeds sampleChoice ∧
      ((sampleAnswer ⟨2⟩ (.v4 21)).after sampleChoice).decided =
        [("PENDING", "UNTERMINATED", 0, 0)] ∧
      ((sampleAnswer ⟨2⟩ (.v4 20)).after sampleChoice).decided =
        [("PENDING", "TERMINATED", 0, 0)] ∧
      ((sampleAnswer ⟨2⟩ (.v4 20)).after (sampleRegistration.after sampleChoice)).decided =
        [("COMPLETED", "TERMINATED", 1, 1)] ∧
      (sampleAnswer ⟨2⟩ (.v4 21)).served ((sampleAnswer ⟨2⟩ (.v4 20)).after sampleChoice) =
        (sampleAnswer ⟨2⟩ (.v4 21)).served sampleChoice ∧
      (sampleAnswer ⟨2⟩ (.v4 10)).served sampleChoice =
        (.error (.partNotFound (.v4 10)), sampleChoice) ∧
      (sampleAnswer ⟨1⟩ (.v4 10)).served sampleChoice =
        (.error (.tradeNotFound (.v4 30)), sampleChoice) := by
  have hchoice : Reachable sampleChoice := Reachable.empty.calls (by decide +kernel)
  have hafter : Reachable ((sampleAnswer ⟨2⟩ (.v4 20)).after sampleChoice) :=
    hchoice.call _ (by decide +kernel)
  have hanswers := answer_exact hchoice (c := sampleAnswer ⟨2⟩ (.v4 21)) rfl
  have hanswers' := answer_exact hafter (c := sampleAnswer ⟨2⟩ (.v4 21)) rfl
  have hregistered : Reachable (sampleRegistration.after sampleChoice) :=
    hchoice.call _ (by decide +kernel)
  have hcompletes := answer_exact hregistered (c := sampleAnswer ⟨2⟩ (.v4 20)) rfl
  have hunowned := answer_exact hchoice (c := sampleAnswer ⟨2⟩ (.v4 10)) rfl
  have hforeign := answer_exact hchoice (c := sampleAnswer ⟨1⟩ (.v4 10)) rfl
  obtain ⟨p, hp, hid, hsupplier, hpending⟩ : ∃ p ∈ sampleChoice.pairs, p.1.id = .v4 30 ∧
      p.1.supplier = ⟨2⟩ ∧ p.2.isPending := by decide +kernel
  refine ⟨hanswers.succeeds.2 (by decide +kernel), by decide +kernel, by decide +kernel, ?_, ?_, ?_,
    hforeign.foreign (by decide +kernel)⟩
  · obtain ⟨q, hq, hqid, houtcome⟩ : ∃ q ∈ (sampleRegistration.after sampleChoice).pairs,
        q.1.id = .v4 30 ∧ (sampleRegistration.after sampleChoice).outcome (.v4 20)
          q.1.requesterPart = .completed := by decide +kernel
    obtain ⟨status, terminal, -, hpart, hserved, -⟩ :=
      hcompletes.answered (hcompletes.succeeds.2 (by decide +kernel)) q hq hqid
    have hflag : ∀ terminal, (sampleRegistration.after sampleChoice).HasPart ⟨2⟩ (.v4 20)
        terminal → terminal = true := by decide +kernel
    rw [after_of_served hserved, houtcome, hflag terminal hpart]
    decide +kernel
  · refine hanswers.again [sampleAnswer ⟨2⟩ (.v4 20)] ?_ (hanswers'.succeeds.2 (by decide +kernel))
    exact List.forall_mem_singleton.2 ⟨.v4 20, rfl⟩
  · exact hunowned.missing p hp hid hsupplier hpending (by decide +kernel)

end Footprint
