import Footprint.Proofs.Part.Ownership
import Footprint.Proofs.Trade.Transition

namespace Footprint

open Table Exchange

/-- The part that answers the trade, if any, is a live part of the supplier. -/
def OwnAnswer (s : Store) (t : TradeRecord) : Prop :=
  ∀ trace, t.supplierPart = some trace →
    ∃ r ∈ s.parts, r.trace = trace ∧ r.isLive ∧ r.operator = t.supplier

def OwnAnswers (s : Store) : Prop :=
  ∀ t ∈ s.trades, t.isLive → OwnAnswer s t

/-- Whether an operation names another supplier for a request that is answered. -/
def Exchange.Operation.redirects (op : Operation) (t : TradeRecord) : Prop :=
  t.supplierPart ≠ none ∧
    ∃ tradeId statusId r, op = .putRequest tradeId statusId r ∧ r.trade = some t.id ∧
      r.supplier ≠ t.supplier

/-- At some time before the operator answered the trade with the part. -/
def AnsweredBy (s : Store) (trade trace operator : Uuid) : Prop :=
  ∃ before, ∃ c : Call, Reachable before ∧ c.Fresh before ∧ c.Succeeds before ∧
    c.op = .answer trade trace ∧ c.caller = operator ∧ Leads (c.after before) s

variable {limits : TextLimits} {now : Instant} {caller : Uuid} {s s' : Store} {op : Operation}
variable {reply : Reply} {p p' : TradeRecord × StatusRecord} {trade trace operator : Uuid}

theorem AnsweredBy.call (h : AnsweredBy s trade trace operator) (c : Call) (hfresh : c.Fresh s) :
    AnsweredBy (c.after s) trade trace operator := by
  obtain ⟨before, answer, hbefore, hfresh', hsucceeds, hop, hcaller, hleads⟩ := h
  exact ⟨before, answer, hbefore, hfresh', hsucceeds, hop, hcaller, hleads.call c hfresh⟩

/-- The part of an answer stays with its owner while the trade is live. -/
theorem live_part_kept (h : Accepted limits now caller s op reply s') {t : TradeRecord}
    (ht : t ∈ s.trades) (hlive : t.isLive) (hpart : t.supplierPart = some trace)
    (hr : ∃ r ∈ s.parts, r.trace = trace ∧ r.isLive ∧ r.operator = operator) :
    ∃ r ∈ s'.parts, r.trace = trace ∧ r.isLive ∧ r.operator = operator :=
  traded_part_kept h (Store.isTraded_iff.2 ⟨t, ht, hlive, Or.inr hpart⟩) hr

/-- An answer is the caller's, or the trade had it before. -/
theorem Transition.supplierPart (h : Transition now caller s op p p')
    (hpart : p'.1.supplierPart = some trace) :
    op = .answer p.1.id trace ∧ p.1.supplier = caller ∧ p'.1.supplier = caller ∨
      p.1.supplierPart = some trace := by
  cases h with
  | answered hnamed hsupplier =>
    cases hpart
    exact Or.inl ⟨by rw [hnamed], hsupplier, hsupplier⟩
  | _ => exact Or.inr hpart

/-- Only a request that names the trade changes its supplier. -/
theorem Transition.supplier (h : Transition now caller s op p p') :
    p'.1.supplier = p.1.supplier ∨
      ∃ tradeId statusId r, op = .putRequest tradeId statusId r ∧ r.trade = some p.1.id ∧
        r.supplier = p'.1.supplier := by
  cases h with
  | readdressed hnamed => exact Or.inr ⟨_, _, _, rfl, hnamed, rfl⟩
  | _ => exact Or.inl rfl

/-- A request that names a trade is accepted only with the trade going to its supplier. -/
theorem readdressed_of_putRequest {tradeId statusId : Uuid} {r : TradeRequest}
    (hnamed : r.trade = some trade)
    (h : Accepted limits now caller s (.putRequest tradeId statusId r) reply s') :
    ∃ t' ∈ s'.trades, t'.id = trade ∧ t'.isLive ∧ t'.supplier = r.supplier := by
  cases h with
  | openRequest _ _ hnew => cases hnew.symm.trans hnamed
  | reviseRequest _ _ hold hread _ _ _ _ hwritten =>
    cases hold.symm.trans hnamed
    obtain ⟨-, rfl⟩ := Store.reviseWith_eq_ok.1 hwritten
    obtain ⟨t, ht, rfl, hlive, rfl⟩ := Store.trade?_eq_some hread
    refine ⟨t.readdressed now caller r.supplier, ?_, rfl, hlive, rfl⟩
    exact mem_updateWhere.2 (Or.inr ⟨t, ht, by simp [hlive], rfl⟩)

/-- A redirected trade is live, and it names another supplier afterwards. -/
theorem supplier_of_redirects (hs' : s'.Paired) (h : Accepted limits now caller s op reply s')
    (hp' : p' ∈ s'.pairs) (hid : p'.1.id = p.1.id) (hop : op.redirects p.1) :
    p'.1.isLive ∧ p'.1.supplier ≠ p.1.supplier := by
  obtain ⟨-, tradeId, statusId, r, rfl, hnamed, hother⟩ := hop
  obtain ⟨t', ht', hid', hlive, hsupplier⟩ := readdressed_of_putRequest hnamed h
  have heq : t' = p'.1 :=
    eq_of_key_eq hs'.trades ht' (Store.fst_mem_of_pairs hp') (hid'.trans hid.symm)
  rw [heq] at hlive hsupplier
  exact ⟨hlive, hsupplier ▸ hother⟩

/-- An answer that was the supplier's own stays so unless the request goes to another supplier. -/
theorem OwnAnswer.step (hs : Reachable s) (hs' : Reachable s')
    (h : Accepted limits now caller s op reply s') (hp : p ∈ s.pairs) (hp' : p' ∈ s'.pairs)
    (hmove : Transition now caller s op p p') (hlive : p'.1.isLive) (hown : OwnAnswer s p.1) :
    OwnAnswer s' p'.1 ↔ ¬ op.redirects p.1 := by
  have hid := (hmove.keeps ((Store.Paired.of_reachable hs).belongs p hp)).1
  have hbefore := hmove.live hlive
  constructor
  · intro hown' hop
    obtain ⟨-, hother⟩ := supplier_of_redirects (Store.Paired.of_reachable hs') h hp' hid hop
    obtain ⟨hanswered, tradeId, statusId, r, rfl, -⟩ := hop
    obtain ⟨trace, hpart⟩ := Option.ne_none_iff_exists'.1 hanswered
    have hpart' : p'.1.supplierPart = some trace := by
      cases hmove <;> exact hpart
    -- The part has one owner, the former supplier.
    obtain ⟨q, hq, hqt, -, hq'⟩ :=
      live_part_kept h (Store.fst_mem_of_pairs hp) hbefore hpart (hown trace hpart)
    obtain ⟨q', hq₂, hqt', -, hq₂'⟩ := hown' trace hpart'
    have hrow : q = q' := eq_of_key_eq (nodup_parts hs') hq hq₂ (hqt.trans hqt'.symm)
    rw [hrow, hq₂'] at hq'
    exact hother hq'
  · intro hstays trace hpart'
    rcases hmove.supplierPart hpart' with ⟨rfl, -, hsupplier⟩ | hpart
    · obtain ⟨hsame, part, howned⟩ := parts_of_answer h
      obtain ⟨q, hq, hqt, hoperator, hqlive, -⟩ := Store.part?_eq_some howned
      exact ⟨q, hsame ▸ hq, hqt, hqlive, hoperator.trans hsupplier.symm⟩
    · have hsupplier : p'.1.supplier = p.1.supplier := by
        rcases hmove.supplier with hsame | ⟨tradeId, statusId, r, rfl, hnamed, hsupplier⟩
        · exact hsame
        · by_contra hother
          exact hstays ⟨by simp [hpart], tradeId, statusId, r, rfl, hnamed, hsupplier ▸ hother⟩
      rw [hsupplier]
      exact live_part_kept h (Store.fst_mem_of_pairs hp) hbefore hpart (hown trace hpart)

/-- Whoever answered a live trade still has the part. -/
theorem exists_answerer (h : Reachable s) : ∀ t ∈ s.trades, t.isLive → ∀ trace,
    t.supplierPart = some trace → ∃ operator, AnsweredBy s t.id trace operator ∧
      ∃ r ∈ s.parts, r.trace = trace ∧ r.isLive ∧ r.operator = operator := by
  refine h.induct_after (P := fun s => ∀ t ∈ s.trades, t.isLive → ∀ trace,
    t.supplierPart = some trace → ∃ operator, AnsweredBy s t.id trace operator ∧
      ∃ r ∈ s.parts, r.trace = trace ∧ r.isLive ∧ r.operator = operator) ?_ ?_
  · simp [Store.empty]
  · intro s reply c hs hfresh hsucceeds ih haccepted t' ht' hlive' trace hpart'
    have hpaired := Store.Paired.of_reachable hs
    have hevolves := evolves_of_accepted hpaired haccepted
    obtain ⟨r', hp'⟩ := (hevolves.paired hpaired).exists_status ht'
    rcases hevolves.prior hpaired hp' with ⟨p, hp, hmove⟩ | ⟨_, _, _, -, hnew⟩
    · have hid : t'.id = p.1.id := (hmove.keeps (hpaired.belongs p hp)).1
      have ht := Store.fst_mem_of_pairs hp
      have hlive := hmove.live hlive'
      rw [hid]
      rcases hmove.supplierPart hpart' with ⟨hop, -, -⟩ | hpart
      · rw [hop] at haccepted
        obtain ⟨hsame, part, howned⟩ := parts_of_answer haccepted
        obtain ⟨q, hq, hqt, hoperator, hqlive, -⟩ := Store.part?_eq_some howned
        exact ⟨c.caller, ⟨s, c, hs, hfresh, hsucceeds, hop, rfl, .refl⟩, q, hsame ▸ hq, hqt, hqlive,
          hoperator⟩
      · obtain ⟨operator, hanswered, hr⟩ := ih p.1 ht hlive trace hpart
        exact ⟨operator, hanswered.call c hfresh, live_part_kept haccepted ht hlive hpart hr⟩
    · cases hnew
      cases hpart'

theorem OwnAnswers.step {c : Call} (hs : Reachable s) (hfresh : c.Fresh s) (hown : OwnAnswers s)
    (h : Accepted c.limits c.now c.caller s c.op reply (c.after s)) :
    OwnAnswers (c.after s) ↔ ¬ ∃ t ∈ s.trades, c.op.redirects t := by
  have hs' := hs.call c hfresh
  have hpaired := Store.Paired.of_reachable hs
  have hpaired' := Store.Paired.of_reachable hs'
  have hevolves := evolves_of_accepted hpaired h
  constructor
  · rintro hown' ⟨t, ht, hop⟩
    obtain ⟨r, hp⟩ := hpaired.exists_status ht
    obtain ⟨p', hp', hmove⟩ := hevolves.next hpaired hp
    have hid := (hmove.keeps (hpaired.belongs _ hp)).1
    obtain ⟨hlive', -⟩ := supplier_of_redirects hpaired' h hp' hid hop
    exact (OwnAnswer.step hs hs' h hp hp' hmove hlive' (hown t ht (hmove.live hlive'))).1
      (hown' p'.1 (Store.fst_mem_of_pairs hp') hlive') hop
  · intro hstays t' ht' hlive'
    obtain ⟨r', hp'⟩ := hpaired'.exists_status ht'
    rcases hevolves.prior hpaired hp' with ⟨p, hp, hmove⟩ | ⟨_, _, _, -, hnew⟩
    · have ht := Store.fst_mem_of_pairs hp
      exact (OwnAnswer.step hs hs' h hp hp' hmove hlive'
        (hown p.1 ht (hmove.live hlive'))).2 fun hop => hstays ⟨p.1, ht, hop⟩
    · cases hnew
      exact nofun

/-- In a reachable store the part that answers a live trade is a live part of the operator that gave
the answer, so it is the supplier's own exactly when the trade still names that operator. As long
as all answers are the suppliers' own, the call that ends this is an accepted request that names
another supplier for an answered trade. -/
theorem answers_own_iff (hs : Reachable s) :
    (∀ t ∈ s.trades, t.isLive → ∀ trace, t.supplierPart = some trace →
      ∃ operator, AnsweredBy s t.id trace operator ∧
        (∃ r ∈ s.parts, r.trace = trace ∧ r.isLive ∧ r.operator = operator) ∧
        (OwnAnswer s t ↔ t.supplier = operator)) ∧
    ∀ c : Call, c.Fresh s → OwnAnswers s →
      (OwnAnswers (c.after s) ↔ ¬ (c.Succeeds s ∧ ∃ t ∈ s.trades, c.op.redirects t)) := by
  constructor
  · intro t ht hlive trace hpart
    obtain ⟨operator, hanswered, r, hr, htrace, hlive', hoperator⟩ :=
      exists_answerer hs t ht hlive trace hpart
    refine ⟨operator, hanswered, ⟨r, hr, htrace, hlive', hoperator⟩, ?_, ?_⟩
    · intro hown
      obtain ⟨q, hq, htrace', -, hsupplier⟩ := hown trace hpart
      rw [← hsupplier, ← hoperator,
        eq_of_key_eq (nodup_parts hs) hr hq (htrace.trans htrace'.symm)]
    · rintro hsupplier trace' hpart'
      cases hpart.symm.trans hpart'
      exact ⟨r, hr, htrace, hlive', hoperator.trans hsupplier.symm⟩
  · intro c hfresh hown
    rcases c.after_cases s with ⟨hrefused, hsame⟩ | ⟨hsucceeds, reply, haccepted⟩
    · rw [hsame]
      exact iff_of_true hown fun h => hrefused h.1
    · rw [hown.step hs hfresh haccepted]
      exact not_congr ⟨fun h => ⟨hsucceeds, h⟩, And.right⟩

/-- The answer of the sample, which operator 2 gave. -/
theorem answers_own_iff_sample : OwnAnswers sampleAnswered ∧
    ∃ t ∈ sampleAnswered.trades, t.isLive ∧ t.supplierPart = some (.v4 20) ∧
      AnsweredBy sampleAnswered t.id (.v4 20) ⟨2⟩ := by
  have hsample : ∀ t ∈ sampleAnswered.trades, t.isLive ∧ t.supplierPart = some (.v4 20) ∧
      t.supplier = ⟨2⟩ := by decide +kernel
  have howner : ∀ r ∈ sampleAnswered.parts, r.trace = .v4 20 → r.operator = ⟨2⟩ := by decide +kernel
  have hcases (t : TradeRecord) (ht : t ∈ sampleAnswered.trades) :
      AnsweredBy sampleAnswered t.id (.v4 20) ⟨2⟩ ∧ OwnAnswer sampleAnswered t := by
    obtain ⟨hlive, hpart, hsupplier⟩ := hsample t ht
    obtain ⟨operator, hanswered, ⟨r, hr, htrace, -, hoperator⟩, hown⟩ :=
      (answers_own_iff reachable_sampleAnswered).1 t ht hlive (.v4 20) hpart
    have htwo : operator = ⟨2⟩ := hoperator.symm.trans (howner r hr htrace)
    rw [htwo] at hanswered hown
    exact ⟨hanswered, hown.2 hsupplier⟩
  obtain ⟨t, ht⟩ : ∃ t, t ∈ sampleAnswered.trades :=
    List.exists_mem_of_ne_nil _ (by decide +kernel)
  obtain ⟨hlive, hpart, -⟩ := hsample t ht
  exact ⟨fun t ht _ => (hcases t ht).2, t, ht, hlive, hpart, (hcases t ht).1⟩

/-- The requester of the sample turns to operator 4 instead. -/
def redirectedRequest : Call :=
  sampleCall ⟨1⟩ (.putRequest (.v4 50) (.v4 51)
    ⟨some (.v4 30), ⟨1⟩, ⟨4⟩, .v4 10, none, "2024-04-01"⟩)

/-- The trade names operator 4 and is still answered with the part of operator 2. -/
theorem not_ownAnswers_redirected :
    Reachable (redirectedRequest.after sampleAnswered) ∧
      (∃ t ∈ (redirectedRequest.after sampleAnswered).trades, t.isLive ∧
        t.supplier = ⟨4⟩ ∧ t.supplierPart = some (.v4 20)) ∧
      (∀ r ∈ (redirectedRequest.after sampleAnswered).parts, r.trace = .v4 20 → r.operator = ⟨2⟩) ∧
      ¬ OwnAnswers (redirectedRequest.after sampleAnswered) := by
  have hreach : Reachable (redirectedRequest.after sampleAnswered) :=
    reachable_sampleAnswered.call redirectedRequest (by decide +kernel)
  have htrade : ∃ t ∈ (redirectedRequest.after sampleAnswered).trades, t.isLive ∧
      t.supplier = ⟨4⟩ ∧ t.supplierPart = some (.v4 20) := by decide +kernel
  have howner : ∀ r ∈ (redirectedRequest.after sampleAnswered).parts,
      r.trace = .v4 20 → r.operator = ⟨2⟩ := by decide +kernel
  refine ⟨hreach, htrade, howner, fun hown => ?_⟩
  obtain ⟨t, ht, hlive, hsupplier, hpart⟩ := htrade
  obtain ⟨r, hr, htrace, -, hoperator⟩ := hown t ht hlive (.v4 20) hpart
  rw [howner r hr htrace, hsupplier] at hoperator
  cases hoperator

end Footprint
