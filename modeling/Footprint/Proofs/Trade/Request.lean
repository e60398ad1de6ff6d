import Footprint.Proofs.Exchange.Canonical
import Footprint.Proofs.Exchange.Served
import Footprint.Proofs.Trade.Exact
import Footprint.Proofs.Trade.Listing

namespace Footprint

open Table Enumerated Exchange

/-- What is asked of a request whether it is new or not. -/
structure TradeRequest.Lawful (limits : TextLimits) (caller : Uuid) (r : TradeRequest) : Prop where
  requester : r.requester = caller
  supplier : r.supplier ≠ caller
  dueDate : Text.isBlankText r.dueDate = false
  message : ∀ message, r.message = some message → message.length ≤ limits.message

/-- The store with a new request. -/
def Store.withRequest (s : Store) (now : Instant) (caller tradeId statusId : Uuid)
    (r : TradeRequest) : Store :=
  { s with
    trades := s.trades ++ [TradeRecord.ofTrade now caller (requestedTrade tradeId caller r)]
    statuses := s.statuses ++
      [StatusRecord.ofStatus now caller (requestedTrade tradeId caller r)
        (requestedStatus now tradeId statusId r)] }

/-- Some page for the operator on that side shows the status of that identifier. -/
def Store.Shows (s : Store) (limits : ListingLimits) (operator : Uuid) (side : Side)
    (statusId : Uuid) : Prop :=
  ∃ status, status.id = statusId ∧ Listed s limits operator side status

/-- The trade is read as such, by its operators too, and so is its status. -/
structure Store.Reads (s : Store) (t : Trade) (status : Status) : Prop where
  trade : s.trade? t.id = some t
  seen : ∀ operator, t.requester = operator ∨ t.supplier = operator →
    Exchange.trade? s operator t.id = some t
  status : s.statusOf? t.id = .ok (some status)

/-- When a new request is accepted and what it adds. -/
structure OpensRequest (s : Store) (c : Call) (tradeId statusId : Uuid) (r : TradeRequest) :
    Prop where
  succeeds : c.Succeeds s ↔ r.Lawful c.limits c.caller ∧
    s.HasPart c.caller r.requesterPart false ∧
    ∀ t ∈ s.trades, t.isLive → t.requesterPart ≠ r.requesterPart
  opened : c.Succeeds s → c.served s =
    (.ok (.trade (requestedTrade tradeId c.caller r) (requestedStatus c.now tradeId statusId r)),
      s.withRequest c.now c.caller tradeId statusId r)

/-- When a change to a request is accepted, what it changes, and to whom the request is listed
before and after that. -/
structure RevisesRequest (s : Store) (c : Call) (trade : Uuid) (r : TradeRequest) : Prop where
  succeeds : c.Succeeds s ↔ r.Lawful c.limits c.caller ∧
    ∃ p ∈ s.pairs, p.1.id = trade ∧ p.1.isLive ∧ p.1.requester = c.caller ∧
      p.1.requesterPart = r.requesterPart ∧ p.2.isPending
  revised : c.Succeeds s → ∀ p ∈ s.pairs, p.1.id = trade → ∃ status, p.2.status = .ok status ∧
    c.served s =
      (.ok (.trade { p.1.trade with supplier := r.supplier }
        { status with message := r.message, dueDate := r.dueDate }),
        s.withPair trade (TradeRecord.readdressed c.now c.caller r.supplier)
          (StatusRecord.readdressed c.now c.caller r.supplier r.message r.dueDate))
  listed : c.Succeeds s → ∀ p ∈ s.pairs, p.1.id = trade → ∀ limits : ListingLimits,
    0 < limits.maxLimit → ∀ operator,
      (s.Shows limits operator .response p.2.id ↔ p.1.supplier = operator) ∧
        ((c.after s).Shows limits operator .response p.2.id ↔ r.supplier = operator)

variable {s s' : Store} {c : Call} {limits : TextLimits} {caller tradeId statusId trade : Uuid}
variable {r : TradeRequest} {p : TradeRecord × StatusRecord} {status : Status} {side : Side}

theorem plan_of_request (hop : c.op = .putRequest tradeId statusId r) :
    c.op.plan c.limits c.now c.caller = Operation.withReply (fun (t, status) => .trade t status)
      (putRequest c.limits c.now tradeId statusId c.caller r) := by
  rw [hop]
  rfl

theorem TradeRequest.lawful_iff : r.Lawful limits caller ↔
    Rules.request caller r = [] ∧ Rules.length "message" r.message limits.message = [] := by
  rw [Rules.request_eq_nil, Rules.length_eq_nil]
  exact ⟨fun h => ⟨⟨h.requester, h.supplier, h.dueDate⟩, h.message⟩,
    fun ⟨⟨hrequester, hsupplier, hdue⟩, hmessage⟩ => ⟨hrequester, hsupplier, hdue, hmessage⟩⟩

theorem Store.Paired.reads (h : s.Paired) (hp : p ∈ s.pairs) (hlive : p.1.isLive)
    (hread : p.2.status = .ok status) : s.Reads p.1.trade status := by
  have htrade := h.trade?_eq hp hlive
  refine ⟨htrade, fun operator hparty => ?_, h.statusOf?_eq hp hlive hread⟩
  rw [Exchange.trade?, TradeRecord.trade, htrade]
  exact Option.filter_eq_some_iff.2 ⟨rfl, by simpa [TradeRecord.trade] using hparty⟩

/-- A status is listed to the operators of its trade, each on its side. -/
theorem shows_iff (hs : Reachable s) {limits : ListingLimits} (hlimits : 0 < limits.maxLimit)
    (hp : p ∈ s.pairs) (hlive : p.1.isLive) {operator : Uuid} :
    s.Shows limits operator side p.2.id ↔ p.1.operatorOn side = operator := by
  have hpaired := Store.Paired.of_reachable hs
  constructor
  · rintro ⟨status, hid, hlisted⟩
    obtain ⟨t, ht, -, hoperator, hstatus⟩ := trade_of_listed hpaired hlisted
    obtain ⟨r, hq⟩ := hpaired.exists_status ht
    obtain ⟨-, hread⟩ := hpaired.status_of_statusOf? hq hstatus
    have hrow : r.id = p.2.id := (StatusRecord.status_eq_ok.1 hread).2.2.2.1.symm.trans hid
    cases hpaired.eq_of_status hq hp hrow
    exact hoperator
  · intro hoperator
    have hlive' : p.2.isLive := (hpaired.belongs p hp).live.trans hlive
    obtain ⟨status, hread⟩ := exists_status_of_live hs (Store.snd_mem_of_pairs hp) hlive'
    exact ⟨status, (StatusRecord.status_eq_ok.1 hread).2.2.2.1, listed_of_trade hs hlimits
      (Store.fst_mem_of_pairs hp) hoperator (hpaired.statusOf?_eq hp hlive hread)⟩

section

variable (hs : Reachable s) (hop : c.op = .putRequest tradeId statusId r)
include hs hop

theorem served_of_new (hfresh : c.Fresh s) (hnew : r.trade = none)
    (hlawful : r.Lawful c.limits c.caller) (hpart : s.HasPart c.caller r.requesterPart false)
    (hfirst : ∀ t ∈ s.trades, t.isLive → t.requesterPart ≠ r.requesterPart) :
    c.served s =
      (.ok (.trade (requestedTrade tradeId c.caller r) (requestedStatus c.now tradeId statusId r)),
        s.withRequest c.now c.caller tradeId statusId r) := by
  obtain ⟨part, hread, hterminal⟩ := hpart.exists_part hs
  obtain ⟨hrules, hlength⟩ := TradeRequest.lawful_iff.1 hlawful
  have hplan : putRequest c.limits c.now tradeId statusId c.caller r s =
      .ok (.openTrade (requestedTrade tradeId c.caller r) (requestedStatus c.now tradeId statusId r)
        c.caller, requestedTrade tradeId c.caller r, requestedStatus c.now tradeId statusId r) := by
    refine bind_eq_ok.2 ⟨(), refuse_eq_ok_iff.2 hrules, bind_eq_ok.2
      ⟨(), refuse_eq_ok_iff.2 hlength, ?_⟩⟩
    rw [hnew]
    refine bind_eq_ok.2 ⟨some part, hread, ?_⟩
    simp only [hterminal, Store.requestFor?_eq_none.2 hfirst, Option.isSome_none,
      Bool.false_eq_true, if_false]
    rfl
  obtain ⟨s', happly, hserved⟩ := exists_served_of_planned (plan_of_request hop) hs hfresh hplan
  obtain ⟨-, -, rfl⟩ := (Store.openTrade_eq_ok rfl).1 happly
  exact hserved

theorem opensRequest (hfresh : c.Fresh s) (hnew : r.trade = none) :
    OpensRequest s c tradeId statusId r := by
  have hsucceeds : c.Succeeds s ↔ r.Lawful c.limits c.caller ∧
      s.HasPart c.caller r.requesterPart false ∧
      ∀ t ∈ s.trades, t.isLive → t.requesterPart ≠ r.requesterPart := by
    constructor
    · rintro ⟨⟨reply, s'⟩, hrun⟩
      have haccepted := accepted_of_run hrun
      rw [hop] at haccepted
      cases haccepted with
      | openRequest hrules hlength _ howned himported hfirst =>
        refine ⟨TradeRequest.lawful_iff.2 ⟨hrules, hlength⟩, ?_,
          Store.requestFor?_eq_none.1 hfirst⟩
        rw [← himported]
        exact hasPart_of_part? howned
      | reviseRequest _ _ hold => cases hnew.symm.trans hold
    · rintro ⟨hlawful, hpart, hfirst⟩
      exact succeeds_of_ok (served_of_new hs hop hfresh hnew hlawful hpart hfirst)
  refine ⟨hsucceeds, fun h => ?_⟩
  obtain ⟨hlawful, hpart, hfirst⟩ := hsucceeds.1 h
  exact served_of_new hs hop hfresh hnew hlawful hpart hfirst

theorem Revisable.served (hp : p ∈ s.pairs) (hnamed : r.trade = some p.1.id)
    (h : Revisable c.limits c.caller r p) (hread : p.2.status = .ok status) :
    c.served s =
      (.ok (.trade { p.1.trade with supplier := r.supplier }
        { status with message := r.message, dueDate := r.dueDate }),
        s.withPair p.1.id (TradeRecord.readdressed c.now c.caller r.supplier)
          (StatusRecord.readdressed c.now c.caller r.supplier r.message r.dueDate)) := by
  have hserved := served_of_plan_ok (plan_of_request hop) (h.putRequest_eq hs hp hnamed hread)
    ((Store.Paired.of_reachable hs).reviseTrade_eq_ok hp hread h.pending ..)
  exact hserved

theorem succeeds_iff_revisable (hold : r.trade = some trade) :
    c.Succeeds s ↔ ∃ p ∈ s.pairs, p.1.id = trade ∧ Revisable c.limits c.caller r p := by
  constructor
  · rintro ⟨⟨reply, s'⟩, hrun⟩
    have haccepted := accepted_of_run hrun
    rw [hop] at haccepted
    cases haccepted with
    | openRequest _ _ hnew => cases hnew.symm.trans hold
    | reviseRequest hrules hlength hnamed htrade hstatus hrequester hpart hpending =>
      cases hnamed.symm.trans hold
      obtain ⟨p, hp, hid, -, hlive, rfl, hread⟩ :=
        (Store.Paired.of_reachable hs).pair_of_reading htrade hstatus
      exact ⟨p, hp, hid, hrules, hlength, hrequester, hpart,
        StatusRecord.isPending_of_status hread hlive hpending⟩
  · rintro ⟨p, hp, rfl, h⟩
    obtain ⟨status, hread, -⟩ := readings_of_pending hs hp h.pending
    exact succeeds_of_ok (h.served hs hop hp hold hread)

theorem revisesRequest (hold : r.trade = some trade) : RevisesRequest s c trade r := by
  have hpaired := Store.Paired.of_reachable hs
  have hrevisable (h : c.Succeeds s) (p : TradeRecord × StatusRecord) (hp : p ∈ s.pairs)
      (hid : p.1.id = trade) : Revisable c.limits c.caller r p := by
    obtain ⟨q, hq, hid', h⟩ := (succeeds_iff_revisable hs hop hold).1 h
    rwa [hpaired.eq_of_trade hp hq (hid.trans hid'.symm)]
  constructor
  case succeeds =>
    rw [succeeds_iff_revisable hs hop hold]
    constructor
    · rintro ⟨p, hp, hid, h⟩
      exact ⟨TradeRequest.lawful_iff.2 ⟨h.rules, h.length⟩, p, hp, hid,
        hpaired.isLive_of_isPending hp h.pending, h.requester, h.part, h.pending⟩
    · rintro ⟨hlawful, p, hp, hid, -, hrequester, hpart, hpending⟩
      obtain ⟨hrules, hlength⟩ := TradeRequest.lawful_iff.1 hlawful
      exact ⟨p, hp, hid, hrules, hlength, hrequester, hpart, hpending⟩
  case revised =>
    intro h p hp hid
    have h := hrevisable h p hp hid
    subst hid
    obtain ⟨status, hread, -⟩ := readings_of_pending hs hp h.pending
    exact ⟨status, hread, h.served hs hop hp hold hread⟩
  case listed =>
    intro h p hp hid limits hlimits operator
    have h := hrevisable h p hp hid
    have hlive := hpaired.isLive_of_isPending hp h.pending
    subst hid
    obtain ⟨status, hread, -⟩ := readings_of_pending hs hp h.pending
    have hserved := h.served hs hop hp hold hread
    refine ⟨shows_iff hs hlimits hp hlive, ?_⟩
    have hs' := reachable_of_served hs (Call.fresh_of_addresses (by rw [hop]; exact hold)) hserved
    rw [after_of_served hserved]
    exact shows_iff hs' hlimits (hpaired.mem_withPair hp) hlive

end

/-- A request that is put, for every caller and input, in a reachable store. A new one is accepted
if and only if it obeys the rules, its part is a live one of the caller whose figures come from
others, and no live trade is for that part; a trade and a pending status are added. A change is
accepted if and only if it obeys the rules and names a live trade of the caller for the same part
that is pending; the supplier, the message and the due date of the trade and its status are
replaced, and the request is listed to the new supplier instead of the old one. What is answered is
what is read afterwards, and nothing else changes. -/
theorem request_put_exact (hs : Reachable s) (hfresh : c.Fresh s)
    (hop : c.op = .putRequest tradeId statusId r) :
    (r.trade = none → OpensRequest s c tradeId statusId r) ∧
      (∀ trade, r.trade = some trade → RevisesRequest s c trade r) ∧
      (¬ c.Succeeds s → ∃ e, c.served s = (.error e, s)) ∧
      ∀ t status s', c.served s = (.ok (.trade t status), s') → s'.Reads t status := by
  refine ⟨opensRequest hs hop hfresh, fun trade => revisesRequest hs hop, served_of_not_succeeds,
    fun t status s' hserved => ?_⟩
  have hpaired := Store.Paired.of_reachable hs
  have hpaired' := Store.Paired.of_reachable (reachable_of_served hs hfresh hserved)
  have hsucceeds := succeeds_of_ok hserved
  cases hold : r.trade with
  | none =>
    cases hserved.symm.trans ((opensRequest hs hop hfresh hold).opened hsucceeds)
    have hmem : (TradeRecord.ofTrade c.now c.caller (requestedTrade tradeId c.caller r),
        StatusRecord.ofStatus c.now c.caller (requestedTrade tradeId c.caller r)
          (requestedStatus c.now tradeId statusId r)) ∈
        (s.withRequest c.now c.caller tradeId statusId r).pairs := by
      rw [hpaired.pairs_append rfl rfl]
      exact List.mem_append_right _ (List.mem_singleton_self _)
    exact hpaired'.reads hmem rfl StatusRecord.status_ofStatus
  | some trade =>
    obtain ⟨p, hp, hid, hrevisable⟩ := (succeeds_iff_revisable hs hop hold).1 hsucceeds
    subst hid
    obtain ⟨status, hread, -⟩ := readings_of_pending hs hp hrevisable.pending
    cases hserved.symm.trans (hrevisable.served hs hop hp hold hread)
    have hlive := hpaired.isLive_of_isPending hp hrevisable.pending
    exact hpaired'.reads (hpaired.mem_withPair hp) hlive (StatusRecord.status_readdressed hread)

/-- The request of the sample, before operator 2 is asked. -/
def sampleOpening : Call :=
  sampleCall ⟨1⟩ (.putRequest (.v4 30) (.v4 31) ⟨none, ⟨1⟩, ⟨2⟩, .v4 10, none, "2024-04-01"⟩)

def sampleParts : Store :=
  runAll (sampleCalls.take 2) Store.empty

/-- Operator 4 is asked instead of operator 2. -/
def sampleRedirection : Call :=
  sampleCall ⟨1⟩ (.putRequest ⟨0⟩ ⟨0⟩ ⟨some (.v4 30), ⟨1⟩, ⟨4⟩, .v4 10, some "soon", "2024-05-01"⟩)

theorem request_put_exact_sample :
    (∃ status s', sampleOpening.served sampleParts =
        (.ok (.trade ⟨.v4 30, ⟨1⟩, ⟨2⟩, .v4 10, none⟩ status), s') ∧
      s'.Reads ⟨.v4 30, ⟨1⟩, ⟨2⟩, .v4 10, none⟩ status) ∧
      sampleAnswered.Shows Settings.default.listing ⟨2⟩ .response (.v4 31) ∧
      ¬ (sampleRedirection.after sampleAnswered).Shows Settings.default.listing ⟨2⟩ .response
        (.v4 31) ∧
      (sampleRedirection.after sampleAnswered).Shows Settings.default.listing ⟨4⟩ .response
        (.v4 31) := by
  have hparts : Reachable sampleParts := Reachable.empty.calls (by decide +kernel)
  obtain ⟨hopens, -, -, hreads⟩ := request_put_exact hparts (c := sampleOpening)
    (by decide +kernel) rfl
  obtain ⟨-, hrevises, -⟩ := request_put_exact reachable_sampleAnswered (c := sampleRedirection)
    (by decide +kernel) rfl
  have hrevises := hrevises _ rfl
  obtain ⟨p, hp, hid, hrow, hsupplier, hrevisable⟩ : ∃ p ∈ sampleAnswered.pairs, p.1.id = .v4 30 ∧
      p.2.id = .v4 31 ∧ p.1.supplier = ⟨2⟩ ∧ p.1.isLive ∧ p.1.requester = ⟨1⟩ ∧
      p.1.requesterPart = .v4 10 ∧ p.2.isPending := by decide +kernel
  have hrevised : sampleRedirection.Succeeds sampleAnswered := by
    refine hrevises.succeeds.2 ⟨⟨rfl, by decide, by decide +kernel, ?_⟩, p, hp, hid, hrevisable⟩
    rintro _ ⟨⟩
    decide +kernel
  have hopened := (hopens rfl).opened ((hopens rfl).succeeds.2
    ⟨⟨rfl, by decide, by decide +kernel, nofun⟩, by decide +kernel, by decide +kernel⟩)
  have hlisted := hrevises.listed hrevised p hp hid Settings.default.listing (by decide +kernel)
  rw [hrow, hsupplier] at hlisted
  refine ⟨⟨_, _, hopened, hreads _ _ _ hopened⟩, (hlisted ⟨2⟩).1.2 rfl, ?_, (hlisted ⟨4⟩).2.2 rfl⟩
  exact (hlisted ⟨2⟩).2.not.2 (by decide)

end Footprint
