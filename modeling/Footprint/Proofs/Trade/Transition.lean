import Footprint.Proofs.Exchange.Reachable
import Footprint.Proofs.Trade.Pairing

namespace Footprint

open Table Enumerated Exchange

namespace TradeRecord

def readdressed (now : Instant) (author supplier : Uuid) (t : TradeRecord) : TradeRecord :=
  { t with supplier := supplier, updatedAt := now, updatedBy := author }

def answered (now : Instant) (author trace : Uuid) (t : TradeRecord) : TradeRecord :=
  { t with supplierPart := some trace, updatedAt := now, updatedBy := author }

def deleted (now : Instant) (author : Uuid) (t : TradeRecord) : TradeRecord :=
  { t with deletedAt := some now, updatedBy := author }

end TradeRecord

namespace StatusRecord

variable {now : Instant} {author : Option Uuid} {r : StatusRecord} {status : Status}

def readdressed (now : Instant) (author supplier : Uuid) (message : Option String)
    (dueDate : String) (r : StatusRecord) : StatusRecord :=
  { r with
    supplier := supplier
    message := message
    dueDate := dueDate
    updatedAt := now
    updatedBy := author }

def answered (now : Instant) (author : Uuid) (progress : Progress) (terminal : Bool)
    (r : StatusRecord) : StatusRecord :=
  { r with
    progress := literal progress
    tree := if terminal then "TERMINATED" else "UNTERMINATED"
    completedCount := if progress = .completed then 1 else 0
    tradesCount := if progress = .completed then 1 else 0
    updatedAt := now
    updatedBy := author }

def completed (now : Instant) (terminal : Bool) (r : StatusRecord) : StatusRecord :=
  { r with
    progress := "COMPLETED"
    tree := if terminal then "TERMINATED" else "UNTERMINATED"
    completedCount := 1
    tradesCount := 1
    updatedAt := now }

def deleted (now : Instant) (author : Uuid) (r : StatusRecord) : StatusRecord :=
  { r with deletedAt := some now, updatedBy := author }

theorem literal_ofTerminal (terminal : Bool) :
    literal (TreeState.ofTerminal terminal) =
      if terminal then "TERMINATED" else "UNTERMINATED" := by
  cases terminal <;> rfl

theorem isPending_of_status (hread : r.status = .ok status) (hlive : r.isLive)
    (hpending : status.progress = .pending) : r.isPending := by
  rw [isPending_iff, (status_eq_ok.1 hread).1, hpending]
  exact ⟨rfl, hlive⟩

/-- A status read from a row and written back changes only what was changed in between. -/
theorem revise_readdressed {supplier caller : Uuid} {message : Option String} {dueDate : String}
    (hread : r.status = .ok status) :
    revise now (some caller) { status with message := message, dueDate := dueDate }
      { r with supplier := supplier } = r.readdressed now caller supplier message dueDate := by
  obtain ⟨hprogress, htree, -, -, -, -, hreply, -, hcompleted, htrades, -⟩ := status_eq_ok.1 hread
  simp [revise, readdressed, ← hprogress, ← htree, hreply, hcompleted, htrades]

theorem revise_answered {caller : Uuid} {progress : Progress} {terminal : Bool}
    (hread : r.status = .ok status) :
    revise now (some caller) (answeredStatus progress terminal status) r =
      r.answered now caller progress terminal := by
  obtain ⟨-, -, -, -, -, hmessage, hreply, hdue, -⟩ := status_eq_ok.1 hread
  simp [revise, answered, ← answeredStatus_eq, literal_ofTerminal, countOf, hmessage, hreply, hdue]

theorem revise_completed {terminal : Bool} (hread : r.status = .ok status) :
    revise now none (completedStatus (.ofTerminal terminal) status) r =
      r.completed now terminal := by
  obtain ⟨-, -, -, -, -, hmessage, hreply, hdue, -⟩ := status_eq_ok.1 hread
  have hliteral : literal Progress.completed = "COMPLETED" := rfl
  simp [revise, completed, completedStatus, literal_ofTerminal, hliteral, hmessage, hreply, hdue]

theorem status_readdressed {caller supplier : Uuid} {message : Option String} {dueDate : String}
    (hread : r.status = .ok status) :
    (r.readdressed now caller supplier message dueDate).status =
      .ok { status with message := message, dueDate := dueDate } := by
  rw [status_eq_ok] at hread ⊢
  obtain ⟨hprogress, htree, hkind, hid, htrade, -, hreply, -, hcounts⟩ := hread
  exact ⟨hprogress, htree, hkind, hid, htrade, rfl, hreply, rfl, hcounts⟩

theorem status_answered {caller : Uuid} {progress : Progress} {terminal : Bool}
    (hread : r.status = .ok status) :
    (r.answered now caller progress terminal).status =
      .ok (answeredStatus progress terminal status) := by
  rw [status_eq_ok] at hread ⊢
  obtain ⟨-, -, hkind, hid, htrade, hmessage, hreply, hdue, -, -, hrequested⟩ := hread
  exact ⟨rfl, (literal_ofTerminal terminal).symm, hkind, hid, htrade, hmessage, hreply, hdue, rfl,
    rfl, hrequested⟩

theorem status_completed {terminal : Bool} (hread : r.status = .ok status) :
    (r.completed now terminal).status =
      .ok (completedStatus (.ofTerminal terminal) status) := by
  rw [status_eq_ok] at hread ⊢
  obtain ⟨-, -, hkind, hid, htrade, hmessage, hreply, hdue, -, -, hrequested⟩ := hread
  exact ⟨rfl, (literal_ofTerminal terminal).symm, hkind, hid, htrade, hmessage, hreply, hdue, rfl,
    rfl, hrequested⟩

theorem status_ended {caller : Uuid} {progress : Progress} {reply : Option String}
    (hread : r.status = .ok status) :
    (r.ended now caller progress reply).status =
      .ok { status with progress := progress, reply := reply } := by
  rw [status_eq_ok] at hread ⊢
  obtain ⟨-, htree, hkind, hid, htrade, hmessage, -, hrest⟩ := hread
  exact ⟨rfl, htree, hkind, hid, htrade, hmessage, rfl, hrest⟩

end StatusRecord

namespace Store.Paired

variable {s : Store} {now : Instant} {caller : Uuid} {p : TradeRecord × StatusRecord}
variable {status : Status}

theorem reviseTrade_eq_ok (h : s.Paired) (hp : p ∈ s.pairs) (hread : p.2.status = .ok status)
    (hpending : p.2.isPending) (supplier : Uuid) (message : Option String) (dueDate : String) :
    s.reviseTrade now { p.1.trade with supplier := supplier }
        { status with message := message, dueDate := dueDate } caller =
      .ok (s.withPair p.1.id (TradeRecord.readdressed now caller supplier)
        (StatusRecord.readdressed now caller supplier message dueDate)) := by
  have hid : p.2.id = status.id := (StatusRecord.status_eq_ok.1 hread).2.2.2.1.symm
  have hawaits : awaits status.id { p.2 with supplier := supplier } := by
    rw [← hid]
    exact Bool.and_eq_true_iff.2 ⟨decide_eq_true rfl, hpending⟩
  refine reviseWith_eq_ok.2 ⟨⟨_, mem_updateWhere.2 (Or.inr
    ⟨p.2, snd_mem_of_pairs hp, decide_eq_true hid, rfl⟩), hawaits⟩, ?_⟩
  rw [reviseStatus, updateWhere, updateWhere, List.map_map]
  refine (h.eq_withPair hp ?_ ?_ fun q _ hq hq' _ => ?_).symm
  · exact if_pos (by simp [h.isLive_of_isPending hp hpending])
  · rw [← StatusRecord.revise_readdressed hread, Function.comp_apply, if_pos (decide_eq_true hid)]
    exact if_pos hawaits
  · simp [hq, ← hid, hq', awaits]

theorem answerTrade_eq_ok (h : s.Paired) (hp : p ∈ s.pairs) (hread : p.2.status = .ok status)
    (hpending : p.2.isPending) (trace : Uuid) (progress : Progress) (terminal : Bool) :
    s.answerTrade now p.1.id trace (answeredStatus progress terminal status) caller =
      .ok (s.withPair p.1.id (TradeRecord.answered now caller trace)
        (StatusRecord.answered now caller progress terminal)) := by
  have hid : p.2.id = status.id := (StatusRecord.status_eq_ok.1 hread).2.2.2.1.symm
  have hawaits : awaits status.id p.2 := by
    rw [← hid]
    exact Bool.and_eq_true_iff.2 ⟨decide_eq_true rfl, hpending⟩
  refine reviseWith_eq_ok.2 ⟨⟨p.2, snd_mem_of_pairs hp, hawaits⟩, ?_⟩
  refine (h.eq_withPair hp ?_ ?_ fun q _ hq hq' _ => ?_).symm
  · exact if_pos (by simp [h.isLive_of_isPending hp hpending])
  · rw [← StatusRecord.revise_answered hread]
    exact if_pos hawaits
  · simp [hq, answeredStatus, ← hid, hq', awaits]

theorem endRequest_eq_ok (h : s.Paired) (hp : p ∈ s.pairs) (hpending : p.2.isPending)
    (progress : Progress) (event : Event) (reply : Option String) :
    s.endRequest now caller p.1.id progress event reply =
      .ok (s.withPair p.1.id id (StatusRecord.ended now caller progress reply)) := by
  have hopen : p.2.isOpenFor p.1.id := by
    simp [StatusRecord.isOpenFor, (h.belongs p hp).trade, hpending]
  refine Store.endRequest_eq_ok.2 ⟨⟨p.2, snd_mem_of_pairs hp, hopen⟩, ?_⟩
  have hpair : { s with
      trades := s.trades.map id
      statuses := updateWhere (StatusRecord.isOpenFor p.1.id)
        (StatusRecord.ended now caller progress reply) s.statuses } =
      s.withPair p.1.id id (StatusRecord.ended now caller progress reply) :=
    h.eq_withPair hp rfl (if_pos hopen) fun q _ _ _ hq =>
      ⟨rfl, if_neg (by simp [StatusRecord.isOpenFor, hq])⟩
  rw [← hpair, List.map_id]

end Store.Paired

/-- What an operation of the caller can make of a trade and its status. -/
inductive Transition (now : Instant) (caller : Uuid) (s : Store) :
    Operation → TradeRecord × StatusRecord → TradeRecord × StatusRecord → Prop
  | unchanged {op p}
      (waiting : ∀ trace, op.registers = some trace → p.1.supplierPart = some trace →
        p.2.isPending = false) :
      Transition now caller s op p p
  | readdressed {tradeId statusId r p}
      (named : r.trade = some p.1.id) (requester : p.1.requester = caller)
      (pending : p.2.isPending) (other : r.supplier ≠ caller) :
      Transition now caller s (.putRequest tradeId statusId r) p
        (p.1.readdressed now caller r.supplier,
          p.2.readdressed now caller r.supplier r.message r.dueDate)
  | answered {trade trace p part progress}
      (named : trade = p.1.id) (supplier : p.1.supplier = caller) (pending : p.2.isPending)
      (outcome : progress =
        if s.hasFigures trace || s.hasFigures p.1.requesterPart then .completed else .pending)
      (owned : s.part? caller trace = .ok (some part)) :
      Transition now caller s (.answer trade trace) p
        (p.1.answered now caller trace, p.2.answered now caller progress part.terminal)
  | completed {op trace p part}
      (registers : op.registers = some trace) (supplierPart : p.1.supplierPart = some trace)
      (owned : s.part? caller trace = .ok (some part)) (pending : p.2.isPending) :
      Transition now caller s op p (p.1, p.2.completed now part.terminal)
  | cancelled {trade reply p}
      (named : trade = p.1.id) (requester : p.1.requester = caller) (pending : p.2.isPending) :
      Transition now caller s (.cancel trade reply) p (p.1, p.2.ended now caller .cancelled reply)
  | rejected {trade reply p}
      (named : trade = p.1.id) (supplier : p.1.supplier = caller) (pending : p.2.isPending) :
      Transition now caller s (.reject trade reply) p (p.1, p.2.ended now caller .rejected reply)
  | deleted {trade p}
      (named : trade = p.1.id) (requester : p.1.requester = caller) (live : p.1.isLive) :
      Transition now caller s (.deleteTrade trade) p
        (p.1.deleted now caller, p.2.deleted now caller)

/-- No operation but a registration completes a request that it does not name. -/
theorem Transition.same {now : Instant} {caller : Uuid} {s : Store} {op : Operation}
    {p : TradeRecord × StatusRecord} (h : op.registers = none) : Transition now caller s op p p :=
  .unchanged fun trace hregisters => by rw [h] at hregisters; cases hregisters

theorem Transition.keeps {now : Instant} {caller : Uuid} {s : Store} {op : Operation}
    {p p' : TradeRecord × StatusRecord} (h : Transition now caller s op p p')
    (hbelongs : p.2.Belongs p.1) : p'.1.id = p.1.id ∧ p'.2.id = p.2.id ∧ p'.2.Belongs p'.1 := by
  obtain ⟨htrade, hrequester, hsupplier, hlive⟩ := hbelongs
  cases h with
  | unchanged => exact ⟨rfl, rfl, ⟨htrade, hrequester, hsupplier, hlive⟩⟩
  | readdressed => exact ⟨rfl, rfl, ⟨htrade, hrequester, rfl, hlive⟩⟩
  | answered => exact ⟨rfl, rfl, ⟨htrade, hrequester, hsupplier, hlive⟩⟩
  | completed => exact ⟨rfl, rfl, ⟨htrade, hrequester, hsupplier, hlive⟩⟩
  | cancelled => exact ⟨rfl, rfl, ⟨htrade, hrequester, hsupplier, hlive⟩⟩
  | rejected => exact ⟨rfl, rfl, ⟨htrade, hrequester, hsupplier, hlive⟩⟩
  | deleted => exact ⟨rfl, rfl, ⟨htrade, hrequester, hsupplier, rfl⟩⟩

/-- No operation changes the part that a trade is for. -/
theorem Transition.requesterPart {now : Instant} {caller : Uuid} {s : Store} {op : Operation}
    {p p' : TradeRecord × StatusRecord} (h : Transition now caller s op p p') :
    p'.1.requesterPart = p.1.requesterPart := by
  cases h <;> rfl

/-- Nor the operator that it is for. -/
theorem Transition.requester {now : Instant} {caller : Uuid} {s : Store} {op : Operation}
    {p p' : TradeRecord × StatusRecord} (h : Transition now caller s op p p') :
    p'.1.requester = p.1.requester := by
  cases h <;> rfl

/-- Nor the time at which it was asked for. -/
theorem Transition.requestedAt {now : Instant} {caller : Uuid} {s : Store} {op : Operation}
    {p p' : TradeRecord × StatusRecord} (h : Transition now caller s op p p') :
    p'.2.requestedAt = p.2.requestedAt := by
  cases h <;> rfl

/-- A deleted trade does not come back. -/
theorem Transition.live {now : Instant} {caller : Uuid} {s : Store} {op : Operation}
    {p p' : TradeRecord × StatusRecord} (h : Transition now caller s op p p')
    (hlive : p'.1.isLive) : p.1.isLive := by
  cases h with
  | deleted => cases hlive
  | _ => exact hlive

/-- What a request needs to be opened: a part of the caller that has none yet, and another
operator. -/
structure Requestable (s : Store) (caller : Uuid) (r : TradeRequest) : Prop where
  first : s.requestFor? r.requesterPart = none
  owned : ∃ part, s.part? caller r.requesterPart = .ok (some part)
  other : r.supplier ≠ caller

/-- What an operation makes of all trades and statuses: each pair moves, or a new pair is added. -/
inductive Evolves (now : Instant) (caller : Uuid) (s : Store) (op : Operation) (s' : Store) : Prop
  | moved (f : TradeRecord → TradeRecord) (g : StatusRecord → StatusRecord)
      (trades : s'.trades = s.trades.map f) (statuses : s'.statuses = s.statuses.map g)
      (moves : ∀ p ∈ s.pairs, Transition now caller s op p (f p.1, g p.2))
  | opened {tradeId statusId r} (opens : op = .putRequest tradeId statusId r)
      (trades : s'.trades =
        s.trades ++ [TradeRecord.ofTrade now caller (requestedTrade tradeId caller r)])
      (statuses : s'.statuses = s.statuses ++
        [StatusRecord.ofStatus now caller (requestedTrade tradeId caller r)
          (requestedStatus now tradeId statusId r)])
      (trade_new : ∀ q ∈ s.trades, q.id ≠ tradeId)
      (status_new : ∀ q ∈ s.statuses, q.id ≠ statusId)
      (requestable : Requestable s caller r)

namespace Evolves

variable {now : Instant} {caller : Uuid} {s s' : Store} {op : Operation}
variable {p q : TradeRecord × StatusRecord} {status : Status}

/-- Tables left alone. -/
theorem untouched (hop : op.registers = none) (htrades : s'.trades = s.trades)
    (hstatuses : s'.statuses = s.statuses) : Evolves now caller s op s' := by
  refine .moved id id ?_ ?_ fun p _ => .same hop
  · rw [htrades, List.map_id]
  · rw [hstatuses, List.map_id]

/-- One pair moves. -/
theorem withPair (hs : s.Paired) (hq : q ∈ s.pairs) {f : TradeRecord → TradeRecord}
    {g : StatusRecord → StatusRecord} (hop : op.registers = none)
    (hmove : Transition now caller s op q (f q.1, g q.2)) :
    Evolves now caller s op (s.withPair q.1.id f g) := by
  refine .moved _ _ rfl rfl fun p hp => ?_
  rcases hs.eq_or_apart hp hq with rfl | ⟨hid, -, htrade⟩
  · rw [if_pos (decide_eq_true rfl), if_pos (decide_eq_true (hs.belongs p hp).trade)]
    exact hmove
  · rw [if_neg (by simpa using hid), if_neg (by simpa using htrade)]
    exact .same hop

theorem readdressed (hs : s.Paired) (hq : q ∈ s.pairs) (hread : q.2.status = .ok status)
    (hpending : q.2.isPending) {tradeId statusId : Uuid} {r : TradeRequest}
    (hnamed : r.trade = some q.1.id) (hrequester : q.1.requester = caller)
    (hother : r.supplier ≠ caller)
    (hwritten : s.reviseTrade now { q.1.trade with supplier := r.supplier }
      { status with message := r.message, dueDate := r.dueDate } caller = .ok s') :
    Evolves now caller s (.putRequest tradeId statusId r) s' := by
  cases (hs.reviseTrade_eq_ok hq hread hpending ..).symm.trans hwritten
  exact withPair hs hq rfl (.readdressed hnamed hrequester hpending hother)

theorem answered (hs : s.Paired) (hq : q ∈ s.pairs) (hread : q.2.status = .ok status)
    (hpending : q.2.isPending) {trace : Uuid} {progress : Progress} {part : Part}
    (hsupplier : q.1.supplier = caller)
    (houtcome : progress = if s.hasFigures trace || s.hasFigures q.1.requesterPart then .completed
      else .pending)
    (howned : s.part? caller trace = .ok (some part))
    (hwritten : s.answerTrade now q.1.id trace (answeredStatus progress part.terminal status)
      caller = .ok s') :
    Evolves now caller s (.answer q.1.id trace) s' := by
  cases (hs.answerTrade_eq_ok hq hread hpending ..).symm.trans hwritten
  exact withPair hs hq rfl (.answered rfl hsupplier hpending houtcome howned)

/-- A request that comes to an end, by the requester's will or the supplier's. -/
theorem ended (hs : s.Paired) (hq : q ∈ s.pairs) (hpending : q.2.isPending) {progress : Progress}
    {event : Event} {reply : Option String} (hop : op.registers = none)
    (hmove : Transition now caller s op q (q.1, q.2.ended now caller progress reply))
    (hwritten : s.endRequest now caller q.1.id progress event reply = .ok s') :
    Evolves now caller s op s' := by
  cases (hs.endRequest_eq_ok hq hpending ..).symm.trans hwritten
  exact withPair hs hq hop hmove

theorem deleted (hs : s.Paired) (hq : q ∈ s.pairs) (hlive : q.1.isLive)
    (hrequester : q.1.requester = caller) :
    Evolves now caller s (.deleteTrade q.1.id) (s.deleteTrade now q.1.id caller) :=
  withPair hs hq rfl (.deleted rfl hrequester hlive)

/-- Whether an open request was answered with the part. -/
def waitsFor (s : Store) (trace : Uuid) (r : StatusRecord) : Bool :=
  r.isPending && s.trades.any fun t => t.id = r.trade && t.supplierPart = some trace

theorem waitsFor_iff (hs : s.Paired) (hp : p ∈ s.pairs) {trace : Uuid} :
    waitsFor s trace p.2 ↔ p.2.isPending ∧ p.1.supplierPart = some trace := by
  have htrade := (hs.belongs p hp).trade
  simp only [waitsFor, Bool.and_eq_true, List.any_eq_true, decide_eq_true_eq]
  constructor
  · rintro ⟨hpending, t, ht, hid, hpart⟩
    have heq : t = p.1 := eq_of_key_eq hs.trades ht (Store.fst_mem_of_pairs hp) (hid.trans htrade)
    exact ⟨hpending, by rw [← heq]; exact hpart⟩
  · rintro ⟨hpending, hpart⟩
    exact ⟨hpending, p.1, Store.fst_mem_of_pairs hp, htrade.symm, hpart⟩

/-- The statuses of the given trades can be read, and those that are pending are completed. -/
theorem completions_eq_ok {tree : TreeState} {ts : List Trade} {cs : List Status}
    (h : completions s tree ts = .ok cs) :
    (∀ t ∈ ts, ∃ o, s.statusOf? t.id = .ok o) ∧
      ∀ c, c ∈ cs ↔ ∃ t ∈ ts, ∃ status, s.statusOf? t.id = .ok (some status) ∧
        status.progress = .pending ∧ c = completedStatus tree status := by
  induction ts generalizing cs with
  | nil =>
    cases h
    simp
  | cons t ts ih =>
    obtain ⟨o, ho, h⟩ := bind_eq_ok.1 h
    obtain ⟨rest, hrest, h⟩ := bind_eq_ok.1 h
    obtain ⟨hreads, hmem⟩ := ih hrest
    refine ⟨List.forall_mem_cons.2 ⟨⟨o, ho⟩, hreads⟩, ?_⟩
    intro c
    rw [List.exists_mem_cons_iff, ← hmem c, ho]
    cases o with
    | none =>
      cases h
      simp
    | some status =>
      by_cases hpending : status.progress = .pending
      · simp only [hpending, if_true] at h
        cases h
        simp [hpending]
      · simp only [hpending, if_false] at h
        cases h
        simp [hpending]

variable {trace : Uuid} {terminal : Bool} {completed : List Status} {r : StatusRecord}

/-- A completed status goes back to the row that it was read from. -/
theorem origin_of_completions (hs : s.Paired)
    (h : completions s (.ofTerminal terminal) (s.tradesAnsweredWith trace) = .ok completed)
    {c : Status} (hc : c ∈ completed) (hr : r ∈ s.statuses) (hawaits : Store.awaits c.id r) :
    waitsFor s trace r ∧
      ∃ status, r.status = .ok status ∧ c = completedStatus (.ofTerminal terminal) status := by
  obtain ⟨t, ht, status, hstatus, hpending, rfl⟩ := ((completions_eq_ok h).2 c).1 hc
  obtain ⟨row, hrow, hpart, -, rfl⟩ := Store.mem_tradesAnsweredWith.1 ht
  obtain ⟨r', hp⟩ := hs.exists_status hrow
  obtain ⟨hlive, hread⟩ := hs.status_of_statusOf? hp hstatus
  have hid : r'.id = status.id := (StatusRecord.status_eq_ok.1 hread).2.2.2.1.symm
  simp only [Store.awaits, Bool.and_eq_true, decide_eq_true_eq] at hawaits
  have heq : r = r' :=
    eq_of_key_eq hs.statuses hr (Store.snd_mem_of_pairs hp) (hawaits.1.trans hid.symm)
  rw [heq]
  exact ⟨(waitsFor_iff hs hp).2 ⟨StatusRecord.isPending_of_status hread hlive hpending, hpart⟩,
    status, hread, rfl⟩

/-- No waiting request is missed. -/
theorem exists_completion (hs : s.Paired)
    (h : completions s (.ofTerminal terminal) (s.tradesAnsweredWith trace) = .ok completed)
    (hr : r ∈ s.statuses) (hwaits : waitsFor s trace r) :
    ∃ c ∈ completed, Store.awaits c.id r := by
  obtain ⟨hreads, hmem⟩ := completions_eq_ok h
  obtain ⟨t, hp⟩ := hs.exists_trade hr
  have hbelongs := hs.belongs _ hp
  obtain ⟨hpending, hpart⟩ := (waitsFor_iff hs hp).1 hwaits
  obtain ⟨hprogress, hlive⟩ := StatusRecord.isPending_iff.1 hpending
  have ht : t.trade ∈ s.tradesAnsweredWith trace :=
    Store.mem_tradesAnsweredWith.2
      ⟨t, Store.fst_mem_of_pairs hp, hpart, hbelongs.live.symm.trans hlive, rfl⟩
  obtain ⟨o, ho⟩ := hreads _ ht
  cases o with
  | none =>
    have hdead := Store.statusOf?_eq_none ho r hr hbelongs.trade
    rw [hdead] at hlive
    cases hlive
  | some status =>
    obtain ⟨-, hread⟩ := hs.status_of_statusOf? hp ho
    have hread' := StatusRecord.status_eq_ok.1 hread
    have hpending' : status.progress = .pending :=
      literal_injective _ _ (hread'.1.symm.trans hprogress)
    refine ⟨_, (hmem _).2 ⟨_, ht, status, ho, hpending', rfl⟩, ?_⟩
    exact Bool.and_eq_true_iff.2 ⟨decide_eq_true hread'.2.2.2.1.symm, hpending⟩

theorem foldl_completions (hs : s.Paired)
    (h : completions s (.ofTerminal terminal) (s.tradesAnsweredWith trace) = .ok completed) :
    completed.foldl (Store.reviseStatus now none) s.statuses =
      updateWhere (waitsFor s trace) (StatusRecord.completed now terminal) s.statuses := by
  refine foldl_updateWhere_eq (fun r hr => ⟨exists_completion hs h hr, ?_⟩) ?_ ?_
  · rintro ⟨c, hc, hawaits⟩
    exact (origin_of_completions hs h hc hr hawaits).1
  · intro r hr c hc hawaits
    obtain ⟨-, status, hread, rfl⟩ := origin_of_completions hs h hc hr hawaits
    exact StatusRecord.revise_completed hread
  · intro r _ c _ hawaits
    simp [Store.awaits, StatusRecord.isPending, StatusRecord.completed, literal] at hawaits

theorem registered (hs : s.Paired) {part : Part} (hop : op.registers = some trace)
    (howned : s.part? caller trace = .ok (some part))
    (hcompleted : completions s (.ofTerminal part.terminal) (s.tradesAnsweredWith trace) =
      .ok completed)
    (htrades : s'.trades = s.trades)
    (hstatuses : s'.statuses = completed.foldl (Store.reviseStatus now none) s.statuses) :
    Evolves now caller s op s' := by
  rw [foldl_completions hs hcompleted] at hstatuses
  refine .moved id _ (by rw [htrades, List.map_id]) hstatuses ?_
  intro p hp
  by_cases hwaits : waitsFor s trace p.2
  · obtain ⟨hpending, hpart⟩ := (waitsFor_iff hs hp).1 hwaits
    rw [if_pos hwaits]
    exact .completed hop hpart howned hpending
  · rw [if_neg hwaits]
    refine .unchanged fun trace' hregisters hpart => ?_
    cases hop.symm.trans hregisters
    have hnot : ¬ p.2.isPending := fun hpending =>
      hwaits ((waitsFor_iff hs hp).2 ⟨hpending, hpart⟩)
    simpa using hnot

end Evolves

section

variable {limits : TextLimits} {now : Instant} {caller : Uuid} {s s' : Store} {op : Operation}
variable {reply : Reply}

/-- Every accepted operation takes each pair of rows through one transition, also the pairs that its
arguments do not name. -/
theorem evolves_of_accepted (hs : s.Paired) (h : Accepted limits now caller s op reply s') :
    Evolves now caller s op s' := by
  cases h with
  | putAssembly _ _ _ _ _ _ _ hwritten =>
    obtain ⟨htrades, hstatuses, -⟩ := Store.putAssembly_eq_ok hwritten
    exact .untouched rfl htrades hstatuses
  | removeAssembly => exact .untouched rfl rfl rfl
  | @registerFigures id fs first part completed hrules hhead hnew howned _ hcompleted _ =>
    obtain ⟨rest, rfl⟩ := List.head?_eq_some_iff.1 hhead
    have hop : (Operation.putFigures id (first :: rest)).registers = some first.trace := by
      simp [Operation.registers, hnew]
    exact .registered hs hop howned hcompleted rfl rfl
  | @reviseFigures id fs first part setId revised _ _ hhead hold _ _ hwritten =>
    obtain ⟨rest, rfl⟩ := List.head?_eq_some_iff.1 hhead
    obtain ⟨figures, -, rfl⟩ := Store.reviseFigures_eq_ok hwritten
    exact .untouched (by simp [Operation.registers, hold]) rfl rfl
  | certify => exact .untouched rfl rfl rfl
  | openRequest hrules _ _ howned _ hfirst htrades hstatuses =>
    exact .opened rfl rfl rfl htrades hstatuses
      ⟨hfirst, ⟨_, howned⟩, (Rules.request_eq_nil.1 hrules).2.1⟩
  | reviseRequest hrules _ hold htrade hstatus hrequester _ hpending hwritten =>
    obtain ⟨q, hq, rfl, -, hlive', rfl, hread⟩ := hs.pair_of_reading htrade hstatus
    exact .readdressed hs hq hread (StatusRecord.isPending_of_status hread hlive' hpending)
      hold hrequester (Rules.request_eq_nil.1 hrules).2.1 hwritten
  | answer htrade hstatus hsupplier hpending howned houtcome hwritten =>
    obtain ⟨q, hq, rfl, -, hlive', rfl, hread⟩ := hs.pair_of_reading htrade hstatus
    exact .answered hs hq hread (StatusRecord.isPending_of_status hread hlive' hpending)
      hsupplier houtcome howned hwritten
  | cancel _ htrade hstatus hrequester hpending hwritten =>
    obtain ⟨q, hq, rfl, -, hlive', rfl, hread⟩ := hs.pair_of_reading htrade hstatus
    have hopen := StatusRecord.isPending_of_status hread hlive' hpending
    exact .ended hs hq hopen rfl (.cancelled rfl hrequester hopen) hwritten
  | reject _ htrade hstatus hsupplier hpending hwritten =>
    obtain ⟨q, hq, rfl, -, hlive', rfl, hread⟩ := hs.pair_of_reading htrade hstatus
    have hopen := StatusRecord.isPending_of_status hread hlive' hpending
    exact .ended hs hq hopen rfl (.rejected rfl hsupplier hopen) hwritten
  | deleteTrade htrade hrequester =>
    obtain ⟨q, hq, rfl, hlive, rfl⟩ := hs.exists_pair_of_trade? htrade
    exact .deleted hs hq hlive hrequester

theorem Evolves.paired (hs : s.Paired) (h : Evolves now caller s op s') : s'.Paired := by
  cases h with
  | moved f g htrades hstatuses hmoves =>
    exact hs.map htrades hstatuses fun p hp => (hmoves p hp).keeps (hs.belongs p hp)
  | opened _ htrades hstatuses hnew hnew' _ =>
    exact hs.append htrades hstatuses hnew hnew' ⟨rfl, rfl, rfl, rfl⟩

/-- Every pair goes on as a pair. -/
theorem Evolves.next (hs : s.Paired) (h : Evolves now caller s op s')
    {p : TradeRecord × StatusRecord} (hp : p ∈ s.pairs) :
    ∃ p' ∈ s'.pairs, Transition now caller s op p p' := by
  cases h with
  | moved f g htrades hstatuses hmoves =>
    refine ⟨(f p.1, g p.2), ?_, hmoves p hp⟩
    rw [Store.pairs_map htrades hstatuses]
    exact List.mem_map_of_mem hp
  | opened hopens htrades hstatuses =>
    refine ⟨p, ?_, .same (by rw [hopens]; rfl)⟩
    rw [hs.pairs_append htrades hstatuses]
    exact List.mem_append_left _ hp

/-- Every pair was a pair before or is that of a new request. -/
theorem Evolves.prior (hs : s.Paired) (h : Evolves now caller s op s')
    {p' : TradeRecord × StatusRecord} (hp' : p' ∈ s'.pairs) :
    (∃ p ∈ s.pairs, Transition now caller s op p p') ∨
      ∃ tradeId statusId r, (op = .putRequest tradeId statusId r ∧ Requestable s caller r) ∧
        p' = (TradeRecord.ofTrade now caller (requestedTrade tradeId caller r),
          StatusRecord.ofStatus now caller (requestedTrade tradeId caller r)
            (requestedStatus now tradeId statusId r)) := by
  cases h with
  | moved f g htrades hstatuses hmoves =>
    rw [Store.pairs_map htrades hstatuses] at hp'
    obtain ⟨p, hp, rfl⟩ := List.mem_map.1 hp'
    exact Or.inl ⟨p, hp, hmoves p hp⟩
  | opened hopens htrades hstatuses _ _ hrequestable =>
    rw [hs.pairs_append htrades hstatuses] at hp'
    rcases List.mem_append.1 hp' with hp' | hp'
    · exact Or.inl ⟨p', hp', .same (by rw [hopens]; rfl)⟩
    · exact Or.inr ⟨_, _, _, ⟨hopens, hrequestable⟩, List.mem_singleton.1 hp'⟩

/-- In a reachable store trades and statuses stand in pairs. -/
theorem Store.Paired.of_reachable (h : Reachable s) : s.Paired :=
  h.induct Store.paired_empty fun _ _ _ hs haccepted => (evolves_of_accepted hs haccepted).paired hs

end

end Footprint
