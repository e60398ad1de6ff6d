import Footprint.Exchange.Operation
import Footprint.Proofs.Rules.Figures
import Footprint.Proofs.Store.Update

namespace Footprint.Exchange

open Table Enumerated

/-- The part for which an operation registers a new set of figures. -/
def Operation.registers : Operation → Option Uuid
  | .putFigures _ (first :: _) => if first.setId = none then some first.trace else none
  | _ => none

/-- The trade and the status of a new request. -/
def requestedTrade (tradeId caller : Uuid) (r : TradeRequest) : Trade :=
  ⟨tradeId, caller, r.supplier, r.requesterPart, none⟩

def requestedStatus (now : Instant) (tradeId statusId : Uuid) (r : TradeRequest) : Status where
  id := statusId
  trade := tradeId
  progress := .pending
  tree := .unterminated
  message := r.message
  reply := none
  kind := .footprint
  dueDate := r.dueDate
  completedCount := 0
  tradesCount := 0
  requestedAt := now

/-- The status that an answer gives a request. -/
def answeredStatus (progress : Progress) (terminal : Bool) (status : Status) : Status :=
  { status with
    progress := progress
    tree := if terminal then .terminated else .unterminated
    completedCount := if progress = .completed then 1 else 0
    tradesCount := if progress = .completed then 1 else 0 }

theorem answeredStatus_eq (progress : Progress) (terminal : Bool) (status : Status) :
    { status with
      progress := progress
      tree := .ofTerminal terminal
      completedCount := countOf progress
      tradesCount := countOf progress } = answeredStatus progress terminal status := rfl

/-- What an operation found and what it made of the store, one case for each way to succeed. -/
inductive Accepted (limits : TextLimits) (now : Instant) (caller : Uuid) (s : Store) :
    Operation → Reply → Store → Prop
  | putAssembly {ids draft d trace traces parent children existing s'}
      (rules : Rules.assembly caller draft = [])
      (draft_parent : draft.parent = some d)
      (assigned : assignTraces ids ((d :: draft.children).map (·.trace)) = trace :: traces)
      (parent_part : partOfDraft s caller trace .parent d trace = .ok parent)
      (children_parts : partsOfDrafts s caller trace 0 draft.children traces = .ok children)
      (present : s.assembly? caller trace = .ok existing)
      (untraded : ∀ x ∈ droppedTraces existing children, isTraded s x = false)
      (written : s.putAssembly now ⟨maskAmount parent, children⟩
        (droppedTraces existing children) = .ok s') :
      Accepted limits now caller s (.putAssembly ids draft)
        (.assembly ⟨maskAmount parent, children⟩) s'
  | removeAssembly {parent a}
      (present : s.assembly? caller parent = .ok (some a))
      (untraded : ∀ x ∈ a.traces, isTraded s x = false) :
      Accepted limits now caller s (.removeAssembly parent) .done (s.removeAssembly now a)
  | registerFigures {id fs first part completed}
      (rules : Rules.figures fs = [])
      (head : fs.head? = some first)
      (new : first.setId = none)
      (owned : s.part? caller first.trace = .ok (some part))
      (blank : s.hasFigures first.trace = false)
      (waiting : completions s (.ofTerminal part.terminal) (s.tradesAnsweredWith first.trace) =
        .ok completed)
      (unique : insertAll FigureRecord.clash s.figures
        (fs.map (FigureRecord.ofFigure now id)) =
          some (s.figures ++ fs.map (FigureRecord.ofFigure now id))) :
      Accepted limits now caller s (.putFigures id fs) (.setId id)
        { s with
          figures := s.figures ++ fs.map (FigureRecord.ofFigure now id)
          statuses := completed.foldl (Store.reviseStatus now none) s.statuses }
  | reviseFigures {id fs first part setId revised s'}
      (rules : Rules.figures fs = [])
      (head : fs.head? = some first)
      (old : first.setId = some setId)
      (owned : s.part? caller first.trace = .ok (some part))
      (found : fs.mapM (revisedFigure s setId) = .ok revised)
      (written : s.reviseFigures now revised = .ok s') :
      Accepted limits now caller s (.putFigures id fs) (.setId setId) s'
  | certify {trace certificates part}
      (owned : s.part? caller trace = .ok (some part))
      (visible : certificates.any Text.isBlankText = false)
      (present : s.hasFigures trace) :
      Accepted limits now caller s (.certify trace certificates) .done
        (s.certify now trace certificates)
  | openRequest {tradeId statusId r part}
      (rules : Rules.request caller r = [])
      (length : Rules.length "message" r.message limits.message = [])
      (new : r.trade = none)
      (owned : s.part? caller r.requesterPart = .ok (some part))
      (imported : part.terminal = false)
      (first : s.requestFor? r.requesterPart = none)
      (trade_new : ∀ q ∈ s.trades, q.id ≠ tradeId)
      (status_new : ∀ q ∈ s.statuses, q.id ≠ statusId) :
      Accepted limits now caller s (.putRequest tradeId statusId r)
        (.trade (requestedTrade tradeId caller r) (requestedStatus now tradeId statusId r))
        { s with
          trades := s.trades ++ [TradeRecord.ofTrade now caller (requestedTrade tradeId caller r)]
          statuses := s.statuses ++
            [StatusRecord.ofStatus now caller (requestedTrade tradeId caller r)
              (requestedStatus now tradeId statusId r)] }
  | reviseRequest {tradeId statusId trade r t status s'}
      (rules : Rules.request caller r = [])
      (length : Rules.length "message" r.message limits.message = [])
      (old : r.trade = some trade)
      (trade_read : s.trade? trade = some t)
      (status_read : s.statusOf? trade = .ok (some status))
      (requester : t.requester = caller)
      (part : t.requesterPart = r.requesterPart)
      (pending : status.progress = .pending)
      (written : s.reviseTrade now { t with supplier := r.supplier }
        { status with message := r.message, dueDate := r.dueDate } caller = .ok s') :
      Accepted limits now caller s (.putRequest tradeId statusId r)
        (.trade { t with supplier := r.supplier }
          { status with message := r.message, dueDate := r.dueDate }) s'
  | answer {trade trace t status part progress s'}
      (trade_read : s.trade? trade = some t)
      (status_read : s.statusOf? trade = .ok (some status))
      (supplier : t.supplier = caller)
      (pending : status.progress = .pending)
      (owned : s.part? caller trace = .ok (some part))
      (outcome : progress =
        if s.hasFigures trace || s.hasFigures t.requesterPart then .completed else .pending)
      (written : s.answerTrade now trade trace (answeredStatus progress part.terminal status)
        caller = .ok s') :
      Accepted limits now caller s (.answer trade trace)
        (.status (answeredStatus progress part.terminal status)) s'
  | cancel {trade reply t status s'}
      (length : Rules.length "replyMessage" reply limits.reply = [])
      (trade_read : s.trade? trade = some t)
      (status_read : s.statusOf? trade = .ok (some status))
      (requester : t.requester = caller)
      (pending : status.progress = .pending)
      (written : s.endRequest now caller trade .cancelled .cancel reply = .ok s') :
      Accepted limits now caller s (.cancel trade reply) .done s'
  | reject {trade reply t status s'}
      (length : Rules.length "replyMessage" reply limits.reply = [])
      (trade_read : s.trade? trade = some t)
      (status_read : s.statusOf? trade = .ok (some status))
      (supplier : t.supplier = caller)
      (pending : status.progress = .pending)
      (written : s.endRequest now caller trade .rejected .reject reply = .ok s') :
      Accepted limits now caller s (.reject trade reply) .done s'
  | deleteTrade {trade t}
      (trade_read : s.trade? trade = some t)
      (requester : t.requester = caller) :
      Accepted limits now caller s (.deleteTrade trade) .done (s.deleteTrade now trade caller)

variable {limits : TextLimits} {now : Instant} {caller : Uuid} {s s' : Store}

theorem Operation.run_eq_ok {op : Operation} {reply : Reply} :
    op.run limits now caller s = .ok (reply, s') ↔
      ∃ write, op.plan limits now caller s = .ok (write, reply) ∧ s.apply now write = .ok s' := by
  rw [run, Plan.run, bind_eq_ok]
  constructor
  · rintro ⟨⟨write, result⟩, hplan, h⟩
    obtain ⟨s'', happly, h⟩ := bind_eq_ok.1 h
    cases h
    exact ⟨write, hplan, happly⟩
  · rintro ⟨write, hplan, happly⟩
    exact ⟨(write, reply), hplan, bind_eq_ok.2 ⟨s', happly, rfl⟩⟩

theorem Operation.withReply_eq_ok {α : Type} {f : α → Reply} {plan : Plan α} {write : Write}
    {reply : Reply} :
    withReply f plan s = .ok (write, reply) ↔ ∃ a, plan s = .ok (write, a) ∧ f a = reply := by
  rw [withReply, exceptMap_eq_ok]
  constructor
  · rintro ⟨⟨w, a⟩, hplan, h⟩
    cases h
    exact ⟨a, hplan, rfl⟩
  · rintro ⟨a, hplan, rfl⟩
    exact ⟨(write, a), hplan, rfl⟩

theorem tradeWithStatus_eq_ok {trade : Uuid} {t : Trade} {status : Status} :
    tradeWithStatus s trade = .ok (t, status) ↔
      s.trade? trade = some t ∧ s.statusOf? trade = .ok (some status) := by
  rw [tradeWithStatus]
  cases s.trade? trade with
  | none => simp
  | some t' =>
    rw [bind_eq_ok]
    constructor
    · rintro ⟨status', hstatus, h⟩
      cases status' with
      | none => cases h
      | some status' =>
        cases h
        exact ⟨rfl, hstatus⟩
    · rintro ⟨h, hstatus⟩
      cases h
      exact ⟨some status, hstatus, rfl⟩

theorem requireOpen_eq_ok {status : Status} {event : Event} :
    requireOpen status event = .ok () ↔ status.progress = .pending := by
  rw [requireOpen]
  cases status.progress <;> simp [Progress.isClosed]

/-- An event of a live trade takes place when the caller may cause it and the request is open. -/
theorem onOpenTrade_eq_ok {α : Type} {trade : Uuid} {event : Event} {refused : Trade → Prop}
    {_ : DecidablePred refused} {f : Trade × Status → Except Error α}
    {next : Trade → Status → Except Error α} {a : α} (h : (tradeWithStatus s trade >>= f) = .ok a)
    (hf : ∀ t status, f (t, status) =
      if refused t then .error (.tradeNotFound trade)
      else requireOpen status event >>= fun _ => next t status) :
    ∃ t status, s.trade? trade = some t ∧ s.statusOf? trade = .ok (some status) ∧ ¬ refused t ∧
      status.progress = .pending ∧ next t status = .ok a := by
  obtain ⟨⟨t, status⟩, hread, h⟩ := bind_eq_ok.1 h
  obtain ⟨htrade, hstatus⟩ := tradeWithStatus_eq_ok.1 hread
  rw [hf] at h
  split at h
  · cases h
  · rename_i hallowed
    obtain ⟨⟨⟩, hopen, h⟩ := bind_eq_ok.1 h
    exact ⟨t, status, htrade, hstatus, hallowed, requireOpen_eq_ok.1 hopen, h⟩

theorem answerProgress_eq_ok {answered requested : Uuid} {progress : Progress}
    (h : answerProgress s answered requested = .ok progress) :
    progress =
      if s.hasFigures answered || s.hasFigures requested then .completed else .pending := by
  obtain ⟨ofAnswer, hanswer, h⟩ := bind_eq_ok.1 h
  rw [Store.isEmpty_of_figuresOf hanswer] at h
  by_cases hown : s.hasFigures answered
  · simp only [hown, Bool.not_true, Bool.false_eq_true, if_false] at h
    simpa [hown] using h.symm
  · simp only [hown, Bool.not_false, if_true] at h
    obtain ⟨ofRequest, hrequest, h⟩ := bind_eq_ok.1 h
    rw [Store.isEmpty_of_figuresOf hrequest] at h
    cases hother : s.hasFigures requested <;> simpa [hown, hother] using h.symm

theorem requireUntraded_eq_ok {trace : Uuid} :
    requireUntraded s trace = .ok () ↔ isTraded s trace = false := by
  rw [requireUntraded]
  cases isTraded s trace <;> simp

/-- What the plan for an assembly has checked, the part that it goes to and its children included. -/
theorem putAssembly_eq_ok {ids : List Uuid} {draft : AssemblyDraft} {write : Write} {a : Assembly}
    (h : putAssembly ids caller draft s = .ok (write, a)) (happly : s.apply now write = .ok s') :
    Accepted limits now caller s (.putAssembly ids draft) (.assembly a) s' := by
  obtain ⟨⟨⟩, hrules, h⟩ := bind_eq_ok.1 h
  split at h
  · exact absurd h refuseWith_ne_ok
  rename_i d hparent
  split at h
  · cases h
  rename_i trace traces hassigned
  obtain ⟨parent, hpart, h⟩ := bind_eq_ok.1 h
  obtain ⟨children, hchildren, h⟩ := bind_eq_ok.1 h
  obtain ⟨existing, hexisting, h⟩ := bind_eq_ok.1 h
  obtain ⟨⟨⟩, huntraded, h⟩ := bind_eq_ok.1 h
  cases h
  refine .putAssembly (refuse_eq_ok_iff.1 hrules) hparent hassigned hpart hchildren hexisting ?_
    happly
  intro x hx
  exact requireUntraded_eq_ok.1 (forM_eq_ok_iff.1 huntraded x hx)

theorem removeAssembly_eq_ok {parent : Uuid} {write : Write}
    (h : removeAssembly caller parent s = .ok (write, ())) (happly : s.apply now write = .ok s') :
    Accepted limits now caller s (.removeAssembly parent) .done s' := by
  obtain ⟨a, ha, h⟩ := bind_eq_ok.1 h
  cases a with
  | none => cases h
  | some a =>
    obtain ⟨⟨⟩, huntraded, h⟩ := bind_eq_ok.1 h
    cases h
    cases happly
    exact .removeAssembly ha fun x hx =>
      requireUntraded_eq_ok.1 (forM_eq_ok_iff.1 huntraded x hx)

theorem putFigures_eq_ok {id setId : Uuid} {fs : List Figure} {write : Write}
    (h : putFigures id caller fs s = .ok (write, setId)) (happly : s.apply now write = .ok s') :
    Accepted limits now caller s (.putFigures id fs) (.setId setId) s' := by
  obtain ⟨⟨⟩, hrules, h⟩ := bind_eq_ok.1 h
  have hrules := refuse_eq_ok_iff.1 hrules
  cases fs with
  | nil => exact absurd h refuseWith_ne_ok
  | cons first rest =>
    obtain ⟨part, hpart, h⟩ := bind_eq_ok.1 h
    cases part with
    | none => cases h
    | some part =>
      cases hset : first.setId with
      | some stored =>
        simp only [hset] at h
        obtain ⟨revised, hrevised, h⟩ := bind_eq_ok.1 h
        cases h
        exact .reviseFigures hrules rfl hset hpart hrevised happly
      | none =>
        simp only [hset] at h
        obtain ⟨stored, hstored, h⟩ := bind_eq_ok.1 h
        rw [Store.isEmpty_of_figuresOf hstored] at h
        cases hblank : s.hasFigures first.trace with
        | true => simp [hblank] at h
        | false =>
          simp only [hblank, Bool.not_false, if_true] at h
          obtain ⟨completed, hcompleted, h⟩ := bind_eq_ok.1 h
          cases h
          obtain ⟨hunique, rfl⟩ := (Store.addFigures_eq_ok (by simp)).1 happly
          exact .registerFigures hrules rfl hset hpart hblank hcompleted hunique

theorem certify_eq_ok {trace : Uuid} {certificates : List String} {write : Write}
    (h : certify caller trace certificates s = .ok (write, ()))
    (happly : s.apply now write = .ok s') :
    Accepted limits now caller s (.certify trace certificates) .done s' := by
  obtain ⟨part, hpart, h⟩ := bind_eq_ok.1 h
  cases part with
  | none => cases h
  | some part =>
    cases hvisible : certificates.any Text.isBlankText with
    | true => exact absurd h (by simp [hvisible, refuseWith])
    | false =>
      simp only [hvisible, Bool.false_eq_true, if_false] at h
      obtain ⟨stored, hstored, h⟩ := bind_eq_ok.1 h
      rw [Store.isEmpty_of_figuresOf hstored] at h
      cases hpresent : s.hasFigures trace with
      | false => exact absurd h (by simp [hpresent, refuseWith])
      | true =>
        simp only [hpresent, Bool.not_true, Bool.false_eq_true, if_false] at h
        cases h
        cases happly
        exact .certify hpart hvisible hpresent

theorem openRequest_eq_ok {tradeId statusId : Uuid} {r : TradeRequest} {write : Write} {t : Trade}
    {status : Status} (hrules : Rules.request caller r = [])
    (hlength : Rules.length "message" r.message limits.message = []) (hnew : r.trade = none)
    (h : openRequest now tradeId statusId caller r s = .ok (write, (t, status)))
    (happly : s.apply now write = .ok s') :
    Accepted limits now caller s (.putRequest tradeId statusId r) (.trade t status) s' := by
  obtain ⟨part, hpart, h⟩ := bind_eq_ok.1 h
  cases part with
  | none => cases h
  | some part =>
    cases hterminal : part.terminal with
    | true => exact absurd h (by simp [hterminal, refuseWith])
    | false =>
      cases hrequest : s.requestFor? r.requesterPart with
      | some t => exact absurd h (by simp [hterminal, hrequest, refuseWith])
      | none =>
        simp only [hterminal, hrequest, Bool.false_eq_true, if_false, Option.isSome_none] at h
        cases h
        obtain ⟨htrades, hstatuses, rfl⟩ := (Store.openTrade_eq_ok rfl).1 happly
        exact .openRequest hrules hlength hnew hpart hterminal hrequest htrades hstatuses

theorem reviseRequest_eq_ok {tradeId statusId trade : Uuid} {r : TradeRequest} {write : Write}
    {t : Trade} {status : Status} (hrules : Rules.request caller r = [])
    (hlength : Rules.length "message" r.message limits.message = []) (hold : r.trade = some trade)
    (h : reviseRequest caller trade r s = .ok (write, (t, status)))
    (happly : s.apply now write = .ok s') :
    Accepted limits now caller s (.putRequest tradeId statusId r) (.trade t status) s' := by
  obtain ⟨t, status, htrade, hstatus, hallowed, hpending, h⟩ :=
    onOpenTrade_eq_ok h fun _ _ => rfl
  rw [not_or, not_not, not_not] at hallowed
  cases h
  exact .reviseRequest hrules hlength hold htrade hstatus hallowed.1 hallowed.2 hpending happly

theorem putRequest_eq_ok {tradeId statusId : Uuid} {r : TradeRequest} {write : Write} {t : Trade}
    {status : Status}
    (h : putRequest limits now tradeId statusId caller r s = .ok (write, (t, status)))
    (happly : s.apply now write = .ok s') :
    Accepted limits now caller s (.putRequest tradeId statusId r) (.trade t status) s' := by
  obtain ⟨⟨⟩, hrules, h⟩ := bind_eq_ok.1 h
  obtain ⟨⟨⟩, hlength, h⟩ := bind_eq_ok.1 h
  have hrules := refuse_eq_ok_iff.1 hrules
  have hlength := refuse_eq_ok_iff.1 hlength
  cases htrade : r.trade with
  | none =>
    rw [htrade] at h
    exact openRequest_eq_ok hrules hlength htrade h happly
  | some trade =>
    rw [htrade] at h
    exact reviseRequest_eq_ok hrules hlength htrade h happly

theorem answer_eq_ok {trade trace : Uuid} {write : Write} {status : Status}
    (h : answer caller trade trace s = .ok (write, status)) (happly : s.apply now write = .ok s') :
    Accepted limits now caller s (.answer trade trace) (.status status) s' := by
  obtain ⟨t, old, htrade, hstatus, hallowed, hpending, h⟩ :=
    onOpenTrade_eq_ok h fun _ _ => rfl
  obtain ⟨part, hpart, h⟩ := bind_eq_ok.1 h
  cases part with
  | none => cases h
  | some part =>
    obtain ⟨progress, hprogress, h⟩ := bind_eq_ok.1 h
    cases h
    exact .answer htrade hstatus (not_not.1 hallowed) hpending hpart
      (answerProgress_eq_ok hprogress) happly

theorem cancel_eq_ok {trade : Uuid} {reply : Option String} {write : Write}
    (h : cancel limits caller trade reply s = .ok (write, ()))
    (happly : s.apply now write = .ok s') :
    Accepted limits now caller s (.cancel trade reply) .done s' := by
  obtain ⟨⟨⟩, hlength, h⟩ := bind_eq_ok.1 h
  obtain ⟨t, status, htrade, hstatus, hallowed, hpending, h⟩ :=
    onOpenTrade_eq_ok h fun _ _ => rfl
  cases h
  exact .cancel (refuse_eq_ok_iff.1 hlength) htrade hstatus (not_not.1 hallowed) hpending happly

theorem reject_eq_ok {trade : Uuid} {reply : Option String} {write : Write}
    (h : reject limits caller trade reply s = .ok (write, ()))
    (happly : s.apply now write = .ok s') :
    Accepted limits now caller s (.reject trade reply) .done s' := by
  obtain ⟨⟨⟩, hlength, h⟩ := bind_eq_ok.1 h
  obtain ⟨t, status, htrade, hstatus, hallowed, hpending, h⟩ :=
    onOpenTrade_eq_ok h fun _ _ => rfl
  cases h
  exact .reject (refuse_eq_ok_iff.1 hlength) htrade hstatus (not_not.1 hallowed) hpending happly

theorem deleteTrade_eq_ok {trade : Uuid} {write : Write}
    (h : deleteTrade caller trade s = .ok (write, ())) (happly : s.apply now write = .ok s') :
    Accepted limits now caller s (.deleteTrade trade) .done s' := by
  rw [deleteTrade] at h
  split at h
  · rename_i t htrade
    split at h
    · rename_i hrequester
      cases h
      cases happly
      exact .deleteTrade htrade hrequester
    · cases h
  · cases h

/-- Every run that succeeds is one of the cases. -/
theorem accepted_of_run {op : Operation} {reply : Reply}
    (h : op.run limits now caller s = .ok (reply, s')) :
    Accepted limits now caller s op reply s' := by
  obtain ⟨write, hplan, happly⟩ := Operation.run_eq_ok.1 h
  cases op with
  | putAssembly ids draft =>
    rw [Operation.plan] at hplan
    obtain ⟨a, hplanned, rfl⟩ := Operation.withReply_eq_ok.1 hplan
    exact putAssembly_eq_ok hplanned happly
  | removeAssembly parent =>
    rw [Operation.plan] at hplan
    obtain ⟨⟨⟩, hplanned, rfl⟩ := Operation.withReply_eq_ok.1 hplan
    exact removeAssembly_eq_ok hplanned happly
  | putFigures id fs =>
    rw [Operation.plan] at hplan
    obtain ⟨setId, hplanned, rfl⟩ := Operation.withReply_eq_ok.1 hplan
    exact putFigures_eq_ok hplanned happly
  | certify trace certificates =>
    rw [Operation.plan] at hplan
    obtain ⟨⟨⟩, hplanned, rfl⟩ := Operation.withReply_eq_ok.1 hplan
    exact certify_eq_ok hplanned happly
  | putRequest tradeId statusId r =>
    rw [Operation.plan] at hplan
    obtain ⟨⟨t, status⟩, hplanned, rfl⟩ := Operation.withReply_eq_ok.1 hplan
    exact putRequest_eq_ok hplanned happly
  | answer trade trace =>
    rw [Operation.plan] at hplan
    obtain ⟨status, hplanned, rfl⟩ := Operation.withReply_eq_ok.1 hplan
    exact answer_eq_ok hplanned happly
  | cancel trade reply =>
    rw [Operation.plan] at hplan
    obtain ⟨⟨⟩, hplanned, rfl⟩ := Operation.withReply_eq_ok.1 hplan
    exact cancel_eq_ok hplanned happly
  | reject trade reply =>
    rw [Operation.plan] at hplan
    obtain ⟨⟨⟩, hplanned, rfl⟩ := Operation.withReply_eq_ok.1 hplan
    exact reject_eq_ok hplanned happly
  | deleteTrade trade =>
    rw [Operation.plan] at hplan
    obtain ⟨⟨⟩, hplanned, rfl⟩ := Operation.withReply_eq_ok.1 hplan
    exact deleteTrade_eq_ok hplanned happly

end Footprint.Exchange
