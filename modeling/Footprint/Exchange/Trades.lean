import Footprint.Exchange.Plan
import Footprint.Rules.Request
import Footprint.Settings.Basic

namespace Footprint.Exchange

/-- A live trade with its status. -/
def tradeWithStatus (s : Store) (trade : Uuid) : Except Error (Trade × Status) :=
  match s.trade? trade with
  | none => .error (.tradeNotFound trade)
  | some t => do
    match ← s.statusOf? trade with
    | none => .error (.statusNotFound trade)
    | some status => .ok (t, status)

/-- A closed request admits no event. -/
def requireOpen (status : Status) (event : Event) : Except Error Unit :=
  if status.progress.isClosed then
    .error (.closed (Enumerated.literal status.progress) event)
  else .ok ()

/-- The request with a new supplier, message and due date, while it is pending. -/
def reviseRequest (caller trade : Uuid) (r : TradeRequest) : Plan (Trade × Status) := fun s => do
  let (t, status) ← tradeWithStatus s trade
  if t.requester ≠ caller ∨ t.requesterPart ≠ r.requesterPart then
    .error (.tradeNotFound trade)
  else
    requireOpen status .update
    let t := { t with supplier := r.supplier }
    let status := { status with message := r.message, dueDate := r.dueDate }
    .ok (.reviseTrade t status caller, (t, status))

/-- A new request for a part that is not terminal and has no trade yet. -/
def openRequest (now : Instant) (tradeId statusId caller : Uuid) (r : TradeRequest) :
    Plan (Trade × Status) := fun s => do
  let trace := r.requesterPart
  match ← s.part? caller trace with
  | none => .error (.partNotFound trace)
  | some part =>
    if part.terminal then refuseWith (.requestForTerminal trace)
    else if (s.requestFor? trace).isSome then refuseWith (.requestedAlready trace)
    else
      let t : Trade := ⟨tradeId, caller, r.supplier, trace, none⟩
      let status : Status :=
        { id := statusId
          trade := tradeId
          progress := .pending
          tree := .unterminated
          message := r.message
          reply := none
          kind := .footprint
          dueDate := r.dueDate
          completedCount := 0
          tradesCount := 0
          requestedAt := now }
      .ok (.openTrade t status caller, (t, status))

/-- Opens a request, or revises the one that it names. -/
def putRequest (limits : TextLimits) (now : Instant) (tradeId statusId caller : Uuid)
    (r : TradeRequest) : Plan (Trade × Status) := fun s => do
  refuse (Rules.request caller r)
  refuse (Rules.length "message" r.message limits.message)
  match r.trade with
  | some trade => reviseRequest caller trade r s
  | none => openRequest now tradeId statusId caller r s

/-- Answered requests are complete as soon as figures exist on either side. -/
def answerProgress (s : Store) (answered requested : Uuid) : Except Error Progress := do
  let ofAnswer ← s.figuresOf answered
  if ofAnswer.isEmpty then
    let ofRequest ← s.figuresOf requested
    .ok (if ofRequest.isEmpty then .pending else .completed)
  else .ok .completed

def countOf (progress : Progress) : Int :=
  if progress = .completed then 1 else 0

/-- The supplier names the part that answers a pending request. -/
def answer (caller trade trace : Uuid) : Plan Status := fun s => do
  let (t, status) ← tradeWithStatus s trade
  if t.supplier ≠ caller then .error (.tradeNotFound trade)
  else
    requireOpen status .answer
    match ← s.part? caller trace with
    | none => .error (.partNotFound trace)
    | some part =>
      let progress ← answerProgress s trace t.requesterPart
      let status :=
        { status with
          progress := progress
          tree := .ofTerminal part.terminal
          completedCount := countOf progress
          tradesCount := countOf progress }
      .ok (.answerTrade trade trace status caller, status)

/-- The requester withdraws a pending request. -/
def cancel (limits : TextLimits) (caller trade : Uuid) (reply : Option String) : Plan Unit :=
  fun s => do
    refuse (Rules.length "replyMessage" reply limits.reply)
    let (t, status) ← tradeWithStatus s trade
    if t.requester ≠ caller then .error (.tradeNotFound trade)
    else
      requireOpen status .cancel
      .ok (.cancelTrade trade reply caller, ())

/-- The supplier refuses a pending request. -/
def reject (limits : TextLimits) (caller trade : Uuid) (reply : Option String) : Plan Unit :=
  fun s => do
    refuse (Rules.length "replyMessage" reply limits.reply)
    let (t, status) ← tradeWithStatus s trade
    if t.supplier ≠ caller then .error (.tradeNotFound trade)
    else
      requireOpen status .reject
      .ok (.rejectTrade trade reply caller, ())

/-- The requester deletes a trade in any state. -/
def deleteTrade (caller trade : Uuid) : Plan Unit := fun s =>
  match s.trade? trade with
  | some t =>
    if t.requester = caller then .ok (.deleteTrade trade caller, ())
    else .error (.tradeNotFound trade)
  | none => .error (.tradeNotFound trade)

/-- A live trade that the caller takes part in. -/
def trade? (s : Store) (caller trade : Uuid) : Option Trade :=
  (s.trade? trade).filter fun t => t.requester = caller || t.supplier = caller

end Footprint.Exchange
