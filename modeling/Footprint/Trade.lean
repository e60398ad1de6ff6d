import Footprint.Enumerated
import Footprint.Instant
import Footprint.Uuid

namespace Footprint

/-- How far the answer to a request has come. -/
inductive Progress where
  | pending
  | completed
  | rejected
  | cancelled
deriving DecidableEq, Repr, Inhabited

/-- Whether the supplier's part depends on suppliers of its own. -/
inductive TreeState where
  | unterminated
  | terminated
deriving DecidableEq, Repr, Inhabited

/-- What is requested. -/
inductive RequestKind where
  | footprint
deriving DecidableEq, Repr, Inhabited

/-- The side of a trade an operator is on: it issued the request or has to answer it. -/
inductive Side where
  | request
  | response
deriving DecidableEq, Repr, Inhabited

instance : Enumerated Progress where
  typeName := "CfpResponseStatus"
  all := [.pending, .completed, .rejected, .cancelled]
  literal
    | .pending => "PENDING"
    | .completed => "COMPLETED"
    | .rejected => "REJECT"
    | .cancelled => "CANCEL"
  mem_all a := by cases a <;> decide
  literal_injective a b := by cases a <;> cases b <;> decide

instance : Enumerated TreeState where
  typeName := "TradeTreeStatus"
  all := [.unterminated, .terminated]
  literal
    | .unterminated => "UNTERMINATED"
    | .terminated => "TERMINATED"
  mem_all a := by cases a <;> decide
  literal_injective a b := by cases a <;> cases b <;> decide

instance : Enumerated RequestKind where
  typeName := "RequestType"
  all := [.footprint]
  literal
    | .footprint => "CFP"
  mem_all a := by cases a; decide
  literal_injective a b := by cases a; cases b; decide

instance : Enumerated Side where
  typeName := "StatusTarget"
  all := [.request, .response]
  literal
    | .request => "REQUEST"
    | .response => "RESPONSE"
  mem_all a := by cases a <;> decide
  literal_injective a b := by cases a <;> cases b <;> decide

/-- Whether the request accepts no further event. -/
def Progress.isClosed : Progress → Bool
  | .pending => false
  | _ => true

/-- The tree state that a supplier's part gives a request answered with it. -/
def TreeState.ofTerminal (terminal : Bool) : TreeState :=
  if terminal then .terminated else .unterminated

/-- A trade as it is kept; the supplier's part is absent until the supplier names it. -/
@[ext] structure Trade where
  id : Uuid
  requester : Uuid
  supplier : Uuid
  requesterPart : Uuid
  supplierPart : Option Uuid
deriving DecidableEq

/-- A request as submitted: a new one, or changes to the trade it names. -/
@[ext] structure TradeRequest where
  trade : Option Uuid
  requester : Uuid
  supplier : Uuid
  requesterPart : Uuid
  message : Option String
  dueDate : String
deriving DecidableEq

/-- The status of one trade. -/
@[ext] structure Status where
  id : Uuid
  trade : Uuid
  progress : Progress
  tree : TreeState
  message : Option String
  /-- What was said on cancelling or rejecting. -/
  reply : Option String
  kind : RequestKind
  dueDate : String
  completedCount : Int
  tradesCount : Int
  requestedAt : Instant
deriving DecidableEq

/-- The changes that a request can undergo. -/
inductive Event where
  | update
  | answer
  | cancel
  | reject
deriving DecidableEq, Repr

def Event.name : Event → String
  | .update => "update"
  | .answer => "answer"
  | .cancel => "cancel"
  | .reject => "reject"

end Footprint
