import Footprint.Exchange.Assemblies
import Footprint.Exchange.Figures
import Footprint.Exchange.Trades

namespace Footprint.Exchange

/-- An operation with its arguments. The identifiers it may give away are arguments too. -/
inductive Operation where
  | putAssembly (ids : List Uuid) (draft : AssemblyDraft)
  | removeAssembly (parent : Uuid)
  | putFigures (id : Uuid) (fs : List Figure)
  | certify (trace : Uuid) (certificates : List String)
  | putRequest (tradeId statusId : Uuid) (r : TradeRequest)
  | answer (trade trace : Uuid)
  | cancel (trade : Uuid) (reply : Option String)
  | reject (trade : Uuid) (reply : Option String)
  | deleteTrade (trade : Uuid)
deriving DecidableEq

/-- What a successful operation returns. -/
inductive Reply where
  | done
  | assembly (a : Assembly)
  | setId (id : Uuid)
  | trade (t : Trade) (s : Status)
  | status (s : Status)
deriving DecidableEq

namespace Operation

def withReply (f : α → Reply) (plan : Plan α) : Plan Reply := fun s =>
  (plan s).map fun (write, result) => (write, f result)

/-- What the operation of a caller plans at a time. -/
def plan (limits : TextLimits) (now : Instant) (caller : Uuid) : Operation → Plan Reply
  | putAssembly ids draft => withReply .assembly (Exchange.putAssembly ids caller draft)
  | removeAssembly parent => withReply (fun _ => .done) (Exchange.removeAssembly caller parent)
  | putFigures id fs => withReply .setId (Exchange.putFigures id caller fs)
  | certify trace certificates =>
    withReply (fun _ => .done) (Exchange.certify caller trace certificates)
  | putRequest tradeId statusId r =>
    withReply (fun (t, s) => .trade t s) (Exchange.putRequest limits now tradeId statusId caller r)
  | answer trade trace => withReply .status (Exchange.answer caller trade trace)
  | cancel trade reply => withReply (fun _ => .done) (Exchange.cancel limits caller trade reply)
  | reject trade reply => withReply (fun _ => .done) (Exchange.reject limits caller trade reply)
  | deleteTrade trade => withReply (fun _ => .done) (Exchange.deleteTrade caller trade)

/-- The reply and the store after the operation. A refusal yields no store and so changes
nothing. -/
def run (limits : TextLimits) (now : Instant) (caller : Uuid) (op : Operation) (s : Store) :
    Except Error (Reply × Store) :=
  (op.plan limits now caller).run now s

end Operation

end Footprint.Exchange
