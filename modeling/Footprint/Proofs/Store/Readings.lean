import Footprint.Exchange.Derivation
import Footprint.Exchange.Listing
import Footprint.Exchange.Operation

namespace Footprint

open Exchange

/-- All that is read of the one store, for whatever arguments, is read of the other. -/
structure SameReadings (s s' : Store) : Prop where
  part : s'.part? = s.part?
  assembly : s'.assembly? = s.assembly?
  figures : s'.figuresOf = s.figuresOf
  figure : s'.figure? = s.figure?
  trade : s'.trade? = s.trade?
  request : s'.requestFor? = s.requestFor?
  answered : s'.tradesAnsweredWith = s.tradesAnsweredWith
  status : s'.statusOf? = s.statusOf?
  page : s'.page = s.page
  count : s'.statusCount = s.statusCount
  tradeOf : Exchange.trade? s' = Exchange.trade? s
  listing : listStatuses s' = listStatuses s
  totals : figuresFor s' = figuresFor s
  plan : ∀ limits now caller op, Operation.plan limits now caller op s' =
    Operation.plan limits now caller op s

/-- The lookups from which all else is read. -/
structure SameLookups (s s' : Store) : Prop where
  part : s'.part? = s.part?
  placement : s'.placement? = s.placement?
  assembly : s'.assembly? = s.assembly?
  figures : s'.figures = s.figures
  trade : s'.trade? = s.trade?
  request : s'.requestFor? = s.requestFor?
  answered : s'.tradesAnsweredWith = s.tradesAnsweredWith
  status : s'.statusOf? = s.statusOf?
  side : s'.sideStatuses = s.sideStatuses

namespace SameLookups

variable {s s' : Store} (h : SameLookups s s')

include h

theorem isParent : s'.isParent = s.isParent := by
  funext trace
  simp only [Store.isParent, h.placement]

theorem figuresOf : s'.figuresOf = s.figuresOf := by
  funext trace
  simp only [Store.figuresOf, h.figures]

theorem figure : s'.figure? = s.figure? := by
  funext setId kind
  simp only [Store.figure?, h.figures]

theorem page : s'.page = s.page := by
  funext q
  simp only [Store.page, h.side]

theorem count : s'.statusCount = s.statusCount := by
  funext operator side
  simp only [Store.statusCount, h.side]

theorem joinPages : joinPages s' = joinPages s := by
  funext operator side size fuel
  induction fuel with
  | zero => rfl
  | succ fuel ih =>
    funext after
    simp only [Exchange.joinPages, h.page, ih]

theorem listStatuses : listStatuses s' = listStatuses s := by
  funext limits operator r
  simp only [Exchange.listStatuses, merged, sideInPages, h.joinPages, h.page, h.count]

theorem tradeOf : Exchange.trade? s' = Exchange.trade? s := by
  funext caller trade
  simp only [Exchange.trade?, h.trade]

theorem storedSet : storedSet s' = storedSet s := by
  funext trace
  simp only [Exchange.storedSet, h.figuresOf]

theorem contribution : contribution s' = contribution s := by
  funext child
  simp only [Exchange.contribution, suppliedSet, h.storedSet, h.request]

theorem classOf : classOf s' = classOf s := by
  funext p
  simp only [Exchange.classOf, h.isParent, h.assembly]

theorem addChild : addChild s' = addChild s := by
  funext trace unit c child
  simp only [Exchange.addChild, h.contribution]

theorem partFigures? : partFigures? s' = partFigures? s := by
  funext p
  simp only [Exchange.partFigures?, h.classOf, h.storedSet, h.addChild, h.request]

theorem figuresFor : figuresFor s' = figuresFor s := by
  have hvector : vector s' = vector s := by
    funext operator trace
    simp only [vector, h.partFigures?, h.part]
  funext operator traces
  rw [Exchange.figuresFor, hvector, Exchange.figuresFor]

theorem requireUntraded : requireUntraded s' = requireUntraded s := by
  funext trace
  have htraded : isTraded s' trace = isTraded s trace := by
    simp only [isTraded, h.request, h.answered]
  rw [Exchange.requireUntraded, htraded, Exchange.requireUntraded]

theorem partOfDraft : partOfDraft s' = partOfDraft s := by
  funext caller parent slot d trace
  simp only [Exchange.partOfDraft, checkNamed, h.part, h.placement]

theorem partsOfDrafts : partsOfDrafts s' = partsOfDrafts s := by
  funext caller parent index ds
  induction ds generalizing index with
  | nil => rfl
  | cons d ds ih =>
    funext traces
    cases traces with
    | nil => rfl
    | cons trace traces => simp only [Exchange.partsOfDrafts, h.partOfDraft, ih]

theorem putAssembly (ids : List Uuid) (caller : Uuid) (draft : AssemblyDraft) :
    Exchange.putAssembly ids caller draft s' = Exchange.putAssembly ids caller draft s := by
  simp only [Exchange.putAssembly, h.partOfDraft, h.partsOfDrafts, h.requireUntraded, h.assembly]

theorem completions : completions s' = completions s := by
  funext tree ts
  induction ts with
  | nil => rfl
  | cons t ts ih => simp only [Exchange.completions, h.status, ih]

theorem revisedFigure : revisedFigure s' = revisedFigure s := by
  funext setId f
  simp only [Exchange.revisedFigure, h.figure]

theorem putFigures (id caller : Uuid) (fs : List Figure) :
    putFigures id caller fs s' = putFigures id caller fs s := by
  simp only [Exchange.putFigures, h.revisedFigure, h.completions, h.part, h.figuresOf, h.answered]

theorem tradeWithStatus : tradeWithStatus s' = tradeWithStatus s := by
  funext trade
  simp only [Exchange.tradeWithStatus, h.trade, h.status]

theorem putRequest (limits : TextLimits) (now : Instant) (tradeId statusId caller : Uuid)
    (r : TradeRequest) :
    putRequest limits now tradeId statusId caller r s' =
      putRequest limits now tradeId statusId caller r s := by
  simp only [Exchange.putRequest, reviseRequest, openRequest, h.tradeWithStatus, h.part, h.request]

theorem answer (caller trade trace : Uuid) :
    answer caller trade trace s' = answer caller trade trace s := by
  simp only [Exchange.answer, answerProgress, h.tradeWithStatus, h.part, h.figuresOf]

theorem plan (limits : TextLimits) (now : Instant) (caller : Uuid) (op : Operation) :
    op.plan limits now caller s' = op.plan limits now caller s := by
  cases op with
  | putAssembly ids draft => simp only [Operation.plan, Operation.withReply, h.putAssembly]
  | removeAssembly parent =>
    simp only [Operation.plan, Operation.withReply, Exchange.removeAssembly, h.requireUntraded,
      h.assembly]
  | putFigures id fs => simp only [Operation.plan, Operation.withReply, h.putFigures]
  | certify trace certificates =>
    simp only [Operation.plan, Operation.withReply, certify, h.part, h.figuresOf]
  | putRequest tradeId statusId r =>
    simp only [Operation.plan, Operation.withReply, h.putRequest]
  | answer trade trace => simp only [Operation.plan, Operation.withReply, h.answer]
  | cancel trade reply => simp only [Operation.plan, Operation.withReply, cancel, h.tradeWithStatus]
  | reject trade reply => simp only [Operation.plan, Operation.withReply, reject, h.tradeWithStatus]
  | deleteTrade trade => simp only [Operation.plan, Operation.withReply, deleteTrade, h.trade]

/-- Stores that agree on a few lookups agree on every listing, count and total, and on what each
operation plans. -/
theorem readings : SameReadings s s' where
  part := h.part
  assembly := h.assembly
  figures := h.figuresOf
  figure := h.figure
  trade := h.trade
  request := h.request
  answered := h.answered
  status := h.status
  page := h.page
  count := h.count
  tradeOf := h.tradeOf
  listing := h.listStatuses
  totals := h.figuresFor
  plan := h.plan

end SameLookups

end Footprint
