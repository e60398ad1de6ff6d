import Footprint.Store.Basic

namespace Footprint

open Enumerated

/-- A figure as it travels: what is of a closed vocabulary is its literal. -/
@[ext] structure FigureBody where
  setId : Option Uuid
  trace : Uuid
  emission : Option Float
  unit : Option String
  kind : String
  ratingKind : String
  rating : Rating
  certificates : List String
deriving DecidableEq

@[ext] structure PartBody where
  trace : Option Uuid
  operator : Uuid
  plant : Option Uuid
  name : String
  supportName : Option String
  terminal : Bool
  amount : Option Float
  amountUnit : Option String
deriving DecidableEq

@[ext] structure AssemblyBody where
  parent : Option PartBody
  children : List PartBody
deriving DecidableEq

@[ext] structure TradeBody where
  id : Option Uuid
  requester : Uuid
  supplier : Uuid
  requesterPart : Uuid
  supplierPart : Option Uuid
deriving DecidableEq

@[ext] structure TradeRequestBody where
  trade : TradeBody
  message : Option String
  dueDate : String
deriving DecidableEq

@[ext] structure StatusBody where
  id : Uuid
  trade : Uuid
  progress : String
  tree : String
  message : Option String
  reply : Option String
  kind : String
  dueDate : String
  completedCount : Int
  tradesCount : Int
  requestedAt : Instant
deriving DecidableEq

namespace FigureBody

def ofFigure (f : Figure) : FigureBody where
  setId := f.setId
  trace := f.trace
  emission := f.emission
  unit := f.unit.map literal
  kind := literal f.kind
  ratingKind := literal f.ratingKind
  rating := f.rating
  certificates := f.certificates

/-- The first literal that is unknown is named; so it is in the other bodies. -/
def figure (b : FigureBody) : Except Error Figure := do
  let unit ← readOptionalLiteral "ghgDeclaredUnit" b.unit
  let kind ← readLiteral "cfpType" b.kind
  let ratingKind ← readLiteral "dqrType" b.ratingKind
  .ok
    { setId := b.setId
      trace := b.trace
      emission := b.emission
      unit := unit
      kind := kind
      ratingKind := ratingKind
      rating := b.rating
      certificates := b.certificates }

def figures (bs : List FigureBody) : Except Error (List Figure) :=
  bs.mapM figure

end FigureBody

namespace PartBody

def ofPart (p : Part) : PartBody where
  trace := some p.trace
  operator := p.operator
  plant := some p.plant
  name := p.name
  supportName := p.supportName
  terminal := p.terminal
  amount := p.amount
  amountUnit := p.amountUnit.map literal

def draft (b : PartBody) : Except Error PartDraft := do
  let unit ← readOptionalLiteral "amountRequiredUnit" b.amountUnit
  .ok
    { trace := b.trace
      operator := b.operator
      plant := b.plant
      name := b.name
      supportName := b.supportName
      terminal := b.terminal
      amount := b.amount
      amountUnit := unit }

/-- The body of a draft. -/
def ofDraft (d : PartDraft) : PartBody where
  trace := d.trace
  operator := d.operator
  plant := d.plant
  name := d.name
  supportName := d.supportName
  terminal := d.terminal
  amount := d.amount
  amountUnit := d.amountUnit.map literal

end PartBody

/-- A draft that lacks neither trace nor plant is a part. -/
def PartDraft.part? (d : PartDraft) : Option Part := do
  let trace ← d.trace
  let plant ← d.plant
  some
    { trace := trace
      operator := d.operator
      plant := plant
      name := d.name
      supportName := d.supportName
      terminal := d.terminal
      amount := d.amount
      amountUnit := d.amountUnit }

namespace AssemblyBody

def ofAssembly (a : Assembly) : AssemblyBody :=
  ⟨some (.ofPart a.parent), a.children.map .ofPart⟩

def ofDraft (d : AssemblyDraft) : AssemblyBody :=
  ⟨d.parent.map .ofDraft, d.children.map .ofDraft⟩

/-- The parent is decoded before the children. -/
def draft (b : AssemblyBody) : Except Error AssemblyDraft := do
  let parent ← readOptional PartBody.draft b.parent
  let children ← b.children.mapM PartBody.draft
  .ok ⟨parent, children⟩

end AssemblyBody

namespace TradeBody

def ofTrade (t : Trade) : TradeBody :=
  ⟨some t.id, t.requester, t.supplier, t.requesterPart, t.supplierPart⟩

/-- A body that names its trade. -/
def trade? (b : TradeBody) : Option Trade :=
  b.id.map fun id =>
    ⟨id, b.requester, b.supplier, b.requesterPart, b.supplierPart⟩

end TradeBody

/-- The part that a request body names as supplied is not part of the request. -/
def TradeRequestBody.request (b : TradeRequestBody) : TradeRequest where
  trade := b.trade.id
  requester := b.trade.requester
  supplier := b.trade.supplier
  requesterPart := b.trade.requesterPart
  message := b.message
  dueDate := b.dueDate

namespace StatusBody

def ofStatus (s : Status) : StatusBody where
  id := s.id
  trade := s.trade
  progress := literal s.progress
  tree := literal s.tree
  message := s.message
  reply := s.reply
  kind := literal s.kind
  dueDate := s.dueDate
  completedCount := s.completedCount
  tradesCount := s.tradesCount
  requestedAt := s.requestedAt

def status (b : StatusBody) : Except Error Status := do
  let progress ← readLiteral "cfpResponseStatus" b.progress
  let tree ← readLiteral "tradeTreeStatus" b.tree
  let kind ← readLiteral "requestType" b.kind
  .ok
    { id := b.id
      trade := b.trade
      progress := progress
      tree := tree
      message := b.message
      reply := b.reply
      kind := kind
      dueDate := b.dueDate
      completedCount := b.completedCount
      tradesCount := b.tradesCount
      requestedAt := b.requestedAt }

end StatusBody

end Footprint
