import Footprint.Error
import Footprint.Json.Quoted

namespace Footprint

open Enumerated

/-- The value a stored or submitted literal stands for. -/
def readLiteral [Enumerated α] (field s : String) : Except Error α :=
  match ofLiteral? s with
  | some a => .ok a
  | none => .error (.unknownLiteral field s)

/-- The literal of a value that may be absent. -/
def readOptionalLiteral [Enumerated α] (field : String) : Option String → Except Error (Option α)
  | none => .ok none
  | some s => (readLiteral field s).map some

theorem readLiteral_literal [Enumerated α] (field : String) (a : α) :
    readLiteral field (literal a) = .ok a := by
  simp [readLiteral, ofLiteral?_literal]

/-- Columns of numbers do not keep the sign of zero. -/
def storedNumber (x : Float) : Float :=
  if x.toBits = 0x8000000000000000 then 0 else x

/-- The row of a part. What is of a closed vocabulary is kept as its literal, so reading a row can
fail. -/
@[ext] structure PartRecord where
  trace : Uuid
  operator : Uuid
  plant : Uuid
  name : String
  supportName : Option String
  terminal : Bool
  amount : Option Float
  amountUnit : Option String
  createdAt : Instant
  updatedAt : Instant
  deletedAt : Option Instant
  updatedBy : Uuid
deriving DecidableEq

@[ext] structure PlacementRecord where
  trace : Uuid
  parent : Uuid
  position : Nat
  createdAt : Instant
deriving DecidableEq

@[ext] structure FigureRecord where
  setId : Uuid
  kind : String
  trace : Uuid
  emission : Option Float
  /-- Empty for a figure without unit. -/
  unit : String
  ratingKind : String
  technological : Option Float
  geographical : Option Float
  temporal : Option Float
  /-- A compact array of strings. -/
  certificates : String
  createdAt : Instant
  updatedAt : Instant
deriving DecidableEq

@[ext] structure TradeRecord where
  id : Uuid
  requester : Uuid
  supplier : Uuid
  requesterPart : Uuid
  supplierPart : Option Uuid
  createdAt : Instant
  updatedAt : Instant
  deletedAt : Option Instant
  updatedBy : Uuid
deriving DecidableEq

@[ext] structure StatusRecord where
  id : Uuid
  trade : Uuid
  requester : Uuid
  supplier : Uuid
  progress : String
  tree : String
  message : Option String
  reply : Option String
  kind : String
  dueDate : String
  completedCount : Int
  tradesCount : Int
  requestedAt : Instant
  updatedAt : Instant
  deletedAt : Option Instant
  updatedBy : Uuid
deriving DecidableEq

namespace PartRecord

def isLive (r : PartRecord) : Bool :=
  r.deletedAt.isNone

/-- The row of a part that is new to the store. -/
def ofPart (now : Instant) (p : Part) : PartRecord where
  trace := p.trace
  operator := p.operator
  plant := p.plant
  name := p.name
  supportName := p.supportName
  terminal := p.terminal
  amount := p.amount.map storedNumber
  amountUnit := p.amountUnit.map literal
  createdAt := now
  updatedAt := now
  deletedAt := none
  updatedBy := p.operator

/-- The row of a part that the store has or had: it keeps its owner and its age. -/
def revise (now : Instant) (p : Part) (r : PartRecord) : PartRecord :=
  { ofPart now p with operator := r.operator, createdAt := r.createdAt }

def part (r : PartRecord) : Except Error Part := do
  let unit ← readOptionalLiteral "amountRequiredUnit" r.amountUnit
  .ok
    { trace := r.trace
      operator := r.operator
      plant := r.plant
      name := r.name
      supportName := r.supportName
      terminal := r.terminal
      amount := r.amount
      amountUnit := unit }

end PartRecord

def PlacementRecord.placement (r : PlacementRecord) : Placement :=
  ⟨r.trace, r.parent⟩

namespace FigureRecord

def ofFigure (now : Instant) (setId : Uuid) (f : Figure) : FigureRecord where
  setId := setId
  kind := literal f.kind
  trace := f.trace
  emission := f.emission.map storedNumber
  unit := (f.unit.map literal).getD ""
  ratingKind := literal f.ratingKind
  technological := f.rating.technological.map storedNumber
  geographical := f.rating.geographical.map storedNumber
  temporal := f.rating.temporal.map storedNumber
  certificates := Json.quoteList f.certificates
  createdAt := now
  updatedAt := now

/-- The row with the values of a submitted figure; its certificates are not among them. -/
def revise (now : Instant) (f : Figure) (r : FigureRecord) : FigureRecord :=
  { r with
    emission := f.emission.map storedNumber
    unit := (f.unit.map literal).getD ""
    ratingKind := literal f.ratingKind
    technological := f.rating.technological.map storedNumber
    geographical := f.rating.geographical.map storedNumber
    temporal := f.rating.temporal.map storedNumber
    updatedAt := now }

def readUnit (s : String) : Except Error (Option DeclaredUnit) :=
  if s.isEmpty then .ok none else (readLiteral "ghgDeclaredUnit" s).map some

def readCertificates (s : String) : Except Error (List String) :=
  match Json.readList s with
  | some certificates => .ok certificates
  | none => .error .undecodable

def figure (r : FigureRecord) : Except Error Figure := do
  let unit ← readUnit r.unit
  let kind ← readLiteral "cfpType" r.kind
  let ratingKind ← readLiteral "dqrType" r.ratingKind
  let certificates ← readCertificates r.certificates
  .ok
    { setId := some r.setId
      trace := r.trace
      emission := r.emission
      unit := unit
      kind := kind
      ratingKind := ratingKind
      rating := ⟨r.technological, r.geographical, r.temporal⟩
      certificates := certificates }

/-- Rows are unique per set and kind and per trace and kind. -/
def clash (r q : FigureRecord) : Bool :=
  q.kind = r.kind && (q.setId = r.setId || q.trace = r.trace)

end FigureRecord

namespace TradeRecord

def isLive (r : TradeRecord) : Bool :=
  r.deletedAt.isNone

def ofTrade (now : Instant) (author : Uuid) (t : Trade) : TradeRecord where
  id := t.id
  requester := t.requester
  supplier := t.supplier
  requesterPart := t.requesterPart
  supplierPart := t.supplierPart
  createdAt := now
  updatedAt := now
  deletedAt := none
  updatedBy := author

def trade (r : TradeRecord) : Trade :=
  ⟨r.id, r.requester, r.supplier, r.requesterPart, r.supplierPart⟩

end TradeRecord

namespace StatusRecord

def isLive (r : StatusRecord) : Bool :=
  r.deletedAt.isNone

/-- Whether the request still waits for its answer. -/
def isPending (r : StatusRecord) : Bool :=
  r.progress = literal Progress.pending && r.isLive

/-- Statuses repeat the operators of their trade. -/
def ofStatus (now : Instant) (author : Uuid) (t : Trade) (s : Status) : StatusRecord where
  id := s.id
  trade := s.trade
  requester := t.requester
  supplier := t.supplier
  progress := literal s.progress
  tree := literal s.tree
  message := s.message
  reply := s.reply
  kind := literal s.kind
  dueDate := s.dueDate
  completedCount := s.completedCount
  tradesCount := s.tradesCount
  requestedAt := s.requestedAt
  updatedAt := now
  deletedAt := none
  updatedBy := author

/-- The row with all of a status that changes while its request is open. -/
def revise (now : Instant) (author : Option Uuid) (s : Status) (r : StatusRecord) : StatusRecord :=
  { r with
    progress := literal s.progress
    tree := literal s.tree
    message := s.message
    reply := s.reply
    dueDate := s.dueDate
    completedCount := s.completedCount
    tradesCount := s.tradesCount
    updatedAt := now
    updatedBy := author.getD r.updatedBy }

def status (r : StatusRecord) : Except Error Status := do
  let progress ← readLiteral "cfpResponseStatus" r.progress
  let tree ← readLiteral "tradeTreeStatus" r.tree
  let kind ← readLiteral "requestType" r.kind
  .ok
    { id := r.id
      trade := r.trade
      progress := progress
      tree := tree
      message := r.message
      reply := r.reply
      kind := kind
      dueDate := r.dueDate
      completedCount := r.completedCount
      tradesCount := r.tradesCount
      requestedAt := r.requestedAt }

def operatorOn (side : Side) (r : StatusRecord) : Uuid :=
  match side with
  | .request => r.requester
  | .response => r.supplier

end StatusRecord

end Footprint
