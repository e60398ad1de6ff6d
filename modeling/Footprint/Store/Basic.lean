import Footprint.Store.Record
import Footprint.Store.Table

namespace Footprint

/-- Five tables. Deleted parts, trades and statuses stay as rows that no reading shows; placements
and figures are removed for good. -/
@[ext] structure Store where
  parts : List PartRecord
  placements : List PlacementRecord
  figures : List FigureRecord
  trades : List TradeRecord
  statuses : List StatusRecord
deriving DecidableEq

/-- Statuses in the order of their identifiers and the first one left out, if any. -/
@[ext] structure StatusPage where
  statuses : List Status
  next : Option Uuid
deriving DecidableEq

/-- Which statuses of an operator to list. -/
@[ext] structure StatusQuery where
  operator : Uuid
  side : Side
  status : Option Uuid
  /-- The least identifier of the page. -/
  after : Option Uuid
  limit : Nat
deriving DecidableEq

def readOptional (read : α → Except ε β) : Option α → Except ε (Option β)
  | none => .ok none
  | some a => (read a).map some

namespace Store

def empty : Store := ⟨[], [], [], [], []⟩

def part? (s : Store) (operator trace : Uuid) : Except Error (Option Part) :=
  readOptional PartRecord.part
    (s.parts.find? fun r => r.trace = trace && r.operator = operator && r.isLive)

def placement? (s : Store) (trace : Uuid) : Option Placement :=
  (s.placements.find? fun r => r.trace = trace).map (·.placement)

/-- The traces placed under a parent, by position. -/
def childTraces (s : Store) (parent : Uuid) : List Uuid :=
  ((s.placements.filter fun r => r.parent = parent).mergeSort fun r q => r.position ≤ q.position).map
    (·.trace)

/-- Removes the row at an index; the last row fills the gap. -/
def swapRemove (rows : List α) (index : Nat) : List α :=
  match rows.getLast? with
  | none => []
  | some last => if index + 1 = rows.length then rows.dropLast else rows.dropLast.set index last

/-- The rows of the given traces in their order. Each row is taken out of the pool when it is
placed. -/
def arrange : List Uuid → List PartRecord → List PartRecord
  | [], _ => []
  | trace :: traces, pool =>
    match pool.findIdx? fun r => r.trace = trace with
    | some index => (pool[index]?).toList ++ arrange traces (swapRemove pool index)
    | none => arrange traces pool

/-- The live children of a parent in order. -/
def children (s : Store) (parent : Uuid) : Except Error (List Part) :=
  let traces := s.childTraces parent
  (arrange traces (s.parts.filter fun r => traces.contains r.trace && r.isLive)).mapM (·.part)

def isParent (s : Store) (trace : Uuid) : Bool :=
  ((s.placement? trace).map (·.isParent)).getD false

/-- The assembly headed by a part of the operator. -/
def assembly? (s : Store) (operator parent : Uuid) : Except Error (Option Assembly) := do
  match ← s.part? operator parent with
  | none => .ok none
  | some p =>
    if s.isParent parent then
      let children ← s.children parent
      .ok (some ⟨p, children⟩)
    else .ok none

/-- The figures of a part in the canonical order of their kinds. -/
def figuresOf (s : Store) (trace : Uuid) : Except Error (List Figure) := do
  let fs ← (s.figures.filter fun r => r.trace = trace).mapM (·.figure)
  .ok (fs.mergeSort fun f g => f.kind.rank ≤ g.kind.rank)

def figure? (s : Store) (setId : Uuid) (kind : FigureKind) : Except Error (Option Figure) :=
  readOptional FigureRecord.figure
    (s.figures.find? fun r => r.setId = setId && r.kind = Enumerated.literal kind)

def trade? (s : Store) (id : Uuid) : Option Trade :=
  (s.trades.find? fun r => r.id = id && r.isLive).map (·.trade)

def requestFor? (s : Store) (trace : Uuid) : Option Trade :=
  (s.trades.find? fun r => r.requesterPart = trace && r.isLive).map (·.trade)

/-- The trades answered with a part, oldest first. -/
def tradesAnsweredWith (s : Store) (trace : Uuid) : List Trade :=
  ((s.trades.filter fun r => r.supplierPart = some trace && r.isLive).mergeSort
    fun r q => r.createdAt.columnLe q.createdAt).map (·.trade)

def statusOf? (s : Store) (trade : Uuid) : Except Error (Option Status) :=
  readOptional StatusRecord.status (s.statuses.find? fun r => r.trade = trade && r.isLive)

/-- The live statuses of an operator on one side. -/
def sideStatuses (s : Store) (operator : Uuid) (side : Side) : List StatusRecord :=
  s.statuses.filter fun r => r.operatorOn side = operator && r.isLive

def StatusQuery.admits (q : StatusQuery) (r : StatusRecord) : Bool :=
  q.status.all (r.id = ·) && q.after.all (· ≤ r.id)

/-- One row more than the page is read, to tell where the next page starts. -/
def page (s : Store) (q : StatusQuery) : Except Error StatusPage := do
  let rows := (s.sideStatuses q.operator q.side).filter (StatusQuery.admits q)
  let sorted := rows.mergeSort fun r t => r.id ≤ t.id
  let statuses ← (sorted.take (q.limit + 1)).mapM (·.status)
  .ok ⟨statuses.take q.limit, (statuses[q.limit]?).map (·.id)⟩

def statusCount (s : Store) (operator : Uuid) (side : Side) : Nat :=
  (s.sideStatuses operator side).length

end Store

end Footprint
