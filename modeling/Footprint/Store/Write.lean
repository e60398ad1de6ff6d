import Footprint.Store.Basic

namespace Footprint

open Table Enumerated

/-- A write to the store. It takes place as a whole or, when it is refused, not at all. -/
inductive Write where
  /-- Stores an assembly in place of the children its parent had, and drops parts. -/
  | putAssembly (a : Assembly) (removed : List Uuid)
  | removeAssembly (a : Assembly)
  /-- Adds figures and completes the requests that waited for them. -/
  | addFigures (fs : List Figure) (completed : List Status)
  | reviseFigures (fs : List Figure)
  | certify (trace : Uuid) (certificates : List String)
  | openTrade (t : Trade) (s : Status) (author : Uuid)
  | reviseTrade (t : Trade) (s : Status) (author : Uuid)
  | answerTrade (trade trace : Uuid) (s : Status) (author : Uuid)
  | cancelTrade (trade : Uuid) (reply : Option String) (author : Uuid)
  | rejectTrade (trade : Uuid) (reply : Option String) (author : Uuid)
  | deleteTrade (trade author : Uuid)
deriving DecidableEq

namespace Store

/-- Brings a part into the table. A row the trace had before is kept and revived. -/
def writePart (now : Instant) (table : List PartRecord) (p : Part) : List PartRecord :=
  if table.any fun r => r.trace = p.trace then
    updateWhere (fun r => r.trace = p.trace) (PartRecord.revise now p) table
  else table ++ [PartRecord.ofPart now p]

/-- Marks parts as deleted and drops their places and figures. -/
def dropParts (now : Instant) (author : Uuid) (traces : List Uuid) (s : Store) : Store :=
  { s with
    parts := updateWhere (fun r => traces.contains r.trace)
      (fun r => { r with deletedAt := some now, updatedAt := now, updatedBy := author }) s.parts
    placements := deleteWhere (fun r => traces.contains r.trace) s.placements
    figures := deleteWhere (fun r => traces.contains r.trace) s.figures }

/-- The rows that place an assembly: its parent under the nil trace, its children in order. -/
def placementsOf (now : Instant) (a : Assembly) : List PlacementRecord :=
  ⟨a.parent.trace, Uuid.nil, 0, now⟩ ::
    a.children.mapIdx fun position child => ⟨child.trace, a.parent.trace, position, now⟩

def putAssembly (now : Instant) (a : Assembly) (removed : List Uuid) (s : Store) :
    Except Error Store :=
  let s := s.dropParts now a.parent.operator removed
  let kept := deleteWhere (fun r => r.parent = a.parent.trace || r.trace = a.parent.trace)
    s.placements
  match insertAll (fun r q => q.trace = r.trace) kept (placementsOf now a) with
  | some placements =>
    .ok { s with parts := a.parts.foldl (writePart now) s.parts, placements := placements }
  | none => .error .brokenKey

def removeAssembly (now : Instant) (a : Assembly) (s : Store) : Store :=
  s.dropParts now a.parent.operator a.traces

/-- Only a request that is still pending is written to. -/
def awaits (status : Uuid) (r : StatusRecord) : Bool :=
  r.id = status && r.isPending

def reviseStatus (now : Instant) (author : Option Uuid) (table : List StatusRecord) (s : Status) :
    List StatusRecord :=
  updateWhere (awaits s.id) (StatusRecord.revise now author s) table

/-- Why a request admits no event: it is closed or its status is missing. -/
def whyClosed (table : List StatusRecord) (trade : Uuid) (event : Event) : Error :=
  match table.find? fun r => r.trade = trade && r.isLive with
  | some r => .closed r.progress event
  | none => .statusNotFound trade

/-- Ends the pending requests of a trade with a reply. -/
def endRequest (now : Instant) (author trade : Uuid) (progress : Progress) (event : Event)
    (reply : Option String) (s : Store) : Except Error Store :=
  let open_ : StatusRecord → Bool := fun r => r.trade = trade && r.isPending
  if s.statuses.any open_ then
    .ok
      { s with
        statuses := updateWhere open_
          (fun r =>
            { r with
              progress := literal progress
              reply := reply
              updatedAt := now
              updatedBy := author })
          s.statuses }
  else .error (whyClosed s.statuses trade event)

def recordOf (now : Instant) (f : Figure) : Except Error FigureRecord :=
  match f.setId with
  | some setId => .ok (FigureRecord.ofFigure now setId f)
  | none => .error (.inconsistent .setId f.trace)

def addFigures (now : Instant) (fs : List Figure) (completed : List Status) (s : Store) :
    Except Error Store := do
  let records ← fs.mapM (recordOf now)
  match fs with
  | [] => .ok s
  | first :: _ =>
    match insertAll FigureRecord.clash s.figures records with
    | some figures =>
      .ok
        { s with
          figures := figures
          statuses := completed.foldl (reviseStatus now none) s.statuses }
    | none => .error (.duplicateFigures first.trace)

def reviseFigure (now : Instant) (table : List FigureRecord) (f : Figure) :
    Except Error (List FigureRecord) :=
  match f.setId with
  | some setId =>
    .ok
      (updateWhere (fun r => r.setId = setId && r.kind = literal f.kind)
        (FigureRecord.revise now f) table)
  | none => .error (.inconsistent .setId f.trace)

def reviseFigures (now : Instant) (fs : List Figure) (s : Store) : Except Error Store := do
  let figures ← fs.foldlM (reviseFigure now) s.figures
  .ok { s with figures := figures }

def certify (now : Instant) (trace : Uuid) (certificates : List String) (s : Store) : Store :=
  { s with
    figures := updateWhere (fun r => r.trace = trace)
      (fun r => { r with certificates := Json.quoteList certificates, updatedAt := now })
      s.figures }

/-- Adds a trade and a status. The status belongs to this trade or to one that was there before,
be it deleted. -/
def openTrade (now : Instant) (t : Trade) (status : Status) (author : Uuid) (s : Store) :
    Except Error Store :=
  match insertAll (fun r q => q.id = r.id) s.trades [TradeRecord.ofTrade now author t],
    insertAll (fun r q => q.id = r.id) s.statuses [StatusRecord.ofStatus now author t status] with
  | some trades, some statuses =>
    if trades.any fun r => r.id = status.trade then
      .ok { s with trades := trades, statuses := statuses }
    else .error .brokenKey
  | _, _ => .error .brokenKey

/-- Changes live trades of that identifier. -/
def updateTrade (now : Instant) (author trade : Uuid) (change : TradeRecord → TradeRecord)
    (table : List TradeRecord) : List TradeRecord :=
  updateWhere (fun r => r.id = trade && r.isLive)
    (fun r => { change r with updatedAt := now, updatedBy := author }) table

/-- Revises the status of a trade along with the trade; the trade stays as it is when the status
is no longer pending. -/
def reviseWith (now : Instant) (author trade : Uuid) (status : Status) (event : Event)
    (trades : List TradeRecord) (statuses : List StatusRecord) (s : Store) : Except Error Store :=
  if statuses.any (awaits status.id) then
    .ok { s with trades := trades, statuses := reviseStatus now (some author) statuses status }
  else .error (whyClosed statuses trade event)

def reviseTrade (now : Instant) (t : Trade) (status : Status) (author : Uuid) (s : Store) :
    Except Error Store :=
  reviseWith now author t.id status .update
    (updateTrade now author t.id (fun r => { r with supplier := t.supplier })
      s.trades)
    (updateWhere (fun r => r.id = status.id)
      (fun r => { r with supplier := t.supplier }) s.statuses)
    s

def answerTrade (now : Instant) (trade trace : Uuid) (status : Status) (author : Uuid)
    (s : Store) : Except Error Store :=
  reviseWith now author trade status .answer
    (updateTrade now author trade (fun r => { r with supplierPart := some trace }) s.trades)
    s.statuses s

/-- Marks a trade and its statuses as deleted. -/
def deleteTrade (now : Instant) (trade author : Uuid) (s : Store) : Store :=
  { s with
    trades := updateWhere (fun r => r.id = trade)
      (fun r => { r with deletedAt := some now, updatedBy := author }) s.trades
    statuses := updateWhere (fun r => r.trade = trade)
      (fun r => { r with deletedAt := some now, updatedBy := author }) s.statuses }

/-- The store after a write. -/
def apply (now : Instant) (s : Store) : Write → Except Error Store
  | .putAssembly a removed => s.putAssembly now a removed
  | .removeAssembly a => .ok (s.removeAssembly now a)
  | .addFigures fs completed => s.addFigures now fs completed
  | .reviseFigures fs => s.reviseFigures now fs
  | .certify trace certificates => .ok (s.certify now trace certificates)
  | .openTrade t status author => s.openTrade now t status author
  | .reviseTrade t status author => s.reviseTrade now t status author
  | .answerTrade trade trace status author => s.answerTrade now trade trace status author
  | .cancelTrade trade reply author => s.endRequest now author trade .cancelled .cancel reply
  | .rejectTrade trade reply author => s.endRequest now author trade .rejected .reject reply
  | .deleteTrade trade author => .ok (s.deleteTrade now trade author)

end Store

end Footprint
