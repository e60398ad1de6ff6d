import Footprint.Exchange.Operation

namespace Footprint

open Table Enumerated

/-- Where statements take place. One on its own takes place as a whole or not at all. A transaction
works on tables of its own; they become those of the store when it is committed, and they are lost
when the call ends before. -/
structure Connection where
  committed : Store
  /-- The tables of the open transaction. -/
  working : Option Store

namespace Connection

/-- The tables that a statement sees. -/
def tables (c : Connection) : Store :=
  c.working.getD c.committed

/-- Without an open transaction a change is committed at once. -/
def put (c : Connection) (s : Store) : Connection :=
  match c.working with
  | some _ => { c with working := some s }
  | none => { c with committed := s }

end Connection

/-- Statements one after the other, up to the first failure. What was changed before it stays in
the connection, so it takes a proof that a call that fails leaves the store as it was. -/
abbrev Session := ExceptT Error (StateM Connection)

namespace Session

variable {α : Type}

def statement (change : StateT Store (Except Error) α) : Session α := do
  let c ← get
  match change.run c.tables with
  | .ok (a, s) =>
    set (c.put s)
    return a
  | .error e => throw e

def update (change : Store → Store) : Session Unit :=
  statement fun s => .ok ((), change s)

def query (read : Store → α) : Session α :=
  statement fun s => .ok (read s, s)

def openTransaction : Session Unit :=
  modify fun c => { c with working := some c.tables }

def commit : Session Unit :=
  modify fun c => ⟨c.tables, none⟩

/-- A call on the store. A transaction that it leaves open is rolled back. -/
def call (x : Session α) (s : Store) : Except Error α × Store :=
  let (result, c) := x.run.run ⟨s, none⟩
  (result, c.committed)

def dropParts (now : Instant) (author : Uuid) (traces : List Uuid) : Session Unit :=
  if traces.isEmpty then return
  else do
    update fun s =>
      { s with
        parts := updateWhere (fun r => traces.contains r.trace)
          (fun r => { r with deletedAt := some now, updatedAt := now, updatedBy := author })
          s.parts }
    update fun s =>
      { s with placements := deleteWhere (fun r => traces.contains r.trace) s.placements }
    update fun s => { s with figures := deleteWhere (fun r => traces.contains r.trace) s.figures }

def writePart (now : Instant) (p : Part) : Session Unit :=
  update fun s => { s with parts := Store.writePart now s.parts p }

def insertPlacements (rows : List PlacementRecord) : Session Unit :=
  statement fun s =>
    match insertAll (fun r q => q.trace = r.trace) s.placements rows with
    | some placements => .ok ((), { s with placements := placements })
    | none => .error .brokenKey

def putAssembly (now : Instant) (a : Assembly) (removed : List Uuid) : Session Unit := do
  openTransaction
  dropParts now a.parent.operator removed
  writePart now a.parent
  a.children.forM (writePart now)
  update fun s =>
    { s with
      placements :=
        deleteWhere (fun r => r.parent = a.parent.trace || r.trace = a.parent.trace)
          s.placements }
  insertPlacements (Store.placementsOf now a)
  commit

def removeAssembly (now : Instant) (a : Assembly) : Session Unit := do
  openTransaction
  dropParts now a.parent.operator a.traces
  commit

/-- Whether the status was still pending and has been written. -/
def writeStatus (now : Instant) (author : Option Uuid) (status : Status) : Session Bool :=
  statement fun s =>
    .ok (s.statuses.any (Store.awaits status.id),
      { s with statuses := Store.reviseStatus now author s.statuses status })

/-- Why a status was not written. -/
def lostTransition (trade : Uuid) (event : Event) : Session Error :=
  query fun s => Store.whyClosed s.statuses trade event

/-- Whether the trade had a pending status, which is ended now. -/
def endPending (now : Instant) (author trade : Uuid) (progress : Progress)
    (reply : Option String) : Session Bool :=
  let open_ : StatusRecord → Bool := fun r => r.trade = trade && r.isPending
  statement fun s =>
    .ok (s.statuses.any open_,
      { s with
        statuses := updateWhere open_
          (fun r =>
            { r with
              progress := literal progress
              reply := reply
              updatedAt := now
              updatedBy := author })
          s.statuses })

def endRequest (now : Instant) (author trade : Uuid) (progress : Progress) (event : Event)
    (reply : Option String) : Session Unit := do
  if ← endPending now author trade progress reply then return
  else throw (← lostTransition trade event)

def insertFigures (trace : Uuid) (rows : List FigureRecord) : Session Unit :=
  statement fun s =>
    match insertAll FigureRecord.clash s.figures rows with
    | some figures => .ok ((), { s with figures := figures })
    | none => .error (.duplicateFigures trace)

/-- A status that is no longer pending is passed over. -/
def completeStatus (now : Instant) (status : Status) : Session Unit := do
  let _ ← writeStatus now none status

def addFigures (now : Instant) (fs : List Figure) (completed : List Status) : Session Unit := do
  let records ← liftExcept (fs.mapM (Store.recordOf now))
  match fs with
  | [] => return
  | first :: _ =>
    openTransaction
    insertFigures first.trace records
    completed.forM (completeStatus now)
    commit

def reviseFigure (now : Instant) (f : Figure) : Session Unit :=
  match f.setId with
  | some setId =>
    update fun s =>
      { s with
        figures := updateWhere (fun r => r.setId = setId && r.kind = literal f.kind)
          (FigureRecord.revise now f) s.figures }
  | none => throw (.inconsistent .setId f.trace)

def reviseFigures (now : Instant) (fs : List Figure) : Session Unit := do
  openTransaction
  fs.forM (reviseFigure now)
  commit

def certify (now : Instant) (trace : Uuid) (certificates : List String) : Session Unit :=
  update fun s => s.certify now trace certificates

def insertTrade (row : TradeRecord) : Session Unit :=
  statement fun s =>
    match insertAll (fun r q => q.id = r.id) s.trades [row] with
    | some trades => .ok ((), { s with trades := trades })
    | none => .error .brokenKey

def insertStatus (row : StatusRecord) : Session Unit :=
  statement fun s =>
    match insertAll (fun r q => q.id = r.id) s.statuses [row] with
    | some statuses =>
      if s.trades.any fun r => r.id = row.trade then .ok ((), { s with statuses := statuses })
      else .error .brokenKey
    | none => .error .brokenKey

def openTrade (now : Instant) (t : Trade) (status : Status) (author : Uuid) : Session Unit := do
  openTransaction
  insertTrade (TradeRecord.ofTrade now author t)
  insertStatus (StatusRecord.ofStatus now author t status)
  commit

def updateTrade (now : Instant) (author trade : Uuid) (change : TradeRecord → TradeRecord) :
    Session Unit :=
  update fun s => { s with trades := Store.updateTrade now author trade change s.trades }

/-- Commits when the status is still pending. -/
def closeWith (now : Instant) (author trade : Uuid) (status : Status) (event : Event) :
    Session Unit := do
  if ← writeStatus now (some author) status then commit
  else throw (← lostTransition trade event)

def reviseTrade (now : Instant) (t : Trade) (status : Status) (author : Uuid) : Session Unit := do
  openTransaction
  updateTrade now author t.id fun r => { r with supplier := t.supplier }
  update fun s =>
    { s with
      statuses := updateWhere (fun r => r.id = status.id)
        (fun r => { r with supplier := t.supplier }) s.statuses }
  closeWith now author t.id status .update

def answerTrade (now : Instant) (trade trace : Uuid) (status : Status) (author : Uuid) :
    Session Unit := do
  openTransaction
  updateTrade now author trade fun r => { r with supplierPart := some trace }
  closeWith now author trade status .answer

def deleteTrade (now : Instant) (trade author : Uuid) : Session Unit := do
  openTransaction
  update fun s =>
    { s with
      trades := updateWhere (fun r => r.id = trade)
        (fun r => { r with deletedAt := some now, updatedBy := author }) s.trades }
  update fun s =>
    { s with
      statuses := updateWhere (fun r => r.trade = trade)
        (fun r => { r with deletedAt := some now, updatedBy := author }) s.statuses }
  commit

end Session

open Session

/-- The statements of a write. -/
def Write.session (now : Instant) : Write → Session Unit
  | .putAssembly a removed => Session.putAssembly now a removed
  | .removeAssembly a => Session.removeAssembly now a
  | .addFigures fs completed => Session.addFigures now fs completed
  | .reviseFigures fs => Session.reviseFigures now fs
  | .certify trace certificates => Session.certify now trace certificates
  | .openTrade t status author => Session.openTrade now t status author
  | .reviseTrade t status author => Session.reviseTrade now t status author
  | .answerTrade trade trace status author => Session.answerTrade now trade trace status author
  | .cancelTrade trade reply author =>
    Session.endRequest now author trade .cancelled .cancel reply
  | .rejectTrade trade reply author =>
    Session.endRequest now author trade .rejected .reject reply
  | .deleteTrade trade author => Session.deleteTrade now trade author

/-- The statements of an operation: all that it reads, and then one write. -/
def Exchange.Operation.session (limits : TextLimits) (now : Instant) (caller : Uuid)
    (op : Exchange.Operation) : Session Exchange.Reply := do
  let planned ← liftExcept (← query (op.plan limits now caller))
  planned.1.session now
  return planned.2

end Footprint
