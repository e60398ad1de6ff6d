import Footprint.Exchange.Plan
import Footprint.Rules.Figures
import Footprint.Text.Blank

namespace Footprint.Exchange

/-- The status of a request whose answer has figures now. Each trade is counted on its own. -/
def completedStatus (tree : TreeState) (status : Status) : Status :=
  { status with progress := .completed, tree := tree, completedCount := 1, tradesCount := 1 }

/-- The pending statuses of the given trades, completed. -/
def completions (s : Store) (tree : TreeState) : List Trade → Except Error (List Status)
  | [] => .ok []
  | t :: ts => do
    let status ← s.statusOf? t.id
    let rest ← completions s tree ts
    match status with
    | some status =>
      if status.progress = .pending then .ok (completedStatus tree status :: rest) else .ok rest
    | none => .ok rest

/-- A stored figure with the values of a submitted one. -/
def revisedFigure (s : Store) (setId : Uuid) (f : Figure) : Except Error Figure := do
  match ← s.figure? setId f.kind with
  | none => .error (.figureNotFound setId f.kind)
  | some stored =>
    if stored.trace = f.trace then
      .ok
        { stored with
          emission := f.emission
          unit := f.unit
          ratingKind := f.ratingKind
          rating := f.rating }
    else refuseWith (.setOfOtherTrace setId)

/-- Registers a set of figures for a part of the caller under the identifier `id`, completing the
requests answered with the part. Figures that carry an identifier change the set of that
identifier instead. The result is the identifier of the set. -/
def putFigures (id caller : Uuid) (fs : List Figure) : Plan Uuid := fun s => do
  refuse (Rules.figures fs)
  match fs with
  | [] => refuseWith (.figureCount 0)
  | first :: _ =>
    match ← s.part? caller first.trace with
    | none => .error (.partNotFound first.trace)
    | some part =>
      match first.setId with
      | some setId =>
        let revised ← fs.mapM (revisedFigure s setId)
        .ok (.reviseFigures revised, setId)
      | none =>
        let stored ← s.figuresOf first.trace
        if stored.isEmpty then
          let completed ← completions s (.ofTerminal part.terminal)
            (s.tradesAnsweredWith first.trace)
          .ok (.addFigures (fs.map fun f => { f with setId := some id }) completed, id)
        else .error (.duplicateFigures first.trace)

/-- Replaces the certificates of the figures of one of the caller's parts. -/
def certify (caller trace : Uuid) (certificates : List String) : Plan Unit := fun s => do
  match ← s.part? caller trace with
  | none => .error (.partNotFound trace)
  | some _ =>
    if certificates.any Text.isBlankText then refuseWith .blankCertificate
    else
      let stored ← s.figuresOf trace
      if stored.isEmpty then refuseWith (.nothingToCertify trace)
      else .ok (.certify trace certificates, ())

end Footprint.Exchange
