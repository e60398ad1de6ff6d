import Footprint.Rules.Number

namespace Footprint.Rules

open Enumerated

/-- One figure of each input kind and no others. -/
def kinds (fs : List Figure) : List Violation :=
  require (fs.length = 4) (.figureCount fs.length)
    ++ FigureKind.inputs.flatMap (fun k =>
      let count := fs.countP fun f => f.kind = k
      require (count = 1) (.kindCount k count))
    ++ (fs.filter fun f => !f.kind.isInput).map fun f => .notInput f.kind

/-- Agreement with the first figure. -/
def sharedFields (first : Figure) (fs : List Figure) : List Violation :=
  require (fs.all fun f => f.trace = first.trace) .tracesDiffer
    ++ require (fs.all fun f => f.setId = first.setId) .setIdsDiffer
    ++ require (fs.all fun f => f.unit = first.unit) .unitsDiffer

/-- The rules for one figure on its own. -/
def figure (f : Figure) : List Violation :=
  let name := literal f.kind
  require f.unit.isSome (.unitMissing f.kind)
    ++ optionalNumber (name ++ ".ghgEmission") f.emission
    ++ f.rating.components.flatMap (fun (component, value) =>
      optionalNumber (name ++ ".dqrValue." ++ component) value)
    ++ require (f.ratingKind = f.kind.ratingKind) (.ratingKindMismatch f.kind f.ratingKind)

def ofStage (stage : Stage) (fs : List Figure) : List Figure :=
  fs.filter fun f => f.kind.isInput && f.kind.stage = stage

/-- The emissions that are stated, added up in order. -/
def emissionSum (fs : List Figure) : Float :=
  (fs.filterMap (·.emission)).foldl (· + ·) 0

/-- The figures of one stage share their rating, and a positive rating is for a positive
emission. -/
def stage (stage : Stage) (fs : List Figure) : List Violation :=
  match ofStage stage fs with
  | [] => []
  | head :: tail =>
    require ((head :: tail).all fun f => f.rating.agrees head.rating) (.ratingsDiffer stage)
      ++ require (!head.rating.anyPositive || 0 < emissionSum (head :: tail))
        (.emissionNotPositive stage)

/-- All rules are checked and every violation is reported. -/
def figures (fs : List Figure) : List Violation :=
  kinds fs
    ++ match fs with
      | [] => []
      | first :: _ =>
        sharedFields first fs ++ fs.flatMap figure ++ stage .pre fs ++ stage .main fs

end Footprint.Rules
