import Footprint.Figure.Guard
import Footprint.Store.Basic

namespace Footprint.Exchange

/-- How a part comes by its figures. -/
inductive PartClass where
  /-- They are stated for the part itself. -/
  | terminal (isParent : Bool)
  /-- They come from the supplier. -/
  | imported
  /-- They are its own with the contributions of its children. -/
  | parent (children : List Part)
deriving DecidableEq

def classOf (s : Store) (p : Part) : Except Error PartClass := do
  let isParent := s.isParent p.trace
  if p.terminal then .ok (.terminal isParent)
  else if isParent then
    let a ← s.assembly? p.operator p.trace
    match (a.map (·.children)).getD [] with
    | [] => .ok .imported
    | child :: children => .ok (.parent (child :: children))
  else .ok .imported

/-- The set of figures stored for a part. -/
def storedSet (s : Store) (trace : Uuid) : Except Error (Option FigureSet) := do
  let fs ← s.figuresOf trace
  FigureSet.ofFigures trace fs

/-- The nearest whole number; halves go away from zero. -/
def roundWhole (x : Float) : Float :=
  let b := Decimal.Binary.ofFloat x
  if x.isFinite && b.exponent < 0 then
    let half := Nat.pow 2 (b.exponent.natAbs - 1)
    let whole := Float.ofNat ((b.significand + half) / (2 * half))
    if Decimal.isNegative x then -whole else whole
  else x

/-- Footprints are stated with five decimals. -/
def fiveDecimals (x : Float) : Float :=
  roundWhole (x * 100000) / 100000

/-- What the components of a parent add up to. -/
@[ext] structure Components where
  pre : Float
  main : Float
deriving DecidableEq

/-- The figures of a parent and their four totals. -/
def totalled (set : FigureSet) (components : Components) : List Figure :=
  set.figures ++
    [ set.driver.derive .preProductionTotal (set.emission? .preProduction),
      set.driver.derive .mainProductionTotal (set.emission? .mainProduction),
      set.driver.derive .preComponentTotal (some (fiveDecimals components.pre)),
      set.driver.derive .mainComponentTotal (some (fiveDecimals components.main)) ]

/-- One production figure of a supplier as the requester sees it. -/
def responseFigure (supplied : FigureSet) (trace : Uuid) (kind response : FigureKind) : Figure :=
  { supplied.driver.derive response (supplied.emission? kind) with setId := none, trace := trace }

/-- The production figures of a supplier as the requester sees them. -/
def responses (supplied : FigureSet) (trace : Uuid) : List Figure :=
  [FigureKind.preProduction, .mainProduction].filterMap fun kind =>
    kind.response?.map (responseFigure supplied trace kind)

/-- The answer for a part nobody was asked about. -/
def blankResponses (trace : Uuid) : List Figure :=
  [FigureKind.preProductionResponse, .mainProductionResponse].map fun kind =>
    { setId := none
      trace := trace
      emission := none
      unit := none
      kind := kind
      ratingKind := kind.ratingKind
      rating := .empty
      certificates := [] }

/-- The supplier's set for a part, if the supplier named its part and that has figures. -/
def suppliedSet (s : Store) (trace : Uuid) : Except Error (Option FigureSet) :=
  match (s.requestFor? trace).bind (·.supplierPart) with
  | some part => storedSet s part
  | none => .ok none

/-- The set a child contributes. -/
def contribution (s : Store) (child : Part) : Except Error (Option FigureSet) :=
  if child.terminal then storedSet s child.trace else suppliedSet s child.trace

/-- Adds what one child contributes. All have to be declared against the unit of the parent. -/
def addChild (s : Store) (trace : Uuid) (unit : Option DeclaredUnit) (c : Components)
    (child : Part) : Except Error Components := do
  match ← contribution s child with
  | none => .ok c
  | some set =>
    if set.unit = unit then
      .ok
        ⟨c.pre + (set.emission? .preProduction).getD 0,
          c.main + (set.emission? .mainProduction).getD 0⟩
    else .error (.inconsistent .unit trace)

/-- The figures that stand for a part; none when there are none to show. -/
def partFigures? (s : Store) (p : Part) : Except Error (Option (List Figure)) := do
  match ← classOf s p with
  | .terminal isParent =>
    match ← storedSet s p.trace with
    | none => .ok none
    | some set => .ok (some (if isParent then totalled set ⟨0, 0⟩ else set.figures))
  | .imported =>
    match s.requestFor? p.trace with
    | none => .ok (some (blankResponses p.trace))
    | some t =>
      match t.supplierPart with
      | none => .ok none
      | some part =>
        let set ← storedSet s part
        .ok (set.map fun set => responses set p.trace)
  | .parent children =>
    match ← storedSet s p.trace with
    | none => .ok none
    | some set =>
      let components ← children.foldlM (addChild s p.trace set.unit) ⟨0, 0⟩
      .ok (some (totalled set components))

/-- The figures of one of the operator's parts, none when there is no such part. -/
def vector (s : Store) (operator trace : Uuid) : Except Error (List Figure) := do
  match ← s.part? operator trace with
  | none => .ok []
  | some p =>
    let fs ← partFigures? s p
    .ok (fs.getD [])

/-- The figures of the operator's parts, in the order asked for. -/
def figuresFor (s : Store) (operator : Uuid) (traces : List Uuid) : Except Error (List Figure) := do
  let vectors ← traces.mapM (vector s operator)
  .ok vectors.flatten

end Footprint.Exchange
