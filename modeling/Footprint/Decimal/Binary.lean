namespace Footprint.Decimal

/-- The number `significand * 2 ^ exponent`. -/
structure Binary where
  significand : Nat
  exponent : Int
deriving DecidableEq, Repr

/-- The magnitude of a finite double. A zero exponent field marks the subnormals, which lack the
leading bit. -/
def Binary.ofFloat (x : Float) : Binary :=
  let bits := x.toBits.toNat
  let field : Nat := bits / Nat.pow 2 52 % Nat.pow 2 11
  let fraction : Nat := bits % Nat.pow 2 52
  if field = 0 then ⟨fraction, -1074⟩ else ⟨Nat.pow 2 52 + fraction, field - 1075⟩

/-- The sign bit, which `-0.0` carries too. -/
def isNegative (x : Float) : Bool :=
  Nat.pow 2 63 ≤ x.toBits.toNat

/-- The numeral `digits * 10 ^ exponent`. -/
structure Numeral where
  digits : Nat
  exponent : Int
deriving DecidableEq, Repr

/-- Which of two equally near numerals is written. -/
inductive Tie where
  | away
  | even
deriving DecidableEq, Repr

/-- A positive `Binary` set against the grid of multiples of `10 ^ exponent`: after scaling, the
point `a` of the grid lies at `a * unit`, the number itself at `4 * significand * scale`. -/
structure Grid where
  unit : Nat
  scale : Nat
deriving Repr

def Grid.at (b : Binary) (exponent : Int) : Grid where
  unit := Nat.pow 10 exponent.toNat * 4 * Nat.pow 2 (-b.exponent).toNat
  scale := Nat.pow 10 (-exponent).toNat * Nat.pow 2 b.exponent.toNat

/-- Whether the grid point `a` reads back as `b`: it lies between the midpoints to the two
neighbours of `b`, the midpoints themselves belonging to even significands. Below a power of two
the lower neighbour is twice as near. -/
def Grid.readsBack (g : Grid) (b : Binary) (a : Nat) : Bool :=
  let below := if b.significand = Nat.pow 2 52 ∧ -1074 < b.exponent then 1 else 2
  let low := (4 * b.significand - below) * g.scale
  let high := (4 * b.significand + 2) * g.scale
  if b.significand % 2 = 0 then low ≤ a * g.unit && a * g.unit ≤ high
  else low < a * g.unit && a * g.unit < high

/-- The point of the grid that reads back as `b` and lies nearest to it. If any point does, one of
the two neighbours of `b` on the grid does. -/
def Grid.nearest? (tie : Tie) (g : Grid) (b : Binary) : Option Nat :=
  let value := 4 * b.significand * g.scale
  let down := value / g.unit
  let up := down + 1
  match g.readsBack b down, g.readsBack b up with
  | false, false => none
  | true, false => some down
  | false, true => some up
  | true, true =>
    let toDown := value - down * g.unit
    let toUp := up * g.unit - value
    if toDown < toUp then some down
    else if toUp < toDown then some up
    else match tie with
      | .away => some up
      | .even => if down % 2 = 0 then some down else some up

def decimalLength (n : Nat) : Nat :=
  (Nat.toDigits 10 n).length

/-- A power of ten above the number. -/
def Binary.ceiling (b : Binary) : Int :=
  decimalLength (b.significand * Nat.pow 2 b.exponent.toNat)
    - decimalLength (Nat.pow 2 (-b.exponent).toNat) + 1

/-- The numeral of fewest digits that reads back as `b`, and among those the nearest. Grids are
tried from coarse to fine; seventeen digits always suffice. -/
def shortest (tie : Tie) (b : Binary) : Numeral :=
  if b.significand = 0 then ⟨0, 0⟩
  else
    let top := b.ceiling
    ((List.range 21).findSome? fun (i : Nat) =>
      let exponent : Int := top - i
      ((Grid.at b exponent).nearest? tie b).map fun a => ⟨a, exponent⟩).getD ⟨0, 0⟩

/-- Digits after the decimal point of the shortest numeral of a finite double. -/
def fractionDigits (x : Float) : Nat :=
  (-(shortest .away (.ofFloat x)).exponent).toNat

end Footprint.Decimal
