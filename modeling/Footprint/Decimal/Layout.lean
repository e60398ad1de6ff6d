import Footprint.Decimal.Binary

namespace Footprint.Decimal

/-- The decisions of one way of writing doubles. -/
structure Layout where
  tie : Tie
  /-- Whole numbers end in `.0`. -/
  wholePoint : Bool
  /-- The least and greatest place of the decimal point, counted from the first digit, that is
  written without an exponent; every place when absent. -/
  positional : Option (Int × Int)
deriving Repr

/-- Messages write every digit, never an exponent and no point on whole numbers. -/
def Layout.message : Layout := ⟨.away, false, none⟩

/-- Documents write an exponent below `0.00001` and from `1e+16` on. -/
def Layout.document : Layout := ⟨.even, true, some (-4, 16)⟩

def zeros (n : Nat) : String :=
  String.ofList (List.replicate n '0')

/-- Digits with the point at `place`, counted from the first digit. -/
def positionalText (wholePoint : Bool) (digits : List Char) (place : Int) : String :=
  if digits.length ≤ place then
    String.ofList digits ++ zeros (place - digits.length).toNat ++ (if wholePoint then ".0" else "")
  else if 0 < place then
    String.ofList (digits.take place.toNat) ++ "." ++ String.ofList (digits.drop place.toNat)
  else "0." ++ zeros (-place).toNat ++ String.ofList digits

/-- Digits with the point after the first of them and a signed exponent. -/
def scientificText (digits : List Char) (place : Int) : String :=
  let exponent := place - 1
  let tail := digits.drop 1
  String.ofList (digits.take 1) ++ (if tail.isEmpty then "" else "." ++ String.ofList tail) ++ "e"
    ++ (if exponent < 0 then "-" else "+") ++ toString exponent.natAbs

def Layout.magnitude (l : Layout) (n : Numeral) : String :=
  let digits := Nat.toDigits 10 n.digits
  let place := if n.digits = 0 then 1 else digits.length + n.exponent
  match l.positional with
  | none => positionalText l.wholePoint digits place
  | some (low, high) =>
    if low ≤ place ∧ place ≤ high then positionalText l.wholePoint digits place
    else scientificText digits place

/-- The text of a double; the sign of zero is kept. -/
def Layout.text (l : Layout) (x : Float) : String :=
  if x.isNaN then "NaN"
  else
    (if isNegative x then "-" else "") ++
      (if x.isFinite then l.magnitude (shortest l.tie (.ofFloat x)) else "inf")

/-- The double nearest to `digits * 10 ^ exponent`. Exponents out of the range of doubles are
settled first. -/
def toFloat (negative : Bool) (digits : Nat) (exponent : Int) : Float :=
  let magnitude : Float :=
    if digits = 0 then 0
    else if 400 < decimalLength digits + exponent then 1 / 0
    else if decimalLength digits + exponent < -400 then 0
    else if exponent < 0 then Float.ofScientific digits true exponent.natAbs
    else Float.ofScientific digits false exponent.toNat
  if negative then -magnitude else magnitude

end Footprint.Decimal
