import Footprint.Decimal.Layout
import Footprint.Instant

namespace Footprint.Toml

inductive Scalar where
  | integer (n : Int)
  | float (x : Float)
  | boolean (b : Bool)
  | datetime (text : String)

/-- Digits of a base, where single underscores may stand between two digits. -/
def groupedDigits (isDigit : Char → Bool) : List Char → Option (List Char)
  | [] => none
  | [d] => if isDigit d then some [d] else none
  | d :: '_' :: rest =>
    if isDigit d then (groupedDigits isDigit rest).map (d :: ·) else none
  | d :: rest => if isDigit d then (groupedDigits isDigit rest).map (d :: ·) else none

def digitValue (c : Char) : Nat :=
  if c.isDigit then c.toNat - 48 else if c.toNat < 97 then c.toNat - 55 else c.toNat - 87

def valueInBase (base : Nat) (ds : List Char) : Nat :=
  ds.foldl (fun n c => base * n + digitValue c) 0

def isHex (c : Char) : Bool :=
  c.isDigit || ('a' ≤ c && c ≤ 'f') || ('A' ≤ c && c ≤ 'F')

/-- Decimal digits without a leading zero. -/
def wholeDigits (cs : List Char) : Option (List Char) := do
  let ds ← groupedDigits Char.isDigit cs
  if ds.head? = some '0' ∧ 1 < ds.length then none else some ds

def splitSign : List Char → Bool × List Char
  | '-' :: cs => (true, cs)
  | '+' :: cs => (false, cs)
  | cs => (false, cs)

/-- Integers have 64 bits. -/
def inRange64 (n : Int) : Option Int :=
  if -Int.pow 2 63 ≤ n ∧ n < Int.pow 2 63 then some n else none

def integer? : List Char → Option Int
  | '0' :: 'x' :: cs =>
    (groupedDigits isHex cs).bind fun ds => inRange64 (valueInBase 16 ds)
  | '0' :: 'o' :: cs =>
    (groupedDigits (fun c => '0' ≤ c && c ≤ '7') cs).bind fun ds => inRange64 (valueInBase 8 ds)
  | '0' :: 'b' :: cs =>
    (groupedDigits (fun c => c == '0' || c == '1') cs).bind fun ds =>
      inRange64 (valueInBase 2 ds)
  | cs =>
    let (negative, cs) := splitSign cs
    (wholeDigits cs).bind fun ds =>
      let n : Int := valueInBase 10 ds
      inRange64 (if negative then -n else n)

/-- The text before a mark and, if the mark is there, the text after it. -/
def cutAt (isMark : Char → Bool) (cs : List Char) : List Char × Option (List Char) :=
  let before := cs.takeWhile fun c => !isMark c
  match cs.drop before.length with
  | [] => (before, none)
  | _ :: after => (before, some after)

/-- A whole part with a fraction, an exponent or both. -/
def decimalFloat? (cs : List Char) : Option Float := do
  let (negative, cs) := splitSign cs
  let (mantissa, exponent) := cutAt (fun c => c == 'e' || c == 'E') cs
  let (whole, fraction) := cutAt (· == '.') mantissa
  if exponent.isNone && fraction.isNone then none
  let whole ← wholeDigits whole
  let fraction ← match fraction with
    | some ds => groupedDigits Char.isDigit ds
    | none => some []
  let exponent : Int ← match exponent with
    | some es =>
      let (negative, ds) := splitSign es
      (groupedDigits Char.isDigit ds).map fun ds =>
        let n : Int := valueInBase 10 ds
        if negative then -n else n
    | none => some 0
  let x := Decimal.toFloat negative (valueInBase 10 (whole ++ fraction))
    (exponent - fraction.length)
  if !negative && !x.isFinite then none else some x

def float? (cs : List Char) : Option Float :=
  let (negative, word) := splitSign cs
  if word = ['i', 'n', 'f'] then some (if negative then -1 / 0 else 1 / 0)
  else if word = ['n', 'a', 'n'] then some (0 / 0)
  else decimalFloat? cs

/-- Exactly `count` digits, whose value lies within the bounds. -/
def digitField (count low high : Nat) (cs : List Char) : Option (Nat × List Char) :=
  let ds := cs.take count
  if ds.length = count ∧ ds.all Char.isDigit then
    let n := valueInBase 10 ds
    if low ≤ n ∧ n ≤ high then some (n, cs.drop count) else none
  else none

def expect (c : Char) : List Char → Option (List Char)
  | d :: cs => if c = d then some cs else none
  | [] => none

def date? (cs : List Char) : Option (List Char) := do
  let (year, cs) ← digitField 4 0 9999 cs
  let (month, cs) ← digitField 2 1 12 (← expect '-' cs)
  let (day, cs) ← digitField 2 1 31 (← expect '-' cs)
  if Instant.daysInMonth year month < day then none else some cs

def fraction? : List Char → Option (List Char)
  | '.' :: cs =>
    if (cs.head?.map Char.isDigit).getD false then some (cs.dropWhile Char.isDigit) else none
  | cs => some cs

def time? (cs : List Char) : Option (List Char) := do
  let (_, cs) ← digitField 2 0 23 cs
  let (_, cs) ← digitField 2 0 59 (← expect ':' cs)
  let (_, cs) ← digitField 2 0 60 (← expect ':' cs)
  fraction? cs

def offset? : List Char → Option (List Char)
  | 'Z' :: cs | 'z' :: cs => some cs
  | '+' :: cs | '-' :: cs => do
    let (_, cs) ← digitField 2 0 23 cs
    let (_, cs) ← digitField 2 0 59 (← expect ':' cs)
    some cs
  | cs => some cs

/-- A date, a time of day, or both with or without an offset. -/
def isDatetime (cs : List Char) : Bool :=
  match date? cs with
  | some [] => true
  | some (c :: rest) =>
    (c == 'T' || c == 't' || c == ' ') && ((time? rest).bind offset?) == some []
  | none => time? cs == some []

/-- A run of letters, digits and signs. What kind of value it is shows in its shape. -/
def scalar? (cs : List Char) : Option Scalar :=
  if cs = ['t', 'r', 'u', 'e'] then some (.boolean true)
  else if cs = ['f', 'a', 'l', 's', 'e'] then some (.boolean false)
  else if isDatetime cs then some (.datetime (String.ofList cs))
  else
    match integer? cs with
    | some n => some (.integer n)
    | none => (float? cs).map .float

end Footprint.Toml
