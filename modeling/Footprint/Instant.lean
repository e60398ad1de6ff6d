import Footprint.Text.Blank

namespace Footprint

/-- A point of time in UTC, counted from the start of 1970. A leap second shares the count of the
second before it and has a billion nanoseconds or more. -/
@[ext] structure Instant where
  seconds : Int
  nanos : Nat
deriving DecidableEq, Repr, Inhabited

namespace Instant

/-- Earlier or equal. -/
def le (a b : Instant) : Bool :=
  a.seconds < b.seconds || (a.seconds == b.seconds && a.nanos ≤ b.nanos)

theorem le_iff (a b : Instant) :
    a.le b = true ↔ a.seconds < b.seconds ∨ a.seconds = b.seconds ∧ a.nanos ≤ b.nanos := by
  simp [le]

theorem le_total (a b : Instant) : a.le b || b.le a := by
  simp only [Bool.or_eq_true, le_iff]; omega

theorem le_trans {a b c : Instant} (h : a.le b) (h' : b.le c) : a.le c := by
  simp only [le_iff] at *; omega

def ofMicros (micros : Int) : Instant :=
  ⟨micros.fdiv 1000000, (micros.fmod 1000000).toNat * 1000⟩

/-- Days from 1 March of year 0 to the first of a month, in years that start in March. -/
def marchDay (month : Nat) : Nat :=
  (153 * month + 2) / 5

/-- Days since 1970 of a date of the proleptic Gregorian calendar. -/
def daysOfDate (year : Int) (month day : Nat) : Int :=
  let y := if month ≤ 2 then year - 1 else year
  let m := if month ≤ 2 then month + 9 else month - 3
  365 * y + y.fdiv 4 - y.fdiv 100 + y.fdiv 400 + marchDay m + day - 1 - 719468

/-- Year, month and day of a count of days since 1970. Four centuries have 146097 days. -/
def dateOfDays (days : Int) : Int × Nat × Nat :=
  let shifted := days + 719468
  let era := shifted.fdiv 146097
  let d := (shifted.fmod 146097).toNat
  let y := (d - d / 1460 + d / 36524 - d / 146096) / 365
  let rest := d - (365 * y + y / 4 - y / 100)
  let m := (5 * rest + 2) / 153
  let month := if m < 10 then m + 3 else m - 9
  (era * 400 + y + (if month ≤ 2 then 1 else 0), month, rest - marchDay m + 1)

/-- The first second of the first year that instants reach. -/
def firstSecond : Int :=
  daysOfDate (-262143) 1 1 * 86400

/-- The last second of the last year that instants reach. -/
def lastSecond : Int :=
  daysOfDate 262142 12 31 * 86400 + 86399

def inReach (seconds : Int) : Bool :=
  firstSecond ≤ seconds && seconds ≤ lastSecond

def isLeapYear (year : Int) : Bool :=
  year % 4 == 0 && (year % 100 != 0 || year % 400 == 0)

def daysInMonth (year : Int) : Nat → Nat
  | 2 => if isLeapYear year then 29 else 28
  | 4 | 6 | 9 | 11 => 30
  | _ => 31

def padded (width n : Nat) : String :=
  let digits := Nat.toDigits 10 n
  String.ofList (List.replicate (width - digits.length) '0' ++ digits)

/-- Years outside 0 to 9999 carry a sign. -/
def yearText (year : Int) : String :=
  if 0 ≤ year ∧ year ≤ 9999 then padded 4 year.toNat
  else (if year < 0 then "-" else "+") ++ padded 4 year.natAbs

/-- No fraction, or as many of three, six and nine digits as are exact. -/
def fractionText (nanos : Nat) : String :=
  if nanos = 0 then ""
  else if nanos % 1000000 = 0 then "." ++ padded 3 (nanos / 1000000)
  else if nanos % 1000 = 0 then "." ++ padded 6 (nanos / 1000)
  else "." ++ padded 9 nanos

/-- Date and time of day in UTC, without the offset. -/
def localText (t : Instant) : String :=
  let (year, month, day) := dateOfDays (t.seconds.fdiv 86400)
  let clock := (t.seconds.fmod 86400).toNat
  let leap := t.nanos / 1000000000
  yearText year ++ "-" ++ padded 2 month ++ "-" ++ padded 2 day ++ "T"
    ++ padded 2 (clock / 3600) ++ ":" ++ padded 2 (clock / 60 % 60) ++ ":"
    ++ padded 2 (clock % 60 + leap) ++ fractionText (t.nanos % 1000000000)

def text (t : Instant) : String :=
  t.localText ++ "Z"

/-- The text kept in a column. -/
def columnText (t : Instant) : String :=
  t.localText ++ "+00:00"

/-- The order of a column of times, which is that of their texts. It is the order in time for the
years 0 to 9999; years with a sign come before them. -/
def columnLe (a b : Instant) : Bool :=
  a.columnText ≤ b.columnText

def digitsValue (cs : List Char) : Nat :=
  cs.foldl (fun n c => 10 * n + (c.toNat - 48)) 0

/-- At least one digit and at most `width`, after blanks. Like every reader it takes what it needs
and hands on the rest. -/
def readNumber (width : Nat) (cs : List Char) : Option (Nat × List Char) :=
  let cs := Text.dropBlanks cs
  let digits := (cs.takeWhile Char.isDigit).take width
  if digits.isEmpty then none else some (digitsValue digits, cs.drop digits.length)

/-- Four digits at most, or any number of them behind a sign. -/
def readYear (cs : List Char) : Option (Int × List Char) :=
  match Text.dropBlanks cs with
  | '-' :: rest =>
    if (rest.head?.map Char.isDigit).getD false then
      (readNumber rest.length rest).map fun (n, rest) => (-(n : Int), rest)
    else none
  | '+' :: rest =>
    if (rest.head?.map Char.isDigit).getD false then
      (readNumber rest.length rest).map fun (n, rest) => ((n : Int), rest)
    else none
  | rest => (readNumber 4 rest).map fun (n, rest) => ((n : Int), rest)

/-- The mark between two numbers, after blanks. -/
def readMark (mark : Char) (cs : List Char) : Option (List Char) :=
  match Text.dropBlanks cs with
  | c :: rest => if c = mark then some rest else none
  | [] => none

/-- The nanoseconds of a fraction; digits past the ninth are dropped. -/
def readFraction : List Char → Option (Nat × List Char)
  | '.' :: rest =>
    let digits := rest.takeWhile Char.isDigit
    if digits.isEmpty then none
    else
      let kept := digits.take 9
      some (digitsValue kept * Nat.pow 10 (9 - kept.length), rest.drop digits.length)
  | rest => some (0, rest)

def readTwoDigits : List Char → Option (Nat × List Char)
  | a :: b :: rest =>
    if a.isDigit && b.isDigit then some (digitsValue [a, b], rest) else none
  | _ => none

/-- Seconds east of UTC. -/
def readOffset (cs : List Char) : Option (Int × List Char) :=
  match Text.dropBlanks cs with
  | 'Z' :: rest | 'z' :: rest => some (0, rest)
  | sign :: rest =>
    if sign.toUpper = 'U' then
      if ((sign :: rest).take 3).map Char.toUpper = ['U', 'T', 'C'] then some (0, rest.drop 2)
      else none
    else if sign = '+' ∨ sign = '-' ∨ sign = '\u2212' then do
      let (hours, rest) ← readTwoDigits rest
      let rest := rest.dropWhile fun c => c == ':' || Text.isBlank c
      let (minutes, rest) ← readTwoDigits rest
      if 60 ≤ minutes ∨ 24 ≤ hours then none
      else
        let seconds : Int := hours * 3600 + minutes * 60
        some (if sign = '+' then seconds else -seconds, rest)
    else none
  | [] => none

/-- Reads a date, the letter T or a blank, a time of day and an offset. Blanks may stand between
them, and a leap second is kept. The time is in reach both where it was written and in UTC. -/
def parse? (s : String) : Option Instant := do
  let (year, cs) ← readYear s.toList
  let (month, cs) ← readNumber 2 (← readMark '-' cs)
  let (day, cs) ← readNumber 2 (← readMark '-' cs)
  let cs ← match cs with
    | 'T' :: rest | 't' :: rest | ' ' :: rest => some rest
    | _ => none
  let (hour, cs) ← readNumber 2 cs
  let (minute, cs) ← readNumber 2 (← readMark ':' cs)
  let (second, cs) ← readNumber 2 (← readMark ':' cs)
  let (nanos, cs) ← readFraction cs
  let (offset, cs) ← readOffset cs
  if ¬ (Text.dropBlanks cs).isEmpty then none
  else if month = 0 ∨ 12 < month ∨ day = 0 ∨ daysInMonth year month < day then none
  else if 24 ≤ hour ∨ 60 ≤ minute ∨ 61 ≤ second then none
  else
    let leap := if second = 60 then 1 else 0
    let there := daysOfDate year month day * 86400
      + (hour * 3600 + minute * 60 + (second - leap) : Nat)
    if inReach there && inReach (there - offset) then
      some ⟨there - offset, nanos + leap * 1000000000⟩
    else none

end Instant

end Footprint
