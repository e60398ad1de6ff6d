import Footprint.Json.Value

namespace Footprint.Json

def dropSpace (cs : List Char) : List Char :=
  cs.dropWhile fun c => c == ' ' || c == '\n' || c == '\r' || c == '\t'

/-- A number as written: digits, a possible fraction, a possible power of ten. -/
structure Written where
  negative : Bool
  digits : Nat
  exponent : Int
  whole : Bool

/-- Whole numbers of 64 bits are integers, all others doubles; so is a negative zero. -/
def Written.value? (w : Written) : Option Json :=
  let n : Int := if w.negative then -w.digits else w.digits
  if w.whole && !(w.negative && w.digits == 0) && -Int.pow 2 63 ≤ n && n < Int.pow 2 64 then
    some (int n)
  else
    let x := Decimal.toFloat w.negative w.digits w.exponent
    if x.isFinite then some (float x) else none

def natOfDigits (cs : List Char) : Nat :=
  cs.foldl (fun n c => 10 * n + (c.toNat - 48)) 0

/-- The signed power of ten, zero when none is written. -/
def readExponent (cs : List Char) : Option (Option Int × List Char) :=
  match cs with
  | e :: rest =>
    if e = 'e' ∨ e = 'E' then
      let negative := rest.head? == some '-'
      let rest := if negative || rest.head? == some '+' then rest.drop 1 else rest
      let digits := rest.takeWhile Char.isDigit
      if digits.isEmpty then none
      else
        let n : Int := natOfDigits digits
        some (some (if negative then -n else n), rest.drop digits.length)
    else some (none, cs)
  | [] => some (none, [])

/-- No zero stands before other digits, and a point has digits on both sides. -/
def readNumber (cs : List Char) : Option (Written × List Char) := do
  let negative := cs.head? == some '-'
  let cs := if negative then cs.drop 1 else cs
  let whole := cs.takeWhile Char.isDigit
  if whole.isEmpty || (whole.head? == some '0' && 1 < whole.length) then none
  let cs := cs.drop whole.length
  let (fraction, cs) ← match cs with
    | '.' :: rest =>
      let digits := rest.takeWhile Char.isDigit
      if digits.isEmpty then none else some (digits, rest.drop digits.length)
    | cs => some ([], cs)
  let (exponent, cs) ← readExponent cs
  some
    (⟨negative, natOfDigits (whole ++ fraction), exponent.getD 0 - fraction.length,
      fraction.isEmpty && exponent.isNone⟩, cs)

def readWord (word : String) (value : Json) (cs : List Char) : Option (Json × List Char) :=
  if cs.take word.length = word.toList then some (value, cs.drop word.length) else none

/-- How many arrays and objects may lie in one another. -/
def maxDepth : Nat := 127

mutual

/-- A value at the start of the text and what follows it; `depth` more arrays and objects may open
inside one another. Each call costs one unit of fuel. -/
def readValue : Nat → Nat → List Char → Option (Json × List Char)
  | 0, _, _ => none
  | fuel + 1, depth, cs =>
    match dropSpace cs with
    | '"' :: rest => (readString none rest).map fun (s, rest) => (string (String.ofList s), rest)
    | '[' :: rest =>
      match depth, dropSpace rest with
      | 0, _ => none
      | _ + 1, ']' :: rest => some (array [], rest)
      | depth + 1, rest =>
        (readArray fuel depth rest).map fun (items, rest) => (array items, rest)
    | '\x7b' :: rest =>
      match depth, dropSpace rest with
      | 0, _ => none
      | _ + 1, '\x7d' :: rest => some (object [], rest)
      | depth + 1, rest =>
        (readObject fuel depth rest).map fun (fields, rest) => (object fields, rest)
    | 't' :: rest => readWord "true" (bool true) ('t' :: rest)
    | 'f' :: rest => readWord "false" (bool false) ('f' :: rest)
    | 'n' :: rest => readWord "null" null ('n' :: rest)
    | cs => (readNumber cs).bind fun (w, rest) => w.value?.map fun value => (value, rest)

/-- The items of an array and its closing bracket. -/
def readArray : Nat → Nat → List Char → Option (List Json × List Char)
  | 0, _, _ => none
  | fuel + 1, depth, cs =>
    match readValue fuel depth cs with
    | none => none
    | some (item, rest) =>
      match dropSpace rest with
      | ',' :: rest => (readArray fuel depth rest).map fun (items, rest) => (item :: items, rest)
      | ']' :: rest => some ([item], rest)
      | _ => none

/-- The fields of an object and its closing brace. -/
def readObject : Nat → Nat → List Char → Option (List (String × Json) × List Char)
  | 0, _, _ => none
  | fuel + 1, depth, cs =>
    match dropSpace cs with
    | '"' :: rest =>
      match readString none rest with
      | none => none
      | some (name, rest) =>
        match dropSpace rest with
        | ':' :: rest =>
          match readValue fuel depth rest with
          | none => none
          | some (value, rest) =>
            let entry := (String.ofList name, value)
            match dropSpace rest with
            | ',' :: rest =>
              (readObject fuel depth rest).map fun (fields, rest) => (entry :: fields, rest)
            | '\x7d' :: rest => some ([entry], rest)
            | _ => none
        | _ => none
    | _ => none

end

/-- The value of a whole text. Every call of the readers is made at a character of its own or
directly after one, so twice the length is fuel enough. -/
def parse? (s : String) : Option Json :=
  let cs := s.toList
  match readValue (2 * cs.length + 2) maxDepth cs with
  | some (value, rest) => if (dropSpace rest).isEmpty then some value else none
  | none => none

end Footprint.Json
