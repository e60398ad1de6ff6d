namespace Footprint.Json

def hexDigit (n : Nat) : Char :=
  if n < 10 then Char.ofNat (48 + n) else Char.ofNat (87 + n)

/-- Quotes, backslashes and control characters are escaped, nothing else is. -/
def escapeChar (c : Char) : List Char :=
  match c with
  | '"' => ['\\', '"']
  | '\\' => ['\\', '\\']
  | '\x08' => ['\\', 'b']
  | '\x0c' => ['\\', 'f']
  | '\n' => ['\\', 'n']
  | '\r' => ['\\', 'r']
  | '\t' => ['\\', 't']
  | c =>
    if c.toNat < 32 then
      ['\\', 'u', '0', '0', hexDigit (c.toNat / 16), hexDigit (c.toNat % 16)]
    else [c]

def escape (cs : List Char) : List Char :=
  cs.flatMap escapeChar

/-- A string with its quotes. -/
def quote (s : String) : List Char :=
  '"' :: escape s.toList ++ ['"']

def hexValue? (c : Char) : Option Nat :=
  if c.isDigit then some (c.toNat - 48)
  else if 'a' ≤ c ∧ c ≤ 'f' then some (c.toNat - 87)
  else if 'A' ≤ c ∧ c ≤ 'F' then some (c.toNat - 55)
  else none

/-- The number written by four hexadecimal digits. -/
def hexUnit? (a b c d : Char) : Option Nat := do
  some (((← hexValue? a) * 16 + (← hexValue? b)) * 256
    + ((← hexValue? c) * 16 + (← hexValue? d)))

/-- The character named by the letter after a backslash. -/
def unescapeLetter? : Char → Option Char
  | '"' => some '"'
  | '\\' => some '\\'
  | '/' => some '/'
  | 'b' => some '\x08'
  | 'f' => some '\x0c'
  | 'n' => some '\n'
  | 'r' => some '\r'
  | 't' => some '\t'
  | _ => none

/-- What a unit contributes after a pending first half of a pair: the half that is pending now and
the character, if one is complete. A half never stands alone. -/
def joinUnit (pending : Option Nat) (unit : Nat) : Option (Option Nat × List Char) :=
  match pending with
  | none =>
    if 0xD800 ≤ unit ∧ unit < 0xDC00 then some (some unit, [])
    else if 0xDC00 ≤ unit ∧ unit < 0xE000 then none
    else some (none, [Char.ofNat unit])
  | some high =>
    if 0xDC00 ≤ unit ∧ unit < 0xE000 then
      some (none, [Char.ofNat (0x10000 + (high - 0xD800) * 0x400 + (unit - 0xDC00))])
    else none

/-- Reads up to the closing quote and hands on what follows it. -/
def readString (pending : Option Nat) : List Char → Option (List Char × List Char)
  | [] => none
  | '"' :: rest => if pending.isNone then some ([], rest) else none
  | '\\' :: 'u' :: a :: b :: c :: d :: rest =>
    match (hexUnit? a b c d).bind (joinUnit pending) with
    | some (pending, done) => (readString pending rest).map fun (s, rest) => (done ++ s, rest)
    | none => none
  | '\\' :: letter :: rest =>
    match unescapeLetter? letter with
    | some c =>
      if pending.isNone then (readString none rest).map fun (s, rest) => (c :: s, rest) else none
    | none => none
  | c :: rest =>
    if c.toNat < 32 ∨ c = '\\' ∨ pending.isSome then none
    else (readString none rest).map fun (s, rest) => (c :: s, rest)

/-- Strings separated by commas, each in quotes. -/
def quoteItems : List String → List Char
  | [] => []
  | [s] => quote s
  | s :: ss => quote s ++ ',' :: quoteItems ss

/-- A compact array of strings. -/
def quoteList (ss : List String) : String :=
  String.ofList ('[' :: quoteItems ss ++ [']'])

def readItems : Nat → List Char → Option (List String)
  | 0, _ => none
  | fuel + 1, '"' :: cs =>
    match readString none cs with
    | some (s, ',' :: rest) => (readItems fuel rest).map (String.ofList s :: ·)
    | some (s, [']']) => some [String.ofList s]
    | _ => none
  | _, _ => none

/-- Reads a compact array of strings. -/
def readList (s : String) : Option (List String) :=
  match s.toList with
  | ['[', ']'] => some []
  | '[' :: cs => readItems cs.length cs
  | _ => none

theorem hexUnit?_control (n : Nat) (h : n < 32) :
    hexUnit? '0' '0' (hexDigit (n / 16)) (hexDigit (n % 16)) = some n := by
  revert h; revert n; decide

theorem joinUnit_toNat (c : Char) (h : c.toNat < 32) :
    joinUnit none c.toNat = some (none, [c]) := by
  simp [joinUnit, Char.ofNat_toNat, show ¬ 0xD800 ≤ c.toNat by omega,
    show ¬ 0xDC00 ≤ c.toNat by omega]

theorem readString_escapeChar (c : Char) (cs : List Char) :
    readString none (escapeChar c ++ cs) =
      (readString none cs).map fun (s, rest) => (c :: s, rest) := by
  unfold escapeChar
  split
  any_goals rfl
  next hq hb _ _ _ _ _ =>
    split
    next h => simp [readString, hexUnit?_control c.toNat h, joinUnit_toNat c h]
    next h =>
      have hb' : c ≠ '\\' := hb
      rw [List.cons_append, List.nil_append, readString]
      · simp [h, hb']
      · exact hq
      · intro a b c d e hc; exact absurd hc hb
      · intro a b hc; exact absurd hc hb

theorem readString_escape (cs rest : List Char) :
    readString none (escape cs ++ '"' :: rest) = some (cs, rest) := by
  induction cs with
  | nil => rfl
  | cons c cs ih =>
    rw [escape, List.flatMap_cons, List.append_assoc, readString_escapeChar, ← escape, ih]
    rfl

theorem quote_append (s : String) (rest : List Char) :
    quote s ++ rest = '"' :: (escape s.toList ++ '"' :: rest) := by
  simp [quote]

theorem length_lt_quoteItems (s : String) (ss : List String) :
    ss.length < (quoteItems (s :: ss)).length := by
  induction ss generalizing s with
  | nil => simp [quoteItems, quote]
  | cons t ts ih =>
    have := ih t
    simp only [quoteItems, quote, List.length_append, List.length_cons] at *
    omega

theorem readItems_quoteItems (s : String) (ss : List String) (fuel : Nat)
    (h : ss.length < fuel) :
    readItems fuel (quoteItems (s :: ss) ++ [']']) = some (s :: ss) := by
  induction ss generalizing s fuel with
  | nil =>
    obtain ⟨fuel, rfl⟩ : ∃ n, fuel = n + 1 := ⟨fuel - 1, by simp at h; omega⟩
    rw [quoteItems, quote_append, readItems, readString_escape]
    simp
  | cons t ts ih =>
    obtain ⟨fuel, rfl⟩ : ∃ n, fuel = n + 1 := ⟨fuel - 1, by simp at h; omega⟩
    have hts : ts.length < fuel := by simp at h; omega
    rw [quoteItems, List.append_assoc, List.cons_append, quote_append, readItems,
      readString_escape]
    · simp [ih t fuel hts]
    · simp

/-- Every list of strings is read back from its text. -/
theorem readList_quoteList (ss : List String) : readList (quoteList ss) = some ss := by
  cases ss with
  | nil => rfl
  | cons s ss =>
    have hitems := length_lt_quoteItems s ss
    have hne : quoteItems (s :: ss) ++ [']'] ≠ [']'] := by
      intro h
      have := congrArg List.length h
      simp only [List.length_append, List.length_cons, List.length_nil] at this
      omega
    rw [readList, quoteList, String.toList_ofList, List.cons_append]
    split
    next h => exact absurd (List.cons.inj h).2 hne
    next cs _ h =>
      obtain rfl := (List.cons.inj h).2
      exact readItems_quoteItems s ss _ (by simp; omega)
    next h => exact absurd rfl (h _)

end Footprint.Json
