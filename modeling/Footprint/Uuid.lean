namespace Footprint

/-- An identifier of 128 bits. Its bytes are read from the most significant on, so identifiers are
ordered as numbers. -/
@[ext] structure Uuid where
  code : BitVec 128
deriving DecidableEq, Repr, Inhabited

namespace Uuid

/-- The identifier that stands for no part. -/
def nil : Uuid := ⟨0⟩

/-- The identifier made of random bits: four of them give way to version 4, two to the variant.
Every identifier that the program gives away is one of these. -/
def v4 (bits : BitVec 128) : Uuid :=
  ⟨bits &&& 0xffffffffffff0fff3fffffffffffffff#128 ||| 0x00000000000040008000000000000000#128⟩

theorem v4_version (bits : BitVec 128) :
    (v4 bits).code.extractLsb' 76 4 = 4#4 ∧ (v4 bits).code.extractLsb' 62 2 = 2#2 := by
  simp only [v4, BitVec.extractLsb'_or, BitVec.extractLsb'_and]
  constructor
  · have mask : BitVec.extractLsb' 76 4 0xffffffffffff0fff3fffffffffffffff#128 = 0#4 := by decide
    rw [mask, BitVec.and_zero]
    decide
  · have mask : BitVec.extractLsb' 62 2 0xffffffffffff0fff3fffffffffffffff#128 = 0#2 := by decide
    rw [mask, BitVec.and_zero]
    decide

theorem v4_ne_nil (bits : BitVec 128) : v4 bits ≠ nil := by
  intro h
  have version := (v4_version bits).1
  rw [h] at version
  revert version
  decide

instance : LE Uuid := ⟨fun a b => a.code ≤ b.code⟩
instance : LT Uuid := ⟨fun a b => a.code < b.code⟩
instance (a b : Uuid) : Decidable (a ≤ b) := inferInstanceAs (Decidable (a.code ≤ b.code))
instance (a b : Uuid) : Decidable (a < b) := inferInstanceAs (Decidable (a.code < b.code))

theorem le_iff (a b : Uuid) : a ≤ b ↔ a.code.toNat ≤ b.code.toNat := Iff.rfl

theorem lt_iff (a b : Uuid) : a < b ↔ a.code.toNat < b.code.toNat := Iff.rfl

theorem le_total (a b : Uuid) : a ≤ b ∨ b ≤ a := by
  simp only [le_iff]; omega

theorem le_trans {a b c : Uuid} (h : a ≤ b) (h' : b ≤ c) : a ≤ c := by
  simp only [le_iff] at *; omega

theorem le_antisymm {a b : Uuid} (h : a ≤ b) (h' : b ≤ a) : a = b := by
  simp only [le_iff] at *
  exact Uuid.ext (BitVec.eq_of_toNat_eq (by omega))

/-- The thirty-two hexadecimal digits. -/
def hex (u : Uuid) : List Char :=
  let digits := Nat.toDigits 16 u.code.toNat
  List.replicate (32 - digits.length) '0' ++ digits

/-- Cuts a list after each of the given counts and joins the pieces by hyphens. -/
def hyphenate : List Nat → List Char → List Char
  | [], cs => cs
  | n :: ns, cs => cs.take n ++ '-' :: hyphenate ns (cs.drop n)

/-- Undoes `hyphenate`; none when a hyphen is missing. -/
def dehyphenate : List Nat → List Char → Option (List Char)
  | [], cs => some cs
  | n :: ns, cs =>
    match cs.drop n with
    | '-' :: rest => (dehyphenate ns rest).map (cs.take n ++ ·)
    | _ => none

def text (u : Uuid) : String :=
  String.ofList (hyphenate [8, 4, 4, 4] u.hex)

def hexValue? (c : Char) : Option Nat :=
  if c.isDigit then some (c.toNat - 48)
  else if 'a' ≤ c ∧ c ≤ 'f' then some (c.toNat - 87)
  else if 'A' ≤ c ∧ c ≤ 'F' then some (c.toNat - 55)
  else none

def ofHex? (cs : List Char) : Option Uuid :=
  if cs.length = 32 then
    (cs.mapM hexValue?).map fun ds => ⟨BitVec.ofNat 128 (ds.foldl (16 * · + ·) 0)⟩
  else none

def ofHyphenated? (cs : List Char) : Option Uuid :=
  if cs.length = 36 then (dehyphenate [8, 4, 4, 4] cs).bind ofHex? else none

/-- The scheme of an identifier written as a name. -/
def urnScheme : List Char := "urn:uuid:".toList

/-- Reads thirty-two digits, the hyphenated form, that form in braces or behind `urn:uuid:`. Letters
may have either case. -/
def parse? (s : String) : Option Uuid :=
  let cs := s.toList
  if cs.length = 38 ∧ cs.head? = some '\x7b' ∧ cs.getLast? = some '\x7d' then
    ofHyphenated? (cs.drop 1).dropLast
  else if cs.length = 45 ∧ (cs.take 9).map Char.toLower = urnScheme then
    ofHyphenated? (cs.drop 9)
  else (ofHex? cs).orElse fun _ => ofHyphenated? cs

end Uuid

end Footprint
