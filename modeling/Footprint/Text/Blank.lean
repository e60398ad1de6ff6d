namespace Footprint.Text

/-- The characters with the Unicode property White_Space. -/
def isBlank (c : Char) : Bool :=
  let n := c.toNat
  (0x09 ≤ n && n ≤ 0x0D) || n == 0x20 || n == 0x85 || n == 0xA0 || n == 0x1680
    || (0x2000 ≤ n && n ≤ 0x200A) || n == 0x2028 || n == 0x2029 || n == 0x202F || n == 0x205F
    || n == 0x3000

/-- Whether nothing is left after trimming. -/
def isBlankText (s : String) : Bool :=
  s.toList.all isBlank

theorem isBlankText_iff {s : String} : isBlankText s ↔ ∀ c ∈ s.toList, isBlank c := by
  rw [isBlankText, List.all_eq_true]

def dropBlanks (cs : List Char) : List Char :=
  cs.dropWhile isBlank

end Footprint.Text
