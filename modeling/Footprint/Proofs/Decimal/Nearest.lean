import Footprint.Decimal.Binary
import Mathlib

namespace Footprint.Decimal

namespace Binary

/-- A significand of 53 bits, or of fewer with the least exponent. -/
structure IsDouble (b : Binary) : Prop where
  bits : b.significand < 2 ^ 53
  full : b.exponent = -1074 ∨ -1074 < b.exponent ∧ 2 ^ 52 ≤ b.significand

def value (b : Binary) : ℚ :=
  b.significand * 2 ^ b.exponent

/-- A number is read as the double that is nearest to it. Of two that are equally near it is the one
with the even significand. -/
def Reads (b : Binary) (q : ℚ) : Prop :=
  ∀ c : Binary, c.IsDouble → c.value ≠ b.value →
    |q - b.value| < |q - c.value| ∨ |q - b.value| = |q - c.value| ∧ b.significand % 2 = 0

/-- Whether the next smaller double is twice as near as the next greater one. -/
def isNarrow (b : Binary) : Prop :=
  b.significand = 2 ^ 52 ∧ -1074 < b.exponent

instance (b : Binary) : Decidable b.isNarrow :=
  inferInstanceAs (Decidable (_ ∧ _))

/-- The distance to the next smaller double in units of the last place. -/
def step (b : Binary) : ℚ :=
  if b.isNarrow then 1 / 2 else 1

def pred (b : Binary) : Binary :=
  if b.isNarrow then ⟨2 ^ 53 - 1, b.exponent - 1⟩ else ⟨b.significand - 1, b.exponent⟩

def succ (b : Binary) : Binary :=
  if b.significand + 1 = 2 ^ 53 then ⟨2 ^ 52, b.exponent + 1⟩ else ⟨b.significand + 1, b.exponent⟩

variable {b c : Binary} {q : ℚ}

theorem isDouble_ofFloat (x : Float) : (ofFloat x).IsDouble := by
  have hfraction : x.toBits.toNat % 2 ^ 52 < 2 ^ 52 := Nat.mod_lt _ (by positivity)
  rw [ofFloat]
  simp only [Nat.pow_eq]
  split
  · exact ⟨hfraction.trans (by norm_num), Or.inl rfl⟩
  · refine ⟨by simp only; omega, ?_⟩
    simp only
    omega

theorem unit_pos (b : Binary) : (0 : ℚ) < 2 ^ b.exponent := by positivity

theorem value_succ (b : Binary) : b.succ.value = (b.significand + 1) * 2 ^ b.exponent := by
  rw [succ]
  split
  · rename_i htop
    have htop : (b.significand : ℚ) + 1 = 2 ^ 53 := by exact_mod_cast htop
    rw [value, htop, zpow_add_one₀ two_ne_zero]
    push_cast
    ring
  · simp [value]

theorem value_pred (hpos : 0 < b.significand) :
    b.pred.value = (b.significand - b.step) * 2 ^ b.exponent := by
  rw [pred, step]
  split
  · rename_i hnarrow
    rw [value, hnarrow.1, zpow_sub_one₀ two_ne_zero]
    push_cast
    ring
  · rw [value, Nat.cast_sub hpos, Nat.cast_one]

theorem IsDouble.succ (h : b.IsDouble) : b.succ.IsDouble := by
  obtain ⟨hbits, hfull⟩ := h
  rw [Binary.succ]
  split
  · exact ⟨by norm_num, by simp only; omega⟩
  · exact ⟨by simp only; omega, by simp only; omega⟩

theorem IsDouble.pred (h : b.IsDouble) : b.pred.IsDouble := by
  obtain ⟨hbits, hfull⟩ := h
  rw [Binary.pred]
  split
  · rename_i hnarrow
    obtain ⟨hsignificand, hexponent⟩ := hnarrow
    exact ⟨by norm_num, by simp only; omega⟩
  · rename_i hwide
    rw [isNarrow] at hwide
    exact ⟨by simp only; omega, by simp only; omega⟩

/-- At a greater exponent a double is a multiple of the smaller unit. -/
theorem exists_value_of_le (h : b.exponent ≤ c.exponent) :
    ∃ n : ℕ, c.value = n * 2 ^ b.exponent := by
  obtain ⟨k, hk⟩ := Int.le.dest h
  refine ⟨c.significand * 2 ^ k, ?_⟩
  rw [value, ← hk, zpow_add₀ two_ne_zero, zpow_natCast]
  push_cast
  ring

/-- At a smaller exponent a double stays below the first one of the next exponent. -/
theorem IsDouble.value_le_of_lt (hc : c.IsDouble) (h : c.exponent < b.exponent) :
    c.value ≤ (2 ^ 52 - 1 / 2) * 2 ^ b.exponent := by
  have hbits : (c.significand : ℚ) + 1 ≤ 2 ^ 53 := by exact_mod_cast hc.bits
  have hexponent : (2 : ℚ) ^ c.exponent ≤ 2 ^ (b.exponent - 1) :=
    zpow_le_zpow_right₀ one_le_two (by omega)
  calc c.value ≤ (2 ^ 53 - 1) * 2 ^ (b.exponent - 1) := by
        exact mul_le_mul (by linarith) hexponent c.unit_pos.le (by norm_num)
    _ = (2 ^ 52 - 1 / 2) * 2 ^ b.exponent := by
        rw [zpow_sub_one₀ two_ne_zero]
        ring

/-- No double lies between two neighbours. -/
theorem succ_le_of_lt (hb : b.IsDouble) (hc : c.IsDouble) (h : b.value < c.value) :
    b.succ.value ≤ c.value := by
  rw [value_succ]
  rcases le_or_gt b.exponent c.exponent with hle | hlt
  · obtain ⟨n, hn⟩ := exists_value_of_le hle
    rw [hn, value] at h
    rw [hn]
    have hlt : b.significand < n := by exact_mod_cast lt_of_mul_lt_mul_right h b.unit_pos.le
    have hle : (b.significand : ℚ) + 1 ≤ n := by exact_mod_cast hlt
    exact mul_le_mul_of_nonneg_right hle b.unit_pos.le
  · have hfull : (2 : ℚ) ^ 52 ≤ b.significand := by
      have hfull := hb.full
      have hleast := hc.full
      exact_mod_cast (by omega : 2 ^ 52 ≤ b.significand)
    have hbelow := hc.value_le_of_lt hlt
    have := b.unit_pos
    rw [value] at h
    nlinarith

theorem le_pred_of_lt (hb : b.IsDouble) (hc : c.IsDouble) (hpos : 0 < b.significand)
    (h : c.value < b.value) : c.value ≤ b.pred.value := by
  rw [value_pred hpos]
  rcases le_or_gt b.exponent c.exponent with hle | hlt
  · obtain ⟨n, hn⟩ := exists_value_of_le hle
    rw [hn, value] at h
    rw [hn]
    have hlt : n < b.significand := by exact_mod_cast lt_of_mul_lt_mul_right h b.unit_pos.le
    have hle : (n : ℚ) + 1 ≤ b.significand := by exact_mod_cast hlt
    refine mul_le_mul_of_nonneg_right ?_ b.unit_pos.le
    rw [step]
    split <;> linarith
  · refine (hc.value_le_of_lt hlt).trans (mul_le_mul_of_nonneg_right ?_ b.unit_pos.le)
    have hfull := hb.full
    have hleast := hc.full
    rw [step]
    split
    · rename_i hnarrow
      rw [hnarrow.1]
      norm_num
    · rename_i hwide
      rw [isNarrow] at hwide
      have hmore : (2 : ℚ) ^ 52 + 1 ≤ b.significand := by
        exact_mod_cast (by omega : 2 ^ 52 + 1 ≤ b.significand)
      linarith

/-- The midpoint to the next smaller double. -/
def low (b : Binary) : ℚ :=
  (b.significand - b.step / 2) * 2 ^ b.exponent

/-- The midpoint to the next greater double. -/
def high (b : Binary) : ℚ :=
  (b.significand + 1 / 2) * 2 ^ b.exponent

/-- The numbers between the midpoints, which belong to it when the significand is even. -/
def interval (b : Binary) : Set ℚ :=
  if b.significand % 2 = 0 then Set.Icc b.low b.high else Set.Ioo b.low b.high

theorem mem_interval : q ∈ b.interval ↔
    (b.low < q ∨ q = b.low ∧ b.significand % 2 = 0) ∧
      (q < b.high ∨ q = b.high ∧ b.significand % 2 = 0) := by
  rw [interval]
  split
  · rename_i heven
    simp only [heven, and_true, Set.mem_Icc, le_iff_lt_or_eq, eq_comm (a := q)]
  · rename_i hodd
    simp [hodd]

instance (b : Binary) : b.interval.OrdConnected := by
  rw [interval]
  split
  · exact Set.ordConnected_Icc
  · exact Set.ordConnected_Ioo

theorem low_eq (hpos : 0 < b.significand) : b.low = (b.pred.value + b.value) / 2 := by
  rw [low, value_pred hpos, value]
  ring

theorem high_eq (b : Binary) : b.high = (b.value + b.succ.value) / 2 := by
  rw [high, value_succ, value]
  ring

theorem value_lt_succ (b : Binary) : b.value < b.succ.value := by
  rw [value_succ, value]
  exact mul_lt_mul_of_pos_right (lt_add_one _) b.unit_pos

theorem pred_lt_value (hpos : 0 < b.significand) : b.pred.value < b.value := by
  have hstep : 0 < b.step := by
    rw [step]
    split <;> norm_num
  rw [value_pred hpos, value]
  exact mul_lt_mul_of_pos_right (sub_lt_self _ hstep) b.unit_pos

end Binary

variable {b : Binary} {v w q : ℚ}

theorem nearer_iff_of_lt (h : v < w) : |q - v| < |q - w| ↔ q < (v + w) / 2 := by
  rw [← sq_lt_sq]
  constructor <;> intro h' <;> nlinarith

theorem nearer_iff_of_gt (h : w < v) : |q - v| < |q - w| ↔ (w + v) / 2 < q := by
  rw [← sq_lt_sq]
  constructor <;> intro h' <;> nlinarith

theorem equally_near_iff (h : v ≠ w) : |q - v| = |q - w| ↔ q = (v + w) / 2 := by
  rw [← sq_eq_sq_iff_abs_eq_abs]
  constructor
  · intro h'
    have hproduct : (w - v) * (2 * q - v - w) = 0 := by linarith
    rcases mul_eq_zero.1 hproduct with h' | h'
    · exact absurd (sub_eq_zero.1 h').symm h
    · linarith
  · rintro rfl
    ring

/-- It is enough to look at the two neighbours. -/
theorem Binary.reads_iff (hb : b.IsDouble) (hpos : 0 < b.significand) :
    b.Reads q ↔ q ∈ b.interval := by
  have hlow := pred_lt_value hpos
  have hhigh := b.value_lt_succ
  rw [mem_interval, low_eq hpos, high_eq]
  constructor
  · intro h
    refine ⟨(h b.pred hb.pred hlow.ne).imp (nearer_iff_of_gt hlow).1 (And.imp_left ?_),
      (h b.succ hb.succ hhigh.ne').imp (nearer_iff_of_lt hhigh).1 (And.imp_left ?_)⟩
    · rw [equally_near_iff hlow.ne', add_comm]
      exact id
    · exact (equally_near_iff hhigh.ne).1
  · rintro ⟨hlower, hupper⟩ c hc hne
    rcases lt_or_gt_of_ne hne with hlt | hgt
    · have hle := le_pred_of_lt hb hc hpos hlt
      rw [nearer_iff_of_gt hlt, equally_near_iff hlt.ne']
      rcases hlower with hlower | ⟨rfl, heven⟩
      · exact Or.inl (lt_of_le_of_lt (by linarith) hlower)
      · rcases hle.lt_or_eq with hle | hle
        · exact Or.inl (by linarith)
        · exact Or.inr ⟨by linarith, heven⟩
    · have hle := succ_le_of_lt hb hc hgt
      rw [nearer_iff_of_lt hgt, equally_near_iff hgt.ne]
      rcases hupper with hupper | ⟨rfl, heven⟩
      · exact Or.inl (lt_of_lt_of_le hupper (by linarith))
      · rcases hle.lt_or_eq with hle | hle
        · exact Or.inl (by linarith)
        · exact Or.inr ⟨by linarith, heven⟩

/-- What the numbers of a grid are scaled by. -/
def Grid.factor (b : Binary) (exponent : ℤ) : ℚ :=
  4 * 10 ^ (-exponent).toNat * 2 ^ (-b.exponent).toNat

theorem pow_toNat {x : ℚ} (hx : x ≠ 0) (n : ℤ) : x ^ n.toNat = x ^ n * x ^ (-n).toNat := by
  obtain ⟨k, rfl | rfl⟩ := n.eq_nat_or_neg
  · simp
  · simp [hx]

variable {exponent : ℤ}

theorem Grid.factor_pos : 0 < Grid.factor b exponent := by
  rw [factor]
  positivity

theorem Grid.unit_eq :
    ((Grid.at b exponent).unit : ℚ) = 10 ^ exponent * Grid.factor b exponent := by
  rw [Grid.at, factor]
  simp only [Nat.pow_eq]
  push_cast
  rw [pow_toNat (by norm_num) exponent]
  ring

theorem Grid.scale_eq (b : Binary) (exponent : ℤ) :
    4 * ((Grid.at b exponent).scale : ℚ) = 2 ^ b.exponent * Grid.factor b exponent := by
  rw [Grid.at, factor]
  simp only [Nat.pow_eq]
  push_cast
  rw [pow_toNat two_ne_zero b.exponent]
  ring

theorem Grid.low_eq (hpos : 0 < b.significand) :
    (((4 * b.significand - if b.isNarrow then 1 else 2) * (Grid.at b exponent).scale : ℕ) : ℚ) =
      b.low * Grid.factor b exponent := by
  have hscale := Grid.scale_eq b exponent
  rw [Binary.low, Binary.step]
  split
  · rw [Nat.cast_mul, Nat.cast_sub (by omega)]
    push_cast
    linear_combination (b.significand - 1 / 4 : ℚ) * hscale
  · rw [Nat.cast_mul, Nat.cast_sub (by omega)]
    push_cast
    linear_combination (b.significand - 1 / 2 : ℚ) * hscale

theorem Grid.high_eq :
    (((4 * b.significand + 2) * (Grid.at b exponent).scale : ℕ) : ℚ) =
      b.high * Grid.factor b exponent := by
  rw [Binary.high]
  push_cast
  linear_combination (b.significand + 1 / 2 : ℚ) * Grid.scale_eq b exponent

theorem Grid.point_eq (a : ℕ) :
    ((a * (Grid.at b exponent).unit : ℕ) : ℚ) = a * 10 ^ exponent * Grid.factor b exponent := by
  rw [Nat.cast_mul, Grid.unit_eq, mul_assoc]

/-- The points of a grid are tested for what is read as the double. -/
theorem Grid.readsBack_iff_reads (hb : b.IsDouble) (hpos : 0 < b.significand) {a : ℕ} :
    (Grid.at b exponent).readsBack b a ↔ b.Reads (a * 10 ^ exponent) := by
  have hbelow : (if b.significand = Nat.pow 2 52 ∧ -1074 < b.exponent then 1 else 2) =
      if b.isNarrow then 1 else 2 := rfl
  rw [Binary.reads_iff hb hpos, Binary.interval, Grid.readsBack]
  simp only [hbelow]
  split
  · rw [Bool.and_eq_true, decide_eq_true_eq, decide_eq_true_eq, ← Nat.cast_le (α := ℚ),
      ← Nat.cast_le (α := ℚ), Grid.low_eq hpos, Grid.high_eq, Grid.point_eq,
      mul_le_mul_iff_of_pos_right Grid.factor_pos, mul_le_mul_iff_of_pos_right Grid.factor_pos]
    rfl
  · rw [Bool.and_eq_true, decide_eq_true_eq, decide_eq_true_eq, ← Nat.cast_lt (α := ℚ),
      ← Nat.cast_lt (α := ℚ), Grid.low_eq hpos, Grid.high_eq, Grid.point_eq,
      mul_lt_mul_iff_of_pos_right Grid.factor_pos, mul_lt_mul_iff_of_pos_right Grid.factor_pos]
    rfl

end Footprint.Decimal
