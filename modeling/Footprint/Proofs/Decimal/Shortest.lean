import Footprint.Proofs.Decimal.Nearest

namespace Footprint.Decimal

def Numeral.value (n : Numeral) : ℚ :=
  n.digits * 10 ^ n.exponent

/-- A numeral that is read as the double. No such numeral has fewer digits, and none with this
exponent is nearer to the double. -/
structure Numeral.IsShortest (n : Numeral) (b : Binary) : Prop where
  reads : b.Reads n.value
  fewest : ∀ m : Numeral, b.Reads m.value → decimalLength n.digits ≤ decimalLength m.digits
  nearest : ∀ d : ℕ, b.Reads (d * 10 ^ n.exponent) →
    |n.value - b.value| ≤ |d * 10 ^ n.exponent - b.value|

variable {b : Binary} {tie : Tie} {exponent : ℤ} {a d n : ℕ} {q : ℚ}

theorem decimalLength_le_iff {k : ℕ} (hk : 0 < k) : decimalLength n ≤ k ↔ n < 10 ^ k :=
  Nat.length_toDigits_le_iff (by norm_num) hk

theorem decimalLength_pos (n : ℕ) : 0 < decimalLength n :=
  Nat.length_toDigits_pos

theorem lt_pow_decimalLength (n : ℕ) : n < 10 ^ decimalLength n :=
  (decimalLength_le_iff (decimalLength_pos n)).1 le_rfl

theorem pow_le_of_pos (hn : 0 < n) : 10 ^ (decimalLength n - 1) ≤ n := by
  rcases Nat.eq_or_lt_of_le (decimalLength_pos n) with hone | hmore
  · rw [← hone]
    exact hn
  · by_contra hlt
    have hshorter := (decimalLength_le_iff (Nat.sub_pos_of_lt hmore)).2 (not_le.1 hlt)
    omega

theorem zpow_mul_pow {e : ℤ} {k m : ℕ} (h : e + k = m) : (10 : ℚ) ^ e * 10 ^ k = 10 ^ m := by
  rw [← zpow_natCast, ← zpow_natCast, ← zpow_add₀ (by norm_num), h]

namespace Binary

/-- A double as a fraction. -/
theorem value_mul (b : Binary) :
    b.value * (2 ^ (-b.exponent).toNat : ℕ) = (b.significand * 2 ^ b.exponent.toNat : ℕ) := by
  rw [value]
  push_cast
  rw [pow_toNat two_ne_zero b.exponent, mul_assoc]

theorem ceiling_eq (b : Binary) : b.ceiling =
    (decimalLength (b.significand * 2 ^ b.exponent.toNat) : ℤ) -
      decimalLength (2 ^ (-b.exponent).toNat) + 1 := rfl

theorem value_lt_ceiling (b : Binary) : b.value < 10 ^ b.ceiling := by
  have hvalue := b.value_mul
  rw [ceiling_eq]
  generalize b.significand * 2 ^ b.exponent.toNat = numerator at hvalue ⊢
  have hpos : 0 < 2 ^ (-b.exponent).toNat := by positivity
  generalize 2 ^ (-b.exponent).toNat = denominator at hvalue hpos ⊢
  have hnumerator : (numerator : ℚ) < 10 ^ decimalLength numerator := by
    exact_mod_cast lt_pow_decimalLength numerator
  have hdenominator : (10 : ℚ) ^ (decimalLength denominator - 1) ≤ denominator := by
    exact_mod_cast pow_le_of_pos hpos
  have hlength := decimalLength_pos denominator
  refine lt_of_mul_lt_mul_right ?_ (Nat.cast_nonneg denominator)
  calc b.value * denominator = numerator := hvalue
    _ < 10 ^ decimalLength numerator := hnumerator
    _ = 10 ^ ((decimalLength numerator : ℤ) - decimalLength denominator + 1) *
        10 ^ (decimalLength denominator - 1) := (zpow_mul_pow (by omega)).symm
    _ ≤ _ := mul_le_mul_of_nonneg_left hdenominator (by positivity)

theorem ceiling_le_value (hpos : 0 < b.significand) : 10 ^ (b.ceiling - 2) ≤ b.value := by
  have hvalue := b.value_mul
  rw [ceiling_eq]
  have hnum : 0 < b.significand * 2 ^ b.exponent.toNat := by positivity
  generalize b.significand * 2 ^ b.exponent.toNat = numerator at hvalue hnum ⊢
  have hden : 0 < 2 ^ (-b.exponent).toNat := by positivity
  generalize 2 ^ (-b.exponent).toNat = denominator at hvalue hden ⊢
  have hnumerator : (10 : ℚ) ^ (decimalLength numerator - 1) ≤ numerator := by
    exact_mod_cast pow_le_of_pos hnum
  have hdenominator : (denominator : ℚ) ≤ 10 ^ decimalLength denominator := by
    exact_mod_cast (lt_pow_decimalLength denominator).le
  have hlength := decimalLength_pos numerator
  refine le_of_mul_le_mul_right ?_ (Nat.cast_pos.2 hden)
  calc (10 : ℚ) ^ ((decimalLength numerator : ℤ) - decimalLength denominator + 1 - 2) * denominator
      ≤ 10 ^ ((decimalLength numerator : ℤ) - decimalLength denominator + 1 - 2) *
        10 ^ decimalLength denominator := mul_le_mul_of_nonneg_left hdenominator (by positivity)
    _ = 10 ^ (decimalLength numerator - 1) := zpow_mul_pow (by omega)
    _ ≤ numerator := hnumerator
    _ = b.value * denominator := hvalue.symm

theorem value_pos (hpos : 0 < b.significand) : 0 < b.value :=
  mul_pos (Nat.cast_pos.2 hpos) b.unit_pos

theorem value_mem_interval (hpos : 0 < b.significand) : b.value ∈ b.interval := by
  rw [mem_interval, low_eq hpos, high_eq]
  have hlow := pred_lt_value hpos
  have hhigh := b.value_lt_succ
  exact ⟨Or.inl (by linarith), Or.inl (by linarith)⟩

/-- What is read as a double is more than half and less than twice as large. -/
theorem bounds_of_mem (hpos : 0 < b.significand) (h : q ∈ b.interval) :
    b.value ≤ 2 * q ∧ 2 * q ≤ 3 * b.value := by
  have hunit := b.unit_pos
  have hone : (1 : ℚ) ≤ b.significand := by exact_mod_cast hpos
  have hstep : b.step ≤ 1 := by
    rw [step]
    split <;> norm_num
  have hlow : b.value ≤ 2 * b.low := by
    rw [value, low]
    nlinarith
  have hhigh : 2 * b.high ≤ 3 * b.value := by
    rw [value, high]
    nlinarith
  obtain ⟨hl, hh⟩ := mem_interval.1 h
  have hl : b.low ≤ q := hl.elim le_of_lt fun h => h.1.ge
  have hh : q ≤ b.high := hh.elim le_of_lt fun h => h.1.le
  constructor <;> linarith

end Binary

/-- Nothing is read as the double that is coarser than the double is large. -/
theorem exponent_le_ceiling (hpos : 0 < b.significand)
    (h : (d * 10 ^ exponent : ℚ) ∈ b.interval) : exponent ≤ b.ceiling := by
  obtain ⟨hlower, hupper⟩ := Binary.bounds_of_mem hpos h
  have hvalue := Binary.value_pos hpos
  have hunit : (0 : ℚ) < 10 ^ exponent := by positivity
  have hd : (1 : ℚ) ≤ d := by
    rcases Nat.eq_zero_or_pos d with rfl | hd
    · simp at hlower
      linarith
    · exact_mod_cast hd
  by_contra hgreater
  have hcoarse : (10 : ℚ) ^ (b.ceiling + 1) ≤ 10 ^ exponent :=
    zpow_le_zpow_right₀ (by norm_num) (by omega)
  rw [zpow_add_one₀ (by norm_num)] at hcoarse
  have := b.value_lt_ceiling
  nlinarith

/-- Seventeen digits and more always suffice. -/
theorem exists_mem_interval (hb : b.IsDouble) (hpos : 0 < b.significand) :
    ∃ d : ℕ, (d * 10 ^ (b.ceiling - 20) : ℚ) ∈ b.interval := by
  have hvalue := Binary.value_pos hpos
  have hunit : (0 : ℚ) < 10 ^ (b.ceiling - 20) := by positivity
  have hfine : (10 : ℚ) ^ (b.ceiling - 20) < 2 ^ b.exponent / 2 := by
    have hle := Binary.ceiling_le_value hpos
    have hsplit : (10 : ℚ) ^ (b.ceiling - 2) = 10 ^ (b.ceiling - 20) * 10 ^ 18 :=
      (by rw [← zpow_natCast, ← zpow_add₀ (by norm_num)]; congr 1; omega)
    have hbits : (b.significand : ℚ) < 2 ^ 53 := by exact_mod_cast hb.bits
    have := b.unit_pos
    rw [hsplit, Binary.value] at hle
    nlinarith
  refine ⟨⌈b.value / 10 ^ (b.ceiling - 20)⌉₊, Binary.mem_interval.2 ⟨Or.inl ?_, Or.inl ?_⟩⟩
  · have hceil := Nat.le_ceil (b.value / 10 ^ (b.ceiling - 20))
    rw [div_le_iff₀ hunit] at hceil
    have hlow := Binary.pred_lt_value hpos
    rw [Binary.low_eq hpos]
    linarith
  · have hceil := Nat.ceil_lt_add_one (div_pos hvalue hunit).le
    rw [← sub_lt_iff_lt_add, lt_div_iff₀ hunit] at hceil
    rw [Binary.high, add_mul, ← Binary.value]
    linarith

def Grid.down (g : Grid) (b : Binary) : ℕ :=
  4 * b.significand * g.scale / g.unit

theorem Grid.value_eq :
    ((4 * b.significand * (Grid.at b exponent).scale : ℕ) : ℚ) =
      b.value * Grid.factor b exponent := by
  rw [Binary.value]
  push_cast
  linear_combination (b.significand : ℚ) * Grid.scale_eq b exponent

theorem Grid.unit_pos : 0 < (Grid.at b exponent).unit := by
  rw [Grid.at]
  simp only [Nat.pow_eq]
  positivity

theorem Grid.down_mul_le (b : Binary) (exponent : ℤ) :
    (Grid.at b exponent).down b * (Grid.at b exponent).unit ≤
      4 * b.significand * (Grid.at b exponent).scale :=
  Nat.div_mul_le_self ..

theorem Grid.lt_up_mul (b : Binary) (exponent : ℤ) :
    4 * b.significand * (Grid.at b exponent).scale <
      ((Grid.at b exponent).down b + 1) * (Grid.at b exponent).unit := by
  rw [add_one_mul]
  exact Nat.lt_div_mul_add Grid.unit_pos

theorem Grid.down_le (b : Binary) (exponent : ℤ) :
    ((Grid.at b exponent).down b * 10 ^ exponent : ℚ) ≤ b.value := by
  have hle := Grid.down_mul_le b exponent
  rw [← Nat.cast_le (α := ℚ), Grid.point_eq, Grid.value_eq] at hle
  exact le_of_mul_le_mul_right hle Grid.factor_pos

theorem Grid.lt_up (b : Binary) (exponent : ℤ) :
    b.value < ((Grid.at b exponent).down b + 1 : ℕ) * 10 ^ exponent := by
  have hlt := Grid.lt_up_mul b exponent
  rw [← Nat.cast_lt (α := ℚ), Grid.point_eq, Grid.value_eq] at hlt
  exact lt_of_mul_lt_mul_right hlt Grid.factor_pos.le

/-- The grid point `d` is on this side of the double or on the other, and no nearer than the point
next to the double on that side. -/
theorem Grid.side (b : Binary) (exponent : ℤ) (d : ℕ) :
    (d * 10 ^ exponent ≤ ((Grid.at b exponent).down b * 10 ^ exponent : ℚ)) ∨
      (((Grid.at b exponent).down b + 1 : ℕ) * 10 ^ exponent ≤ (d * 10 ^ exponent : ℚ)) := by
  have hunit : (0 : ℚ) ≤ 10 ^ exponent := by positivity
  rcases Nat.lt_or_ge ((Grid.at b exponent).down b) d with hlt | hge
  · exact Or.inr (mul_le_mul_of_nonneg_right (by exact_mod_cast hlt) hunit)
  · exact Or.inl (mul_le_mul_of_nonneg_right (by exact_mod_cast hge) hunit)

/-- The nearer of the two points is taken, if both are read as the double. -/
theorem Grid.nearest?_cases (tie : Tie) (g : Grid) (b : Binary) :
    (g.nearest? tie b = none ∧ ¬ g.readsBack b (g.down b) ∧ ¬ g.readsBack b (g.down b + 1)) ∨
      (g.nearest? tie b = some (g.down b) ∧ g.readsBack b (g.down b) ∧
        (g.readsBack b (g.down b + 1) → 4 * b.significand * g.scale - g.down b * g.unit ≤
          (g.down b + 1) * g.unit - 4 * b.significand * g.scale)) ∨
      (g.nearest? tie b = some (g.down b + 1) ∧ g.readsBack b (g.down b + 1) ∧
        (g.readsBack b (g.down b) → (g.down b + 1) * g.unit - 4 * b.significand * g.scale ≤
          4 * b.significand * g.scale - g.down b * g.unit)) := by
  rw [nearest?.eq_def]
  simp only [← Grid.down.eq_def]
  cases g.readsBack b (g.down b) <;> cases g.readsBack b (g.down b + 1)
  case true.true =>
    -- The nearer one, or at a tie the one that the rule names.
    split_ifs <;> cases tie <;> simp <;> omega
  all_goals simp

theorem Grid.toDown_eq :
    ((4 * b.significand * (Grid.at b exponent).scale -
      (Grid.at b exponent).down b * (Grid.at b exponent).unit : ℕ) : ℚ) =
      (b.value - (Grid.at b exponent).down b * 10 ^ exponent) * Grid.factor b exponent := by
  rw [Nat.cast_sub (Grid.down_mul_le b exponent), Grid.value_eq, Grid.point_eq, sub_mul]

theorem Grid.toUp_eq :
    ((((Grid.at b exponent).down b + 1) * (Grid.at b exponent).unit -
      4 * b.significand * (Grid.at b exponent).scale : ℕ) : ℚ) =
      (((Grid.at b exponent).down b + 1 : ℕ) * 10 ^ exponent - b.value) *
        Grid.factor b exponent := by
  rw [Nat.cast_sub (Grid.lt_up_mul b exponent).le, Grid.value_eq, Grid.point_eq, sub_mul]

section

variable (hb : b.IsDouble) (hpos : 0 < b.significand)
include hb hpos

/-- If a point on one side of the double is read as it, so is the one next to the double. -/
theorem Grid.readsBack_down (hd : (d * 10 ^ exponent : ℚ) ∈ b.interval)
    (h : (d * 10 ^ exponent : ℚ) ≤ (Grid.at b exponent).down b * 10 ^ exponent) :
    (Grid.at b exponent).readsBack b ((Grid.at b exponent).down b) := by
  rw [Grid.readsBack_iff_reads hb hpos, Binary.reads_iff hb hpos]
  exact Set.OrdConnected.out inferInstance hd (Binary.value_mem_interval hpos)
    ⟨h, Grid.down_le b exponent⟩

theorem Grid.readsBack_up (hd : (d * 10 ^ exponent : ℚ) ∈ b.interval)
    (h : (((Grid.at b exponent).down b + 1 : ℕ) * 10 ^ exponent : ℚ) ≤ d * 10 ^ exponent) :
    (Grid.at b exponent).readsBack b ((Grid.at b exponent).down b + 1) := by
  rw [Grid.readsBack_iff_reads hb hpos, Binary.reads_iff hb hpos]
  exact Set.OrdConnected.out inferInstance (Binary.value_mem_interval hpos) hd
    ⟨(Grid.lt_up b exponent).le, h⟩

/-- No grid is passed over that has a point which is read as the double. -/
theorem Grid.exists_nearest? (tie : Tie) (hd : (d * 10 ^ exponent : ℚ) ∈ b.interval) :
    ∃ a, (Grid.at b exponent).nearest? tie b = some a := by
  rcases Grid.nearest?_cases tie (Grid.at b exponent) b with
    ⟨-, hdown, hup⟩ | ⟨hsome, -⟩ | ⟨hsome, -⟩
  · rcases Grid.side b exponent d with hle | hle
    · exact absurd (Grid.readsBack_down hb hpos hd hle) hdown
    · exact absurd (Grid.readsBack_up hb hpos hd hle) hup
  · exact ⟨_, hsome⟩
  · exact ⟨_, hsome⟩

/-- The point that is taken is read as the double, and no other such point is nearer. -/
theorem Grid.nearest?_eq_some (h : (Grid.at b exponent).nearest? tie b = some a) :
    (a * 10 ^ exponent : ℚ) ∈ b.interval ∧ ∀ d : ℕ, (d * 10 ^ exponent : ℚ) ∈ b.interval →
      |a * 10 ^ exponent - b.value| ≤ |d * 10 ^ exponent - b.value| := by
  have hdown := Grid.down_le b exponent
  have hup := Grid.lt_up b exponent
  have hreads {a : ℕ} (h : (Grid.at b exponent).readsBack b a) :
      (a * 10 ^ exponent : ℚ) ∈ b.interval :=
    (Binary.reads_iff hb hpos).1 ((Grid.readsBack_iff_reads hb hpos).1 h)
  rcases Grid.nearest?_cases tie (Grid.at b exponent) b with
    ⟨hnone, -⟩ | ⟨hsome, hread, hnearer⟩ | ⟨hsome, hread, hnearer⟩
  · cases hnone.symm.trans h
  · cases hsome.symm.trans h
    refine ⟨hreads hread, fun d hd => ?_⟩
    rw [abs_of_nonpos (sub_nonpos.2 hdown), neg_sub]
    rcases Grid.side b exponent d with hle | hle
    · rw [abs_of_nonpos (sub_nonpos.2 (hle.trans hdown))]
      linarith
    · have hle' := hnearer (Grid.readsBack_up hb hpos hd hle)
      rw [← Nat.cast_le (α := ℚ), Grid.toDown_eq, Grid.toUp_eq,
        mul_le_mul_iff_of_pos_right Grid.factor_pos] at hle'
      rw [abs_of_nonneg (sub_nonneg.2 (hup.le.trans hle))]
      linarith
  · cases hsome.symm.trans h
    refine ⟨hreads hread, fun d hd => ?_⟩
    rw [abs_of_nonneg (sub_nonneg.2 hup.le)]
    rcases Grid.side b exponent d with hle | hle
    · have hle' := hnearer (Grid.readsBack_down hb hpos hd hle)
      rw [← Nat.cast_le (α := ℚ), Grid.toDown_eq, Grid.toUp_eq,
        mul_le_mul_iff_of_pos_right Grid.factor_pos] at hle'
      rw [abs_of_nonpos (sub_nonpos.2 (hle.trans hdown))]
      linarith
    · rw [abs_of_nonneg (sub_nonneg.2 (hup.le.trans hle))]
      linarith

end

/-- A search from zero up ends at the first hit. -/
theorem findSome?_range_eq_some {α : Type} {f : ℕ → Option α} {count : ℕ} {x : α}
    (h : (List.range count).findSome? f = some x) :
    ∃ i < count, f i = some x ∧ ∀ j < i, f j = none := by
  obtain ⟨before, i, after, hrange, hi, hnone⟩ := List.findSome?_eq_some_iff.1 h
  have hlt : i < count := List.mem_range.1 (hrange ▸ by simp)
  refine ⟨i, hlt, hi, fun j hj => hnone j ?_⟩
  have hsorted : (before ++ i :: after).Pairwise (· < ·) := hrange ▸ List.pairwise_lt_range
  have hmem : j ∈ before ++ i :: after := hrange ▸ List.mem_range.2 (hj.trans hlt)
  rcases List.mem_append.1 hmem with hbefore | hrest
  · exact hbefore
  · rcases List.mem_cons.1 hrest with rfl | hafter
    · exact absurd hj (lt_irrefl j)
    · have hgt := List.rel_of_pairwise_cons (List.pairwise_append.1 hsorted).2.1 hafter
      exact absurd hj hgt.not_gt

/-- What the search finds on the grid so many exponents below the double. -/
def candidate (tie : Tie) (b : Binary) (i : ℕ) : Option Numeral :=
  ((Grid.at b (b.ceiling - i)).nearest? tie b).map fun a => ⟨a, b.ceiling - i⟩

theorem shortest_of_pos (hpos : 0 < b.significand) :
    shortest tie b = ((List.range 21).findSome? (candidate tie b)).getD ⟨0, 0⟩ := by
  rw [shortest, if_neg hpos.ne']
  rfl

/-- The search ends at the first grid, from coarse to fine, that has a point which is read as the
double. -/
theorem shortest_spec (hb : b.IsDouble) (hpos : 0 < b.significand) (tie : Tie) :
    (Grid.at b (shortest tie b).exponent).nearest? tie b = some (shortest tie b).digits ∧
      ∀ (d : ℕ) (exponent : ℤ), (d * 10 ^ exponent : ℚ) ∈ b.interval →
        exponent ≤ (shortest tie b).exponent := by
  obtain ⟨d, hfine⟩ := exists_mem_interval hb hpos
  obtain ⟨a, ha⟩ := Grid.exists_nearest? hb hpos tie hfine
  have hlast : (candidate tie b 20).isSome := by simp [candidate, ha]
  obtain ⟨n, hn⟩ := Option.isSome_iff_exists.1 <|
    List.findSome?_isSome_iff.2 ⟨20, List.mem_range.2 (by norm_num : 20 < 21), hlast⟩
  rw [shortest_of_pos hpos, hn, Option.getD_some]
  obtain ⟨i, -, hi, hnone⟩ := findSome?_range_eq_some hn
  obtain ⟨a, hnearest, rfl⟩ := Option.map_eq_some_iff.1 hi
  refine ⟨hnearest, fun d exponent hd => ?_⟩
  obtain ⟨j, hj⟩ := Int.le.dest (exponent_le_ceiling hpos hd)
  by_contra hcoarser
  have hskipped := hnone j (by simp only at hcoarser; omega)
  rw [candidate, ← hj, add_sub_cancel_right, Option.map_eq_none_iff] at hskipped
  obtain ⟨a, hfound⟩ := Grid.exists_nearest? hb hpos tie hd
  cases hskipped.symm.trans hfound

/-- With fewer digits a power of ten would be read as the double, on a coarser grid. -/
theorem decimalLength_le_of_coarsest {n m : Numeral} (hn : n.value ∈ b.interval)
    (hm : m.value ∈ b.interval)
    (hmax : ∀ (d : ℕ) (exponent : ℤ), (d * 10 ^ exponent : ℚ) ∈ b.interval →
      exponent ≤ n.exponent) : decimalLength n.digits ≤ decimalLength m.digits := by
  have hlength := decimalLength_pos m.digits
  by_contra hfewer
  have hpos : 0 < n.digits := Nat.pos_of_ne_zero fun hzero => hfewer (hzero ▸ hlength)
  obtain ⟨k, hk⟩ : ∃ k, decimalLength n.digits = k + 1 :=
    ⟨_, (Nat.sub_add_cancel (decimalLength_pos _)).symm⟩
  have hle : (10 ^ k : ℚ) ≤ n.digits := by
    have hle := pow_le_of_pos hpos
    rw [hk, Nat.add_sub_cancel] at hle
    exact_mod_cast hle
  have hlt : (m.digits : ℚ) ≤ 10 ^ k := by
    exact_mod_cast ((decimalLength_le_iff (by omega)).1 (by omega : decimalLength m.digits ≤ k)).le
  have hexponent : (10 : ℚ) ^ m.exponent ≤ 10 ^ n.exponent :=
    zpow_le_zpow_right₀ (by norm_num) (hmax _ _ hm)
  have hpower : ((1 : ℕ) * 10 ^ (n.exponent + k) : ℚ) = 10 ^ k * 10 ^ n.exponent := by
    rw [zpow_add₀ (by norm_num), zpow_natCast]
    ring
  have hmem : ((1 : ℕ) * 10 ^ (n.exponent + k) : ℚ) ∈ b.interval := by
    rw [hpower]
    refine Set.OrdConnected.out inferInstance hm hn
      ⟨mul_le_mul hlt hexponent (by positivity) (by positivity), ?_⟩
    exact mul_le_mul_of_nonneg_right hle (by positivity)
  have := hmax _ _ hmem
  omega

/-- The search finds a shortest numeral of every double. -/
theorem isShortest_shortest (hb : b.IsDouble) (tie : Tie) : (shortest tie b).IsShortest b := by
  rcases Nat.eq_zero_or_pos b.significand with hzero | hpos
  · have hvalue : b.value = 0 := by simp [Binary.value, hzero]
    rw [shortest, if_pos hzero]
    refine ⟨fun c hc hne => Or.inl ?_, fun m _ => decimalLength_pos m.digits, fun d _ => ?_⟩
    · rw [hvalue] at hne ⊢
      simpa [Numeral.value] using hne
    · simp [hvalue, Numeral.value]
  · obtain ⟨hnearest, hmax⟩ := shortest_spec hb hpos tie
    obtain ⟨hmem, hnearer⟩ := Grid.nearest?_eq_some hb hpos hnearest
    exact ⟨(Binary.reads_iff hb hpos).2 hmem,
      fun m hm => decimalLength_le_of_coarsest hmem ((Binary.reads_iff hb hpos).1 hm) hmax,
      fun d hd => hnearer d ((Binary.reads_iff hb hpos).1 hd)⟩

/-- No more digits stand after the point than in some shortest numeral. -/
theorem fractionDigits_le_iff (x : Float) (k : ℕ) :
    fractionDigits x ≤ k ↔
      ∃ n : Numeral, n.IsShortest (.ofFloat x) ∧ -(k : ℤ) ≤ n.exponent := by
  have hb := Binary.isDouble_ofFloat x
  rw [fractionDigits, Int.toNat_le, neg_le]
  constructor
  · exact fun h => ⟨_, isShortest_shortest hb .away, h⟩
  · rintro ⟨n, hn, hk⟩
    rcases Nat.eq_zero_or_pos (Binary.ofFloat x).significand with hzero | hpos
    · rw [shortest, if_pos hzero]
      simp
    · exact hk.trans ((shortest_spec hb hpos .away).2 n.digits n.exponent
        ((Binary.reads_iff hb hpos).1 hn.reads))

end Footprint.Decimal
