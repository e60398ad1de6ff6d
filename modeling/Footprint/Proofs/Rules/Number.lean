import Footprint.Figure.Basic
import Footprint.Proofs.Refusal
import Mathlib

namespace Footprint

namespace Rules

/-- A number that passes the rule, whatever field it stands in. -/
def Admits (x : Float) : Prop :=
  ∀ field, number field x = []

variable {field : String} {x : Float}

theorem number_eq_nil :
    number field x = [] ↔ inRange x ∧ Decimal.fractionDigits x ≤ Violation.fractionBound := by
  rw [number]
  split
  · rename_i h
    simp [require_eq_nil, h]
  · rename_i h
    simp [h]

/-- The rule names the field only in its violations. -/
theorem admits_of_number (h : number field x = []) : Admits x :=
  fun _ => number_eq_nil.2 (number_eq_nil.1 h)

theorem admits_of_optionalNumber {o : Option Float} (h : optionalNumber field o = []) :
    ∀ x ∈ o, Admits x := by
  rintro x rfl
  exact admits_of_number h

theorem optionalNumber_eq_nil {o : Option Float} :
    optionalNumber field o = [] ↔ ∀ x ∈ o, Admits x := by
  refine ⟨admits_of_optionalNumber, fun h => ?_⟩
  cases o with
  | none => rfl
  | some x => exact h x rfl field

theorem Admits.stored (h : Admits x) : Admits (storedNumber x) := by
  rw [storedNumber]
  split
  · exact fun _ => number_eq_nil.2 (by decide +kernel)
  · exact h

end Rules

variable {x y z : Float} {o p q : Option Float} {r s t : Rating}

theorem float_beq_symm (h : x == y) : y == x := by
  obtain ⟨hx, hy, rfl | ⟨rfl, rfl⟩ | ⟨rfl, rfl⟩⟩ := Float.beq_iff_ne_nan_and_eq.1 h
  · exact h
  · exact Float.beq_iff_ne_nan_and_eq.2 ⟨hy, hx, Or.inr (Or.inr ⟨rfl, rfl⟩)⟩
  · exact Float.beq_iff_ne_nan_and_eq.2 ⟨hy, hx, Or.inr (Or.inl ⟨rfl, rfl⟩)⟩

theorem float_beq_trans (h : x == y) (h' : y == z) : x == z := by
  obtain ⟨hx, -, hxy⟩ := Float.beq_iff_ne_nan_and_eq.1 h
  obtain ⟨-, hz, hyz⟩ := Float.beq_iff_ne_nan_and_eq.1 h'
  have hzero : (0 : Float) ≠ -0 := by decide +kernel
  refine Float.beq_iff_ne_nan_and_eq.2 ⟨hx, hz, ?_⟩
  grind

theorem pos_iff_of_float_beq (h : x == y) : 0 < x ↔ 0 < y := by
  have hzero : ¬ (0 : Float) < 0 := by decide +kernel
  have hminus : ¬ (0 : Float) < -0 := by decide +kernel
  obtain ⟨-, -, rfl | ⟨rfl, rfl⟩ | ⟨rfl, rfl⟩⟩ := Float.beq_iff_ne_nan_and_eq.1 h
  · rfl
  · exact iff_of_false hzero hminus
  · exact iff_of_false hminus hzero

namespace Rating

theorem sameValue_symm (h : sameValue o p) : sameValue p o := by
  cases o <;> cases p
  case some.some => exact float_beq_symm h
  all_goals exact h

theorem sameValue_trans (h : sameValue o p) (h' : sameValue p q) : sameValue o q := by
  cases o <;> cases p <;> cases q
  case some.some.some => exact float_beq_trans h h'
  all_goals simp_all [sameValue]

theorem any_pos_of_sameValue (h : sameValue o p) : o.any (0 < ·) = p.any (0 < ·) := by
  cases o <;> cases p
  case none.none => rfl
  case some.some => exact decide_eq_decide.2 (pos_iff_of_float_beq h)
  all_goals cases h

theorem agrees_symm (h : r.agrees s) : s.agrees r := by
  simp only [agrees, Bool.and_eq_true] at h ⊢
  exact ⟨⟨sameValue_symm h.1.1, sameValue_symm h.1.2⟩, sameValue_symm h.2⟩

theorem agrees_trans (h : r.agrees s) (h' : s.agrees t) : r.agrees t := by
  simp only [agrees, Bool.and_eq_true] at h h' ⊢
  exact ⟨⟨sameValue_trans h.1.1 h'.1.1, sameValue_trans h.1.2 h'.1.2⟩, sameValue_trans h.2 h'.2⟩

theorem anyPositive_of_agrees (h : r.agrees s) : r.anyPositive = s.anyPositive := by
  simp only [agrees, Bool.and_eq_true] at h
  simp only [anyPositive, components, List.any_cons, any_pos_of_sameValue h.1.1,
    any_pos_of_sameValue h.1.2, any_pos_of_sameValue h.2]

end Rating

/-- Numbers that count as equal are kept as the same; the two zeros do. -/
theorem storedNumber_eq_of_beq {x y : Float} (h : x == y) : storedNumber x = storedNumber y := by
  have hzero : storedNumber 0 = storedNumber (-0) := by decide +kernel
  obtain ⟨-, -, rfl | ⟨rfl, rfl⟩ | ⟨rfl, rfl⟩⟩ := Float.beq_iff_ne_nan_and_eq.1 h
  · rfl
  · exact hzero
  · exact hzero.symm

/-- What a column keeps is kept as it is. -/
theorem map_storedNumber_stored (o : Option Float) :
    (o.map storedNumber).map storedNumber = o.map storedNumber := by
  have hstored (x : Float) : storedNumber (storedNumber x) = storedNumber x := by
    by_cases hzero : x.toBits = 0x8000000000000000
    · rw [storedNumber, storedNumber, if_pos hzero, ite_self]
    · rw [storedNumber, storedNumber, if_neg hzero, if_neg hzero]
  rw [Option.map_map]
  exact congrArg (Option.map · o) (funext hstored)

theorem Rating.map_stored_of_sameValue {o q : Option Float} (h : sameValue o q) :
    o.map storedNumber = q.map storedNumber := by
  cases o with
  | none =>
    cases q with
    | none => rfl
    | some y => cases h
  | some x =>
    cases q with
    | none => cases h
    | some y => exact congrArg some (storedNumber_eq_of_beq h)

end Footprint
