import Footprint.Proofs.Decimal.Shortest
import Footprint.Proofs.Rules.Figures

namespace Footprint

open Enumerated

/-- A number between the bounds whose shortest decimal has no more than five digits after the
point. -/
structure LegalNumber (x : Float) : Prop where
  finite : x.isFinite
  nonneg : 0 ≤ x
  bounded : x ≤ 99999.99999
  precise : ∃ n : Decimal.Numeral, n.IsShortest (.ofFloat x) ∧ -5 ≤ n.exponent

theorem inRange_iff {x : Float} :
    Rules.inRange x ↔ x.isFinite ∧ 0 ≤ x ∧ x ≤ Violation.numberBound := by
  simp only [Rules.inRange, Bool.and_eq_true, decide_eq_true_eq, and_assoc]

theorem legalNumber_iff {x : Float} : LegalNumber x ↔
    Rules.inRange x ∧ Decimal.fractionDigits x ≤ Violation.fractionBound := by
  rw [inRange_iff, Decimal.fractionDigits_le_iff]
  constructor
  · rintro ⟨hfinite, hnonneg, hbounded, hprecise⟩
    exact ⟨⟨hfinite, hnonneg, hbounded⟩, hprecise⟩
  · rintro ⟨⟨hfinite, hnonneg, hbounded⟩, hprecise⟩
    exact ⟨hfinite, hnonneg, hbounded, hprecise⟩

instance (x : Float) : Decidable (LegalNumber x) :=
  decidable_of_iff _ legalNumber_iff.symm

example : LegalNumber 12.34567 ∧ ¬LegalNumber 0.123456 := by decide +kernel

/-- The numbers a figure states, under their field paths. -/
def Figure.numbers (f : Figure) : List (String × Float) :=
  f.emission.toList.map (literal f.kind ++ ".ghgEmission", ·)
    ++ f.rating.technological.toList.map (literal f.kind ++ ".dqrValue.TeR", ·)
    ++ f.rating.geographical.toList.map (literal f.kind ++ ".dqrValue.GeR", ·)
    ++ f.rating.temporal.toList.map (literal f.kind ++ ".dqrValue.TiR", ·)

theorem Figure.values_numbers (f : Figure) : f.numbers.map (·.2) =
    f.emission.toList ++ f.rating.technological.toList ++ f.rating.geographical.toList
      ++ f.rating.temporal.toList := by
  simp [numbers]

/-- What is reported of a number that is not legal. -/
def Violation.rejected (field : String) (x : Float) : Violation :=
  if Rules.inRange x then .tooPrecise field x else .outOfRange field x

def Violation.rejections (numbers : List (String × Float)) : List Violation :=
  (numbers.filter fun (_, x) => ¬LegalNumber x).map fun (field, x) => .rejected field x

/-- What is wrong with a figure on its own. -/
def Figure.faults (f : Figure) : List Violation :=
  (if f.unit = none then [.unitMissing f.kind] else [])
    ++ Violation.rejections f.numbers
    ++ if f.ratingKind = f.kind.ratingKind then [] else [.ratingKindMismatch f.kind f.ratingKind]

/-- What is reported of the figures that are not an operator's to supply. -/
def strangers (fs : List Figure) : List Violation :=
  (fs.filter fun f => f.kind ∉ FigureKind.inputs).map fun f => .notInput f.kind

/-- What an operator may register as the footprint of a part. -/
structure LegalSet (fs : List Figure) : Prop where
  kinds : (fs.map (·.kind)).Perm FigureKind.inputs
  trace : ∀ f ∈ fs, ∀ g ∈ fs, f.trace = g.trace
  setId : ∀ f ∈ fs, ∀ g ∈ fs, f.setId = g.setId
  unit : ∃ u, ∀ f ∈ fs, f.unit = some u
  numbers : ∀ f ∈ fs, ∀ field x, (field, x) ∈ f.numbers → LegalNumber x
  ratingKind : ∀ f ∈ fs, f.ratingKind = f.kind.ratingKind
  rating : ∀ f ∈ fs, ∀ g ∈ fs, f.kind.stage = g.kind.stage → f.rating.agrees g.rating
  /-- A stage with a positive rating emits something. -/
  emission : ∀ f ∈ fs, ∀ x : Float, 0 < x →
    (f.rating.technological = some x ∨ f.rating.geographical = some x ∨
      f.rating.temporal = some x) →
    0 < ((fs.filter fun g => g.kind.stage = f.kind.stage).filterMap (·.emission)).foldl (· + ·) 0

theorem Rating.anyPositive_iff {r : Rating} : r.anyPositive ↔ ∃ x : Float, 0 < x ∧
    (r.technological = some x ∨ r.geographical = some x ∨ r.temporal = some x) := by
  simp only [anyPositive, components, List.any_cons, List.any_nil, Bool.or_false, Bool.or_eq_true,
    Option.any_eq_true, decide_eq_true_eq]
  constructor
  · rintro (⟨x, h, hx⟩ | ⟨x, h, hx⟩ | ⟨x, h, hx⟩) <;> exact ⟨x, hx, by simp [h]⟩
  · rintro ⟨x, hx, h | h | h⟩ <;> simp [h, hx]

namespace Rules

open Violation

variable {fs : List Figure} {f : Figure} {field : String}

theorem rejections_append (xs ys : List (String × Float)) :
    rejections (xs ++ ys) = rejections xs ++ rejections ys := by
  rw [rejections, rejections, rejections, List.filter_append, List.map_append]

theorem rejections_eq_nil {numbers : List (String × Float)} :
    rejections numbers = [] ↔ ∀ field x, (field, x) ∈ numbers → LegalNumber x := by
  simp [rejections]

theorem optionalNumber_eq_rejections (o : Option Float) :
    optionalNumber field o = rejections (o.toList.map (field, ·)) := by
  cases o with
  | none => rfl
  | some x =>
    rw [optionalNumber, Option.map_some, Option.getD_some, number, rejections]
    simp only [Option.toList_some, List.map_cons, List.map_nil, List.filter_singleton,
      legalNumber_iff, rejected]
    by_cases hrange : inRange x <;>
      by_cases hdigits : Decimal.fractionDigits x ≤ fractionBound <;>
      simp [hrange, hdigits, require]

/-- A number of the rating is reported under its name. -/
theorem components_eq_rejections (f : Figure) :
    (f.rating.components.flatMap fun (component, value) =>
      optionalNumber (literal f.kind ++ ".dqrValue." ++ component) value) =
        rejections (f.rating.technological.toList.map (literal f.kind ++ ".dqrValue.TeR", ·))
          ++ rejections (f.rating.geographical.toList.map (literal f.kind ++ ".dqrValue.GeR", ·))
          ++ rejections (f.rating.temporal.toList.map (literal f.kind ++ ".dqrValue.TiR", ·)) := by
  have hfield (component : String) : literal f.kind ++ ".dqrValue." ++ component =
      literal f.kind ++ (".dqrValue." ++ component) := String.append_assoc
  simp only [Rating.components, List.flatMap_cons, List.flatMap_nil, List.append_nil,
    optionalNumber_eq_rejections, hfield, List.append_assoc]
  rfl

theorem figure_eq_faults (f : Figure) : figure f = f.faults := by
  rw [figure, Figure.faults, Figure.numbers, rejections_append, rejections_append,
    rejections_append, components_eq_rejections, optionalNumber_eq_rejections]
  cases f.unit <;> simp [require]

theorem faults_eq_nil : f.faults = [] ↔
    f.unit ≠ none ∧ (∀ field x, (field, x) ∈ f.numbers → LegalNumber x) ∧
      f.ratingKind = f.kind.ratingKind := by
  simp [Figure.faults, rejections_eq_nil]

theorem ofStage_eq_filter (hinput : ∀ f ∈ fs, f.kind.isInput) (st : Stage) :
    ofStage st fs = fs.filter fun f => f.kind.stage = st := by
  rw [ofStage]
  refine List.filter_congr fun f hf => ?_
  rw [hinput f hf, Bool.true_and]

theorem legalSet_of_figures (h : figures fs = []) : LegalSet fs := by
  obtain ⟨first, hfirst⟩ := exists_first_of_figures h
  have hshared {f : Figure} (hf : f ∈ fs) := shared_of_figures h hfirst hf
  have hinput := (kinds_eq_nil.1 (kinds_of_figures h)).2.2
  have hfaults {f : Figure} (hf : f ∈ fs) :=
    faults_eq_nil.1 ((figure_eq_faults f).symm.trans (figure_of_figures h hf))
  refine ⟨perm_kinds_of_figures h, fun f hf g hg => (hshared hf).1.trans (hshared hg).1.symm,
    fun f hf g hg => (hshared hf).2.1.trans (hshared hg).2.1.symm, ?_,
    fun f hf => (hfaults hf).2.1, fun f hf => (hfaults hf).2.2,
    fun f hf g hg => agrees_of_figures h hf hg, fun f hf x hx hcomponent => ?_⟩
  · obtain ⟨u, hu⟩ := Option.isSome_iff_exists.1 (hshared (List.mem_of_mem_head? hfirst)).2.2.2.1
    exact ⟨u, fun f hf => (hshared hf).2.2.1.trans hu⟩
  · have hstage := (stage_eq_nil_iff.1 (stage_of_figures h f.kind.stage)).2 f
      (mem_ofStage.2 ⟨hf, hinput f hf, rfl⟩) (Rating.anyPositive_iff.2 ⟨x, hx, hcomponent⟩)
    rwa [ofStage_eq_filter hinput] at hstage

theorem figures_of_legalSet (h : LegalSet fs) : figures fs = [] := by
  have hkinds := kinds_eq_nil_iff_perm.2 h.kinds
  cases fs with
  | nil => exact absurd h.kinds.length_eq (by decide)
  | cons first rest =>
    obtain ⟨u, hunit⟩ := h.unit
    have hstage (st : Stage) : stage st (first :: rest) = [] := by
      refine stage_eq_nil_iff.2 ⟨fun f hf g hg => ?_, fun f hf hpositive => ?_⟩
      · obtain ⟨hf, -, hst⟩ := mem_ofStage.1 hf
        obtain ⟨hg, -, hst'⟩ := mem_ofStage.1 hg
        exact h.rating f hf g hg (hst.trans hst'.symm)
      · obtain ⟨hmem, -, rfl⟩ := mem_ofStage.1 hf
        rw [ofStage_eq_filter (kinds_eq_nil.1 hkinds).2.2]
        obtain ⟨x, hx, hcomponent⟩ := Rating.anyPositive_iff.1 hpositive
        exact h.emission f hmem x hx hcomponent
    refine figures_cons_eq_nil.2 ⟨hkinds, sharedFields_eq_nil.2 ⟨?_, ?_, ?_⟩, fun f hf => ?_,
      hstage .pre, hstage .main⟩
    · exact fun f hf => h.trace f hf first (by simp)
    · exact fun f hf => h.setId f hf first (by simp)
    · exact fun f hf => (hunit f hf).trans (hunit first (by simp)).symm
    · exact (figure_eq_faults f).trans
        (faults_eq_nil.2 ⟨by simp [hunit f hf], h.numbers f hf, h.ratingKind f hf⟩)

theorem figures_eq_nil_iff : figures fs = [] ↔ LegalSet fs :=
  ⟨legalSet_of_figures, figures_of_legalSet⟩

theorem strangers_sublist (fs : List Figure) : (strangers fs).Sublist (kinds fs) := by
  have hfilter : (fs.filter fun f => f.kind ∉ FigureKind.inputs) =
      fs.filter fun f => !f.kind.isInput :=
    List.filter_congr fun f _ => by simp [← FigureKind.isInput_iff]
  rw [strangers, hfilter, kinds]
  exact List.sublist_append_right ..

/-- A fault of a figure is reported whatever the rest of the set is like. -/
theorem faults_sublist (fs : List Figure) :
    (strangers fs ++ fs.flatMap Figure.faults).Sublist (figures fs) := by
  have hfigures : fs.flatMap Figure.faults = fs.flatMap figure :=
    congrArg fs.flatMap (funext figure_eq_faults).symm
  rw [hfigures]
  refine (strangers_sublist fs).append ?_
  cases fs with
  | nil => exact List.Sublist.slnil
  | cons first rest =>
    exact (List.sublist_append_right ..).trans
      ((List.sublist_append_left ..).trans (List.sublist_append_left ..))

end Rules

/-- A set of any figures is accepted if and only if it is legal. Otherwise the refusal lists at
least one violation, and it lists one for each figure of a wrong kind, each missing unit, each
number that is not legal and each rating of the wrong kind. -/
theorem figures_accepted_iff_legal (fs : List Figure) :
    (refuse (Rules.figures fs) = .ok () ↔ LegalSet fs) ∧
      (¬LegalSet fs → ∃ violations, refuse (Rules.figures fs) = .error (.invalid violations) ∧
        violations ≠ [] ∧ (strangers fs ++ fs.flatMap Figure.faults).Sublist violations) := by
  rw [refuse_eq_ok_iff, Rules.figures_eq_nil_iff]
  refine ⟨Iff.rfl, fun hillegal => ⟨Rules.figures fs, ?_, ?_, Rules.faults_sublist fs⟩⟩
  · rw [refuse, if_neg]
    rwa [List.isEmpty_iff, Rules.figures_eq_nil_iff]
  · rwa [Ne, Rules.figures_eq_nil_iff]

end Footprint
