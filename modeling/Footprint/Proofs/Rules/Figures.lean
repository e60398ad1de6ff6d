import Footprint.Proofs.Rules.Number
import Footprint.Rules.Figures
import Mathlib.Data.List.Nodup

namespace Footprint.Rules

variable {fs : List Figure} {first f g : Figure}

theorem kinds_eq_nil :
    kinds fs = [] ↔ fs.length = 4 ∧ (∀ k ∈ FigureKind.inputs, fs.countP (fun f => f.kind = k) = 1) ∧
      ∀ f ∈ fs, f.kind.isInput := by
  simp only [kinds, List.append_eq_nil_iff, List.flatMap_eq_nil_iff, List.map_eq_nil_iff,
    List.filter_eq_nil_iff, require_eq_nil, decide_eq_true_eq, and_assoc]
  simp

theorem sharedFields_eq_nil :
    sharedFields first fs = [] ↔
      (∀ f ∈ fs, f.trace = first.trace) ∧ (∀ f ∈ fs, f.setId = first.setId) ∧
        ∀ f ∈ fs, f.unit = first.unit := by
  simp [sharedFields, require_eq_nil]

theorem figure_eq_nil :
    figure f = [] ↔
      f.unit.isSome ∧
      optionalNumber (Enumerated.literal f.kind ++ ".ghgEmission") f.emission = [] ∧
      (∀ c ∈ f.rating.components,
        optionalNumber (Enumerated.literal f.kind ++ ".dqrValue." ++ c.1) c.2 = []) ∧
      f.ratingKind = f.kind.ratingKind := by
  simp [figure, require_eq_nil]

theorem figures_cons_eq_nil :
    figures (first :: fs) = [] ↔
      kinds (first :: fs) = [] ∧ sharedFields first (first :: fs) = [] ∧
      (∀ f ∈ first :: fs, figure f = []) ∧
      stage .pre (first :: fs) = [] ∧ stage .main (first :: fs) = [] := by
  simp only [figures, List.append_eq_nil_iff, List.flatMap_eq_nil_iff, and_assoc]

/-- A legal set has a figure of every input kind, and only one. -/
theorem exists_kind_of_kinds (h : kinds fs = []) {k : FigureKind} (hk : k ∈ FigureKind.inputs) :
    ∃ f ∈ fs, f.kind = k ∧ ∀ g ∈ fs, g.kind = k → g = f := by
  have hcount := (kinds_eq_nil.1 h).2.1 k hk
  rw [List.countP_eq_length_filter, List.length_eq_one_iff] at hcount
  obtain ⟨f, hf⟩ := hcount
  have hmem (g : Figure) : g = f ↔ g ∈ fs ∧ g.kind = k := by
    rw [← List.mem_singleton, ← hf]
    simp
  obtain ⟨hf, hkind⟩ := (hmem f).1 rfl
  exact ⟨f, hf, hkind, fun g hg hgk => (hmem g).2 ⟨hg, hgk⟩⟩

theorem nodup_kinds (h : kinds fs = []) : (fs.map (·.kind)).Nodup := by
  obtain ⟨-, hcount, hinput⟩ := kinds_eq_nil.1 h
  rw [List.nodup_iff_count_le_one]
  intro k
  by_cases hk : k ∈ fs.map (·.kind)
  · obtain ⟨f, hf, rfl⟩ := List.mem_map.1 hk
    have hone := hcount f.kind ((FigureKind.isInput_iff _).1 (hinput f hf))
    rw [List.count, List.countP_map]
    exact Nat.le_of_eq hone
  · rw [List.count_eq_zero_of_not_mem hk]
    exact Nat.zero_le 1

/-- There is one figure of every input kind and no other. -/
theorem kinds_eq_nil_iff_perm : kinds fs = [] ↔ (fs.map (·.kind)).Perm FigureKind.inputs := by
  constructor
  · intro h
    refine (List.perm_ext_iff_of_nodup (nodup_kinds h) (by decide)).2 fun kind => ?_
    constructor
    · intro hkind
      obtain ⟨f, hf, rfl⟩ := List.mem_map.1 hkind
      exact (FigureKind.isInput_iff _).1 ((kinds_eq_nil.1 h).2.2 f hf)
    · intro hkind
      obtain ⟨f, hf, rfl, -⟩ := exists_kind_of_kinds h hkind
      exact List.mem_map_of_mem hf
  · intro h
    refine kinds_eq_nil.2 ⟨?_, fun k hk => ?_, fun f hf => ?_⟩
    · rw [← List.length_map, h.length_eq]
      rfl
    · have hcount := h.count_eq k
      rw [List.count, List.countP_map] at hcount
      exact hcount.trans ((by decide : ∀ k ∈ FigureKind.inputs, FigureKind.inputs.count k = 1) k hk)
    · exact (FigureKind.isInput_iff _).2 (h.mem_iff.1 (List.mem_map_of_mem hf))

/-- What the figures of a legal set have in common. -/
theorem shared_of_figures (h : figures fs = []) (hfirst : fs.head? = some first) (hf : f ∈ fs) :
    f.trace = first.trace ∧ f.setId = first.setId ∧ f.unit = first.unit ∧ f.unit.isSome ∧
      f.kind ∈ FigureKind.inputs ∧ f.ratingKind = f.kind.ratingKind := by
  obtain ⟨rest, rfl⟩ := List.head?_eq_some_iff.1 hfirst
  obtain ⟨hkinds, hshared, hfigure, -, -⟩ := figures_cons_eq_nil.1 h
  obtain ⟨htrace, hset, hunit⟩ := sharedFields_eq_nil.1 hshared
  obtain ⟨hsome, -, -, hrating⟩ := figure_eq_nil.1 (hfigure f hf)
  exact ⟨htrace f hf, hset f hf, hunit f hf, hsome,
    (FigureKind.isInput_iff _).1 ((kinds_eq_nil.1 hkinds).2.2 f hf), hrating⟩

theorem kinds_of_figures (h : figures fs = []) : kinds fs = [] :=
  (List.append_eq_nil_iff.1 h).1

theorem perm_kinds_of_figures (h : figures fs = []) :
    (fs.map (·.kind)).Perm FigureKind.inputs :=
  kinds_eq_nil_iff_perm.1 (kinds_of_figures h)

theorem exists_first_of_figures (h : figures fs = []) : ∃ first, fs.head? = some first := by
  have hlength := (kinds_eq_nil.1 (kinds_of_figures h)).1
  cases fs with
  | nil => cases hlength
  | cons first rest => exact ⟨first, rfl⟩

theorem mem_ofStage {st : Stage} :
    f ∈ ofStage st fs ↔ f ∈ fs ∧ f.kind.isInput ∧ f.kind.stage = st := by
  simp [ofStage]

/-- Agreement with the first is agreement of all. -/
theorem forall_head_iff {α : Type} {R : α → α → Prop} {first : α} {rest : List α}
    (hsymm : ∀ {x y}, R x y → R y x) (htrans : ∀ {x y z}, R x y → R y z → R x z) :
    (∀ x ∈ first :: rest, R x first) ↔ ∀ x ∈ first :: rest, ∀ y ∈ first :: rest, R x y :=
  ⟨fun h x hx y hy => htrans (h x hx) (hsymm (h y hy)), fun h x hx => h x hx first (by simp)⟩

theorem stage_eq_nil_iff {st : Stage} :
    stage st fs = [] ↔
      (∀ f ∈ ofStage st fs, ∀ g ∈ ofStage st fs, f.rating.agrees g.rating) ∧
        ∀ f ∈ ofStage st fs, f.rating.anyPositive → 0 < emissionSum (ofStage st fs) := by
  rw [stage]
  split
  · rename_i hnone
    simp [hnone]
  · rename_i head tail hsome
    rw [hsome, List.append_eq_nil_iff, require_eq_nil, require_eq_nil, List.all_eq_true,
      ← forall_head_iff (R := fun f g : Figure => f.rating.agrees g.rating) Rating.agrees_symm
        Rating.agrees_trans]
    refine and_congr_right fun hagrees => ?_
    rw [Bool.or_eq_true, Bool.not_eq_true', decide_eq_true_eq, ← Bool.not_eq_true, ← imp_iff_not_or]
    constructor
    · intro h f hf hpositive
      exact h (Rating.anyPositive_of_agrees (hagrees f hf) ▸ hpositive)
    · exact fun h => h head (by simp)

theorem stage_of_figures (h : figures fs = []) (st : Stage) : stage st fs = [] := by
  obtain ⟨first, hfirst⟩ := exists_first_of_figures h
  obtain ⟨rest, rfl⟩ := List.head?_eq_some_iff.1 hfirst
  obtain ⟨-, -, -, hpre, hmain⟩ := figures_cons_eq_nil.1 h
  cases st
  · exact hpre
  · exact hmain

/-- The figures of one stage of a legal set agree on the rating. -/
theorem agrees_of_figures (h : figures fs = []) (hf : f ∈ fs) (hg : g ∈ fs)
    (hstage : f.kind.stage = g.kind.stage) : f.rating.agrees g.rating := by
  have hinput := (kinds_eq_nil.1 (kinds_of_figures h)).2.2
  exact (stage_eq_nil_iff.1 (stage_of_figures h g.kind.stage)).1 f
    (mem_ofStage.2 ⟨hf, hinput f hf, hstage⟩) g (mem_ofStage.2 ⟨hg, hinput g hg, rfl⟩)

/-- The rules for one figure hold of every figure of a legal set. -/
theorem figure_of_figures (h : figures fs = []) (hf : f ∈ fs) : figure f = [] := by
  obtain ⟨first, hfirst⟩ := exists_first_of_figures h
  obtain ⟨rest, rfl⟩ := List.head?_eq_some_iff.1 hfirst
  obtain ⟨-, -, hfigure, -⟩ := figures_cons_eq_nil.1 h
  exact hfigure f hf

end Footprint.Rules
