import Footprint.Proofs.Figure.Stored
import Footprint.Proofs.Figure.Submitted
import Mathlib.Data.List.Perm.Basic

namespace Footprint

open Enumerated Exchange

/-- The rows kept for a trace are one of every input kind, they are read as the figures `g`, and
these agree on what a set shares. -/
structure Stated (s : Store) (trace : Uuid) (g : FigureKind → Figure) : Prop where
  kind : ∀ k ∈ FigureKind.inputs, (g k).kind = k
  rows : ∃ rows, (s.figures.filter fun r => r.trace = trace).Perm rows ∧
    List.Forall₂ (fun r k => r.figure = .ok (g k)) rows FigureKind.inputs
  shared : ∀ field ∈ SharedField.all, ∀ k ∈ FigureKind.inputs,
    field.agrees (g .preProduction) (g k)

/-- The set of one figure of every input kind. -/
def FigureSet.ofKinds (g : FigureKind → Figure) : FigureSet :=
  ⟨g .preProduction, [g .mainProduction, g .preComponent, g .mainComponent]⟩

variable {s : Store} {trace : Uuid} {g : FigureKind → Figure} {fs : List Figure}

@[simp] theorem FigureSet.figures_ofKinds : (ofKinds g).figures = FigureKind.inputs.map g := rfl

@[simp] theorem FigureSet.driver_ofKinds : (ofKinds g).driver = g .preProduction := rfl

theorem FigureSet.emission?_ofKinds (hkind : ∀ k ∈ FigureKind.inputs, (g k).kind = k)
    {k : FigureKind} (hk : k ∈ FigureKind.inputs) :
    (ofKinds g).emission? k = (g k).emission := by
  have hfind : (ofKinds g).figure? k = some (g k) := by
    rw [figure?, figures_ofKinds]
    refine Table.find?_of_unique (List.mem_map_of_mem hk) (by simp [hkind k hk]) fun f hf hfound => ?_
    obtain ⟨l, hl, rfl⟩ := List.mem_map.1 hf
    rw [← of_decide_eq_true hfound, hkind l hl]
  rw [emission?, hfind, Option.bind_some]

/-- Figures of all input kinds stand in canonical order once they are sorted. -/
theorem kinds_mergeSort (h : (fs.map (·.kind)).Perm FigureKind.inputs) :
    (fs.mergeSort fun f g => f.kind.rank ≤ g.kind.rank).map (·.kind) = FigureKind.inputs := by
  have hsorted : (fs.mergeSort fun f g => f.kind.rank ≤ g.kind.rank).Pairwise
      fun f g => decide (f.kind.rank ≤ g.kind.rank) = true :=
    List.pairwise_mergeSort (by simp only [decide_eq_true_eq]; omega) (by simp; omega) fs
  simp only [decide_eq_true_eq] at hsorted
  have hsame (k l : FigureKind) (hle : k.rank ≤ l.rank) (hge : l.rank ≤ k.rank) : k = l :=
    FigureKind.rank_injective (Nat.le_antisymm hle hge)
  exact ((List.mergeSort_perm _ _).map _ |>.trans h).eq_of_pairwise (fun k l _ _ => hsame k l)
    (List.pairwise_map.2 hsorted) (by decide)

theorem mergeSort_of_perm (hkind : ∀ k ∈ FigureKind.inputs, (g k).kind = k)
    (h : fs.Perm (FigureKind.inputs.map g)) :
    (fs.mergeSort fun f g => f.kind.rank ≤ g.kind.rank) = FigureKind.inputs.map g := by
  have hsorted : (fs.mergeSort fun f g => f.kind.rank ≤ g.kind.rank).Perm
      (FigureKind.inputs.map g) := (List.mergeSort_perm _ _).trans h
  have hmap : (FigureKind.inputs.map g).map (·.kind) = FigureKind.inputs := by
    rw [List.map_map]
    exact (List.map_congr_left hkind).trans (List.map_id _)
  -- A sorted figure is the one of its kind.
  have hself : ∀ f ∈ fs.mergeSort fun f g => f.kind.rank ≤ g.kind.rank, g f.kind = f := by
    intro f hf
    obtain ⟨k, hk, rfl⟩ := List.mem_map.1 (hsorted.mem_iff.1 hf)
    rw [hkind k hk]
  calc (fs.mergeSort fun f g => f.kind.rank ≤ g.kind.rank)
      = ((fs.mergeSort fun f g => f.kind.rank ≤ g.kind.rank).map (·.kind)).map g := by
        rw [List.map_map]
        exact ((List.map_congr_left hself).trans (List.map_id _)).symm
    _ = FigureKind.inputs.map g := by
        rw [kinds_mergeSort (hmap ▸ h.map _)]

/-- The kinds that are read are those of the rows. -/
theorem kinds_of_rows {rows : List FigureRecord}
    (h : List.Forall₂ (fun r f => r.figure = .ok f) rows fs) :
    rows.map (·.kind) = (fs.map (·.kind)).map literal := by
  rw [List.map_map, ← List.forall₂_eq_eq_eq, List.forall₂_map_left_iff, List.forall₂_map_right_iff]
  exact h.imp fun _ _ hread => (FigureRecord.figure_eq_ok.1 hread).2.1

/-- Figures of the input kinds in order are one for each kind. -/
theorem exists_of_kinds (h : fs.map (·.kind) = FigureKind.inputs) :
    ∃ g, fs = FigureKind.inputs.map g ∧ ∀ k ∈ FigureKind.inputs, (g k).kind = k := by
  simp only [FigureKind.inputs, List.map_eq_cons_iff, List.map_eq_nil_iff] at h
  obtain ⟨f₁, _, rfl, h₁, f₂, _, rfl, h₂, f₃, _, rfl, h₃, f₄, _, rfl, h₄, rfl⟩ := h
  refine ⟨fun
    | .preProduction => f₁
    | .mainProduction => f₂
    | .preComponent => f₃
    | _ => f₄, rfl, ?_⟩
  simp [FigureKind.inputs, h₁, h₂, h₃, h₄]

theorem exists_of_figuresOf (h : Submitted s) (hhas : s.hasFigures trace)
    (hread : s.figuresOf trace = .ok fs) :
    ∃ g, fs = FigureKind.inputs.map g ∧ (∀ k ∈ FigureKind.inputs, (g k).kind = k) ∧
      ∃ rows, (s.figures.filter fun r => r.trace = trace).Perm rows ∧
        List.Forall₂ (fun r k => r.figure = .ok (g k)) rows FigureKind.inputs := by
  obtain ⟨unsorted, hrows, rfl⟩ := Store.figuresOf_eq_ok.1 hread
  have hkinds : (unsorted.map (·.kind)).Perm FigureKind.inputs := by
    rw [← List.map_perm_map_iff literal_injective, ← kinds_of_rows hrows]
    exact h.perm_kinds hhas
  obtain ⟨g, hsorted, hkind⟩ := exists_of_kinds (kinds_mergeSort hkinds)
  obtain ⟨rows, hperm, hread⟩ : Relation.Comp List.Perm (List.Forall₂ fun r f => r.figure = .ok f)
      (s.figures.filter fun r => r.trace = trace) (FigureKind.inputs.map g) := by
    rw [← List.forall₂_comp_perm_eq_perm_comp_forall₂, ← hsorted]
    exact ⟨unsorted, hrows, (List.mergeSort_perm _ _).symm⟩
  rw [List.forall₂_map_right_iff] at hread
  exact ⟨g, hsorted, hkind, rows, hperm, hread⟩

theorem Stated.figuresOf (h : Stated s trace g) :
    s.figuresOf trace = .ok (FigureKind.inputs.map g) := by
  obtain ⟨rows, hperm, hread⟩ := h.rows
  rw [← List.forall₂_map_right_iff (R := fun (r : FigureRecord) f => r.figure = .ok f)] at hread
  obtain ⟨unsorted, hrows, hsorted⟩ := List.perm_comp_forall₂ hperm hread
  exact Store.figuresOf_eq_ok.2 ⟨unsorted, hrows, (mergeSort_of_perm h.kind hsorted).symm⟩

theorem SharedField.agrees_self (field : SharedField) (f : Figure) : field.agrees f f := by
  cases field <;> simp [agrees]

theorem ofFigures_inputs_eq_ok {o : Option FigureSet} :
    FigureSet.ofFigures trace (FigureKind.inputs.map g) = .ok o ↔
      (∀ field ∈ SharedField.all, ∀ k ∈ FigureKind.inputs,
        field.agrees (g .preProduction) (g k)) ∧ o = some (.ofKinds g) := by
  have hshared : FigureSet.disagreement? (g .preProduction)
      [g .mainProduction, g .preComponent, g .mainComponent] = none ↔
        ∀ field ∈ SharedField.all, ∀ k ∈ FigureKind.inputs,
          field.agrees (g .preProduction) (g k) := by
    simp [FigureSet.disagreement?, List.find?_eq_none, FigureKind.inputs,
      SharedField.agrees_self]
  rw [← hshared, FigureKind.inputs]
  simp only [List.map_cons, List.map_nil, FigureSet.ofFigures]
  cases FigureSet.disagreement? (g .preProduction)
      [g .mainProduction, g .preComponent, g .mainComponent] with
  | some field => simp
  | none => simp [FigureSet.ofKinds, eq_comm]

/-- No set is read for a part without figures, and else the one that its rows state. -/
theorem storedSet_eq_ok (h : Submitted s) {o : Option FigureSet} :
    storedSet s trace = .ok o ↔
      s.hasFigures trace = false ∧ o = none ∨ ∃ g, Stated s trace g ∧ o = some (.ofKinds g) := by
  rw [storedSet, bind_eq_ok]
  constructor
  · rintro ⟨fs, hread, hset⟩
    cases hhas : s.hasFigures trace with
    | false =>
      have hempty := Store.isEmpty_of_figuresOf hread
      rw [hhas, Bool.not_false, List.isEmpty_iff] at hempty
      subst hempty
      cases hset
      exact Or.inl ⟨rfl, rfl⟩
    | true =>
      obtain ⟨g, rfl, hkind, hrows⟩ := exists_of_figuresOf h hhas hread
      obtain ⟨hshared, rfl⟩ := ofFigures_inputs_eq_ok.1 hset
      exact Or.inr ⟨g, ⟨hkind, hrows, hshared⟩, rfl⟩
  · rintro (⟨hhas, rfl⟩ | ⟨g, hstated, rfl⟩)
    · have hnone : s.figures.filter (fun r => r.trace = trace) = [] := by
        simpa [Store.hasFigures] using hhas
      exact ⟨[], Store.figuresOf_eq_ok.2 ⟨[], by simp [hnone], by simp⟩, rfl⟩
    · exact ⟨_, hstated.figuresOf, ofFigures_inputs_eq_ok.2 ⟨hstated.shared, rfl⟩⟩

theorem storedSet_eq_none (h : Submitted s) :
    storedSet s trace = .ok none ↔ s.hasFigures trace = false := by
  simp [storedSet_eq_ok h]

theorem storedSet_eq_some (h : Submitted s) {set : FigureSet} :
    storedSet s trace = .ok (some set) ↔ ∃ g, Stated s trace g ∧ set = .ofKinds g := by
  simp [storedSet_eq_ok h]

end Footprint
