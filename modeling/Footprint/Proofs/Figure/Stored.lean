import Footprint.Proofs.Exchange.ReadBack

namespace Footprint

open Enumerated Exchange

theorem FigureSet.driver_mem (set : FigureSet) : set.driver ∈ set.figures := by
  simp [figures]

theorem FigureSet.ofFigures_eq_ok {trace : Uuid} {fs : List Figure} {o : Option FigureSet}
    (h : ofFigures trace fs = .ok o) : fs = (o.map figures).getD [] := by
  cases fs with
  | nil =>
    cases h
    rfl
  | cons driver others =>
    rw [ofFigures] at h
    split at h
    · cases h
    · cases h
      rfl

variable {s : Store} {trace : Uuid} {set : FigureSet} {f : Figure}

namespace Coherent

/-- The figures read for a part are those of its rows. -/
theorem mem_of_storedSet (h : Coherent s) {o : Option FigureSet}
    (hset : storedSet s trace = .ok o) :
    f ∈ (o.map FigureSet.figures).getD [] ↔
      ∃ r ∈ s.figures, r.trace = trace ∧ r.figure = .ok f := by
  obtain ⟨fs, hread, hmem⟩ := h.figuresOf trace
  rw [storedSet, hread] at hset
  rw [← FigureSet.ofFigures_eq_ok hset, hmem]

theorem mem_storedSet (h : Coherent s) (hset : storedSet s trace = .ok (some set)) :
    f ∈ set.figures ↔ ∃ r ∈ s.figures, r.trace = trace ∧ r.figure = .ok f :=
  h.mem_of_storedSet hset

/-- There is a set to read for the parts that have figures. -/
theorem isSome_of_storedSet (h : Coherent s) {o : Option FigureSet}
    (hset : storedSet s trace = .ok o) : o.isSome = s.hasFigures trace := by
  rw [Bool.eq_iff_iff, Store.hasFigures_iff]
  cases o with
  | none =>
    simp only [Option.isSome_none, Bool.false_eq_true, false_iff]
    rintro ⟨r, hr, htrace⟩
    obtain ⟨f, hf⟩ := (h.figures r hr).exists_figure
    have hmem := (h.mem_of_storedSet (f := f) hset).2 ⟨r, hr, htrace, hf⟩
    simp at hmem
  | some set =>
    obtain ⟨r, hr, htrace, -⟩ := (h.mem_storedSet hset).1 set.driver_mem
    exact iff_of_true rfl ⟨r, hr, htrace⟩

theorem exists_storedSet (h : Coherent s) (hsame : SameCertificates s trace)
    (hfigures : s.hasFigures trace) : ∃ set, storedSet s trace = .ok (some set) := by
  rcases h.storedSet_cases trace with ⟨-, o, hset⟩ | ⟨hdiffer, -⟩
  · obtain ⟨set, rfl⟩ := Option.isSome_iff_exists.1 ((h.isSome_of_storedSet hset).trans hfigures)
    exact ⟨set, hset⟩
  · exact absurd hsame hdiffer

/-- A stored figure is of a kind that operators supply and has a unit. -/
theorem input_of_storedSet (h : Coherent s) (hset : storedSet s trace = .ok (some set))
    (hf : f ∈ set.figures) : f.kind ∈ FigureKind.inputs ∧ f.unit.isSome := by
  obtain ⟨r, hr, -, hread⟩ := (h.mem_storedSet hset).1 hf
  obtain ⟨hunit, hkind, -⟩ := FigureRecord.figure_eq_ok.1 hread
  obtain ⟨⟨kind, hmem, hliteral⟩, ⟨u, hu⟩, -⟩ := h.figures r hr
  rw [literal_injective _ _ (hkind.symm.trans hliteral)]
  refine ⟨hmem, ?_⟩
  rw [hu] at hunit
  cases hnone : f.unit with
  | none => exact absurd (hunit.trans (by rw [hnone]; rfl)) (DeclaredUnit.literal_ne_empty u)
  | some _ => rfl

end Coherent

end Footprint
