import Footprint.Proofs.Figure.Stored

namespace Footprint

open Enumerated Exchange

inductive Shown (s : Store) (p : Part) : List Figure → Prop
  | terminal {isParent set} (part_class : classOf s p = .ok (.terminal isParent))
      (stored : storedSet s p.trace = .ok (some set)) :
      Shown s p (if isParent then totalled set ⟨0, 0⟩ else set.figures)
  | blank (part_class : classOf s p = .ok .imported) (unrequested : s.requestFor? p.trace = none) :
      Shown s p (blankResponses p.trace)
  | supplied {set} (part_class : classOf s p = .ok .imported)
      (supplied : suppliedSet s p.trace = .ok (some set)) :
      Shown s p (responses set p.trace)
  | parent {children set components} (part_class : classOf s p = .ok (.parent children))
      (stored : storedSet s p.trace = .ok (some set))
      (added : children.foldlM (addChild s p.trace set.unit) ⟨0, 0⟩ = .ok components) :
      Shown s p (totalled set components)

variable {s : Store} {p : Part} {fs : List Figure} {f : Figure} {operator trace : Uuid}

theorem suppliedSet_eq_some {set : FigureSet} (h : suppliedSet s trace = .ok (some set)) :
    ∃ t part, s.requestFor? trace = some t ∧ t.supplierPart = some part ∧
      storedSet s part = .ok (some set) := by
  rw [suppliedSet] at h
  split at h
  · rename_i part hpart
    obtain ⟨t, hrequest, hpart⟩ := Option.bind_eq_some_iff.1 hpart
    exact ⟨t, part, hrequest, hpart, h⟩
  · cases h

theorem partFigures?_terminal {isParent : Bool} (h : classOf s p = .ok (.terminal isParent)) :
    partFigures? s p = (storedSet s p.trace).map fun o =>
      o.map fun set => if isParent then totalled set ⟨0, 0⟩ else set.figures := by
  rw [partFigures?, h, ok_bind]
  cases storedSet s p.trace with
  | error e => rfl
  | ok o => cases o <;> rfl

theorem partFigures?_imported (h : classOf s p = .ok .imported) :
    partFigures? s p =
      if s.requestFor? p.trace = none then .ok (some (blankResponses p.trace))
      else (suppliedSet s p.trace).map fun o => o.map fun set => responses set p.trace := by
  rw [partFigures?, h, ok_bind]
  cases hrequest : s.requestFor? p.trace with
  | none => rfl
  | some t =>
    rw [if_neg (Option.some_ne_none t), suppliedSet, hrequest]
    cases hpart : t.supplierPart with
    | none => simp [hpart, Except.map]
    | some part =>
      simp only [hpart, Option.bind_some]
      cases storedSet s part <;> rfl

theorem partFigures?_parent {children : List Part} (h : classOf s p = .ok (.parent children)) :
    partFigures? s p = storedSet s p.trace >>= fun
      | none => .ok none
      | some set => (children.foldlM (addChild s p.trace set.unit) ⟨0, 0⟩).map fun components =>
        some (totalled set components) := by
  rw [partFigures?, h, ok_bind]
  cases storedSet s p.trace with
  | error e => rfl
  | ok o =>
    cases o with
    | none => rfl
    | some set =>
      simp only [ok_bind]
      cases children.foldlM (addChild s p.trace set.unit) ⟨0, 0⟩ <;> rfl

/-- Every part that shows figures is one of the cases. -/
theorem shown_of_partFigures (h : partFigures? s p = .ok (some fs)) : Shown s p fs := by
  obtain ⟨k, hk, -⟩ := bind_eq_ok.1 h
  cases k with
  | terminal isParent =>
    rw [partFigures?_terminal hk] at h
    obtain ⟨o, hset, ho⟩ := exceptMap_eq_ok.1 h
    obtain ⟨set, rfl, rfl⟩ := Option.map_eq_some_iff.1 ho
    exact .terminal hk hset
  | imported =>
    rw [partFigures?_imported hk] at h
    split at h
    · cases h
      exact .blank hk ‹_›
    · obtain ⟨o, hset, ho⟩ := exceptMap_eq_ok.1 h
      obtain ⟨set, rfl, rfl⟩ := Option.map_eq_some_iff.1 ho
      exact .supplied hk hset
  | parent children =>
    rw [partFigures?_parent hk] at h
    obtain ⟨o, hset, h⟩ := bind_eq_ok.1 h
    cases o with
    | none => cases h
    | some set =>
      obtain ⟨components, hadded, h⟩ := exceptMap_eq_ok.1 h
      cases h
      exact .parent hk hset hadded

theorem vector_eq (h : s.part? operator trace = .ok (some p)) :
    vector s operator trace = (partFigures? s p).map (·.getD []) := by
  simp only [vector, h, ok_bind]
  cases partFigures? s p <;> rfl

/-- A parent shows nothing without a set of its own, and else the set with totals. -/
theorem vector_of_parent (hpart : s.part? operator trace = .ok (some p)) {children : List Part}
    (hclass : classOf s p = .ok (.parent children)) :
    vector s operator trace = .ok fs ↔ storedSet s trace = .ok none ∧ fs = [] ∨
      ∃ set components, storedSet s trace = .ok (some set) ∧
        children.foldlM (addChild s trace set.unit) ⟨0, 0⟩ = .ok components ∧
        fs = totalled set components := by
  rw [vector_eq hpart, partFigures?_parent hclass, (trace_of_part? hpart).1, exceptMap_eq_ok]
  constructor
  · rintro ⟨_, h, rfl⟩
    obtain ⟨o, hset, h⟩ := bind_eq_ok.1 h
    cases o with
    | none =>
      cases h
      exact Or.inl ⟨hset, rfl⟩
    | some set =>
      obtain ⟨components, hadded, rfl⟩ := exceptMap_eq_ok.1 h
      exact Or.inr ⟨set, components, hset, hadded, rfl⟩
  · rintro (⟨hset, rfl⟩ | ⟨set, components, hset, hadded, rfl⟩)
    · exact ⟨none, bind_eq_ok.2 ⟨none, hset, rfl⟩, rfl⟩
    · exact ⟨_, bind_eq_ok.2 ⟨some set, hset, exceptMap_eq_ok.2 ⟨components, hadded, rfl⟩⟩, rfl⟩

theorem shown_of_vector (h : vector s operator trace = .ok fs) (hf : f ∈ fs) :
    ∃ p, s.part? operator trace = .ok (some p) ∧ Shown s p fs := by
  obtain ⟨o, hpart, -⟩ := bind_eq_ok.1 h
  cases o with
  | none =>
    rw [vector, hpart] at h
    cases h
    cases hf
  | some p =>
    rw [vector_eq hpart] at h
    obtain ⟨o, hshown, rfl⟩ := exceptMap_eq_ok.1 h
    cases o with
    | none => cases hf
    | some fs => exact ⟨p, hpart, shown_of_partFigures hshown⟩

theorem figuresFor_eq_ok {traces : List Uuid} :
    figuresFor s operator traces = .ok fs ↔
      ∃ vectors, traces.mapM (vector s operator) = .ok vectors ∧ vectors.flatten = fs := by
  simp [figuresFor, bind_eq_ok]

/-- Every figure that is read is one that a part shows. -/
theorem shown_of_figuresFor {traces : List Uuid} (h : figuresFor s operator traces = .ok fs)
    (hf : f ∈ fs) :
    ∃ trace ∈ traces, ∃ p v, s.part? operator trace = .ok (some p) ∧ Shown s p v ∧ f ∈ v := by
  obtain ⟨vectors, hread, rfl⟩ := figuresFor_eq_ok.1 h
  obtain ⟨v, hv, hf⟩ := List.mem_flatten.1 hf
  obtain ⟨trace, htrace, hvector⟩ := (mem_of_mapM_eq_ok hread).2 v hv
  obtain ⟨p, hpart, hshown⟩ := shown_of_vector hvector hf
  exact ⟨trace, htrace, p, v, hpart, hshown, hf⟩

theorem figuresFor_singleton :
    figuresFor s operator [trace] = vector s operator trace := by
  simp only [figuresFor, List.mapM_cons, List.mapM_nil]
  cases vector s operator trace <;> simp [bind, Except.bind, pure, Except.pure]

theorem kind_of_totalled {set : FigureSet} {components : Components}
    (hf : f ∈ totalled set components) :
    f ∈ set.figures ∨ f.kind.isTotal ∧ f.trace = set.driver.trace := by
  rcases List.mem_append.1 hf with hf | hf
  · exact Or.inl hf
  · simp only [List.mem_cons, List.not_mem_nil, or_false] at hf
    rcases hf with rfl | rfl | rfl | rfl <;> exact Or.inr ⟨rfl, rfl⟩

theorem kind_of_responses {set : FigureSet} (hf : f ∈ responses set trace) :
    f.kind.isResponse ∧ f.trace = trace ∧ f.unit = set.unit := by
  simp only [responses, FigureKind.response?, List.filterMap_cons, List.filterMap_nil,
    Option.map_some, List.mem_cons, List.not_mem_nil, or_false] at hf
  rcases hf with rfl | rfl <;> exact ⟨rfl, rfl, rfl⟩

theorem kind_of_blankResponses (hf : f ∈ blankResponses trace) :
    f.kind.isResponse ∧ f.trace = trace ∧ f.unit = none := by
  simp only [blankResponses, List.map_cons, List.map_nil, List.mem_cons, List.not_mem_nil,
    or_false] at hf
  rcases hf with rfl | rfl <;> exact ⟨rfl, rfl, rfl⟩

end Footprint
