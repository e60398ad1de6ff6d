import Footprint.Proofs.Exchange.Accepted

namespace Footprint

open Table Exchange

namespace Store

variable {s s' : Store} {trace : Uuid}

theorem hasFigures_congr (h : s'.figures.map (·.trace) = s.figures.map (·.trace)) :
    s'.hasFigures trace ↔ s.hasFigures trace := by
  have hmem (s : Store) : s.hasFigures trace ↔ trace ∈ s.figures.map (·.trace) := by
    rw [hasFigures_iff, List.mem_map]
  rw [hmem, hmem, h]

end Store

variable {limits : TextLimits} {now : Instant} {caller : Uuid} {s s' : Store} {op : Operation}
variable {reply : Reply}

/-- What an accepted operation makes of parts and figures. -/
inductive FigureChange (now : Instant) (s : Store) (op : Operation) (s' : Store) : Prop
  | kept (none : op.registers = none) (parts : s'.parts = s.parts)
      (figures : s'.figures = s.figures)
  | dropped {author : Uuid} {removed : List Uuid} {ps : List Part} (none : op.registers = none)
      (untraded : ∀ trace ∈ removed, isTraded s trace = false)
      (parts : s'.parts = ps.foldl (Store.writePart now) (s.dropParts now author removed).parts)
      (figures : s'.figures = deleteWhere (fun r => removed.contains r.trace) s.figures)
  | registered {id : Uuid} {fs : List Figure} {first : Figure} (registers : op = .putFigures id fs)
      (new : op.registers = some first.trace)
      (rules : Rules.figures fs = []) (head : fs.head? = some first)
      (blank : s.hasFigures first.trace = false)
      (parts : s'.parts = s.parts)
      (figures : s'.figures = s.figures ++ fs.map (FigureRecord.ofFigure now id))
      (unique : insertAll FigureRecord.clash s.figures (fs.map (FigureRecord.ofFigure now id)) =
        some s'.figures)
  | revised {fs revised : List Figure} {first : Figure} {setId : Uuid} (none : op.registers = none)
      (rules : Rules.figures fs = []) (head : fs.head? = some first)
      (found : fs.mapM (revisedFigure s setId) = .ok revised)
      (written : s.reviseFigures now revised = .ok s')
  | certified {trace : Uuid} {certificates : List String} (none : op.registers = none)
      (written : s' = s.certify now trace certificates)

theorem figureChange_of_accepted (h : Accepted limits now caller s op reply s') :
    FigureChange now s op s' := by
  cases h with
  | putAssembly _ _ _ _ _ _ huntraded hwritten =>
    obtain ⟨-, -, hfigures, hparts, -⟩ := Store.putAssembly_eq_ok hwritten
    exact .dropped rfl huntraded hparts hfigures
  | @removeAssembly parent a _ huntraded =>
    exact @FigureChange.dropped _ _ _ _ a.parent.operator _ [] rfl huntraded rfl rfl
  | @registerFigures id fs first part completed hrules hfirst hnew _ hblank _ hunique =>
    have hop : (Operation.putFigures id fs).registers = some first.trace := by
      obtain ⟨rest, rfl⟩ := List.head?_eq_some_iff.1 hfirst
      simp [Operation.registers, hnew]
    exact .registered rfl hop hrules hfirst hblank rfl rfl hunique
  | @reviseFigures id fs first part setId revised _ hrules hfirst hold _ hfound hwritten =>
    have hop : (Operation.putFigures id fs).registers = none := by
      obtain ⟨rest, rfl⟩ := List.head?_eq_some_iff.1 hfirst
      simp [Operation.registers, hold]
    exact .revised hop hrules hfirst hfound hwritten
  | certify => exact .certified rfl rfl
  | openRequest => exact .kept rfl rfl rfl
  | reviseRequest _ _ _ _ _ _ _ _ hwritten =>
    obtain ⟨-, rfl⟩ := Store.reviseWith_eq_ok.1 hwritten
    exact .kept rfl rfl rfl
  | answer _ _ _ _ _ _ hwritten =>
    obtain ⟨-, rfl⟩ := Store.reviseWith_eq_ok.1 hwritten
    exact .kept rfl rfl rfl
  | cancel _ _ _ _ _ hwritten =>
    obtain ⟨-, rfl⟩ := Store.endRequest_eq_ok.1 hwritten
    exact .kept rfl rfl rfl
  | reject _ _ _ _ _ hwritten =>
    obtain ⟨-, rfl⟩ := Store.endRequest_eq_ok.1 hwritten
    exact .kept rfl rfl rfl
  | deleteTrade => exact .kept rfl rfl rfl

theorem hasFigures_registered {id : Uuid} {fs : List Figure} {first : Figure}
    (hrules : Rules.figures fs = []) (hfirst : fs.head? = some first) {trace : Uuid}
    (hs' : s'.figures = s.figures ++ fs.map (FigureRecord.ofFigure now id)) :
    s'.hasFigures trace ↔ first.trace = trace ∨ s.hasFigures trace := by
  rw [Store.hasFigures_iff, Store.hasFigures_iff, hs']
  constructor
  · rintro ⟨r, hr, rfl⟩
    rcases List.mem_append.1 hr with hr | hr
    · exact Or.inr ⟨r, hr, rfl⟩
    · obtain ⟨f, hf, rfl⟩ := List.mem_map.1 hr
      exact Or.inl (Rules.shared_of_figures hrules hfirst hf).1.symm
  · rintro (rfl | ⟨r, hr, rfl⟩)
    · have hmem : first ∈ fs := List.mem_of_mem_head? hfirst
      exact ⟨_, List.mem_append_right _ (List.mem_map_of_mem hmem), rfl⟩
    · exact ⟨r, List.mem_append_left _ hr, rfl⟩

/-- An operation removes the figures of some untraded parts, and a registration adds those of its
part. -/
theorem hasFigures_of_accepted (h : Accepted limits now caller s op reply s') :
    ∃ removed : List Uuid, (∀ trace ∈ removed, isTraded s trace = false) ∧
      ∀ trace, s'.hasFigures trace ↔
        op.registers = some trace ∨ s.hasFigures trace ∧ trace ∉ removed := by
  -- The rows stay with their parts.
  have hkept (hop : op.registers = none)
      (hfigures : s'.figures.map (·.trace) = s.figures.map (·.trace)) :
      ∃ removed : List Uuid, (∀ trace ∈ removed, isTraded s trace = false) ∧
        ∀ trace, s'.hasFigures trace ↔
          op.registers = some trace ∨ s.hasFigures trace ∧ trace ∉ removed := by
    refine ⟨[], by simp, fun trace => ?_⟩
    rw [Store.hasFigures_congr hfigures, hop]
    simp
  cases figureChange_of_accepted h with
  | kept hop _ hfigures => exact hkept hop (by rw [hfigures])
  | @dropped author removed ps hop huntraded _ hfigures =>
    refine ⟨removed, huntraded, fun trace => ?_⟩
    rw [Store.hasFigures_deleteWhere hfigures, hop]
    simp
  | registered _ hop hrules hfirst _ _ hfigures =>
    refine ⟨[], by simp, fun trace => ?_⟩
    rw [hasFigures_registered hrules hfirst hfigures, hop]
    simp
  | revised hop _ _ _ hwritten =>
    obtain ⟨figures, hfigures, rfl⟩ := Store.reviseFigures_eq_ok hwritten
    exact hkept hop (Store.map_reviseFigures (fun _ _ => rfl) hfigures)
  | certified hop hwritten =>
    have hcolumn : s'.figures.map (·.trace) = s.figures.map (·.trace) := by
      rw [hwritten]
      exact map_updateWhere fun _ _ => rfl
    exact hkept hop hcolumn

theorem figures_of_answer {trade trace : Uuid}
    (h : Accepted limits now caller s (.answer trade trace) reply s') : s'.figures = s.figures := by
  cases h with
  | answer _ _ _ _ _ _ hwritten =>
    obtain ⟨-, rfl⟩ := Store.reviseWith_eq_ok.1 hwritten
    rfl

end Footprint
