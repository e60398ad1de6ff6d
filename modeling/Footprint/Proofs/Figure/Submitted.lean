import Footprint.Proofs.Figure.Coherence
import Footprint.Proofs.Part.Ownership
import Footprint.Proofs.Rules.Number

namespace Footprint

open Table Enumerated Exchange

/-- The rows of a trace are those of the figures, one for each. -/
def Store.Holds (s : Store) (trace : Uuid) (fs : List Figure) : Prop :=
  (∀ r ∈ s.figures, r.trace = trace → ∃ f ∈ fs, r.Carries f) ∧
    ∀ f ∈ fs, ∃ r ∈ s.figures, r.trace = trace ∧ r.Carries f

/-- No trace has two rows of a kind, and the rows of a trace hold a legal set. -/
structure Submitted (s : Store) : Prop where
  keys : (s.figures.map fun r => (r.trace, r.kind)).Nodup
  sets : ∀ trace, s.hasFigures trace → ∃ fs, Rules.figures fs = [] ∧ s.Holds trace fs

variable {now : Instant} {s s' : Store} {reply : Reply} {trace : Uuid} {fs : List Figure}

theorem submitted_empty : Submitted Store.empty where
  keys := List.nodup_nil
  sets := by simp [Store.hasFigures, Store.empty]

/-- Rows of other traces do not matter. -/
theorem Store.Holds.congr (h : s.Holds trace fs)
    (hrows : ∀ r, r.trace = trace → (r ∈ s'.figures ↔ r ∈ s.figures)) : s'.Holds trace fs := by
  refine ⟨fun r hr htrace => h.1 r ((hrows r htrace).1 hr) htrace, fun f hf => ?_⟩
  obtain ⟨r, hr, htrace, hcarries⟩ := h.2 f hf
  exact ⟨r, (hrows r htrace).2 hr, htrace, hcarries⟩

/-- A change of rows that leaves them their figures. -/
theorem Store.Holds.map {change : FigureRecord → FigureRecord} (h : s.Holds trace fs)
    (hfigures : s'.figures = s.figures.map change) (htrace : ∀ r, (change r).trace = r.trace)
    (hcarries : ∀ r ∈ s.figures, r.trace = trace → ∀ f, r.Carries f → (change r).Carries f) :
    s'.Holds trace fs := by
  rw [Holds, hfigures, List.forall_mem_map]
  constructor
  · intro r hr hr'
    rw [htrace] at hr'
    obtain ⟨f, hf, hold⟩ := h.1 r hr hr'
    exact ⟨f, hf, hcarries r hr hr' f hold⟩
  · intro f hf
    obtain ⟨r, hr, hr', hold⟩ := h.2 f hf
    exact ⟨change r, List.mem_map_of_mem hr, (htrace r).trans hr', hcarries r hr hr' f hold⟩

theorem Store.Holds.certify {certified : Uuid} {certificates : List String}
    (h : s.Holds trace fs) : (s.certify now certified certificates).Holds trace fs := by
  refine h.map rfl (fun r => ?_) fun r _ _ f hold => ?_
  · split <;> rfl
  · split
    · exact ⟨hold.kind, hold.unit, hold.ratingKind, hold.emission, hold.rating⟩
    · exact hold

theorem Submitted.congr (h : Submitted s) (hfigures : s'.figures = s.figures) : Submitted s' where
  keys := by
    rw [hfigures]
    exact h.keys
  sets trace hhas := by
    have hbefore := (Store.hasFigures_congr (congrArg _ hfigures)).1 hhas
    obtain ⟨fs, hrules, hholds⟩ := h.sets trace hbefore
    exact ⟨fs, hrules, hholds.congr fun r _ => by rw [hfigures]⟩

theorem Submitted.drop {removed : List Uuid} (h : Submitted s)
    (hfigures : s'.figures = deleteWhere (fun r => removed.contains r.trace) s.figures) :
    Submitted s' where
  keys := by
    rw [hfigures]
    exact h.keys.sublist (List.filter_sublist.map _)
  sets trace htrace := by
    obtain ⟨hbefore, hkept⟩ := (Store.hasFigures_deleteWhere hfigures).1 htrace
    obtain ⟨fs, hrules, hholds⟩ := h.sets trace hbefore
    refine ⟨fs, hrules, hholds.congr ?_⟩
    rintro r rfl
    simp [hfigures, mem_deleteWhere, hkept]

theorem row_of_registered {first : Figure} {id : Uuid} {r : FigureRecord}
    (hblank : s.hasFigures first.trace = false)
    (hfigures : s'.figures = s.figures ++ fs.map (FigureRecord.ofFigure now id))
    (hr : r ∈ s'.figures) (htrace : r.trace = first.trace) :
    ∃ f ∈ fs, r = FigureRecord.ofFigure now id f := by
  rw [hfigures, List.mem_append] at hr
  rcases hr with hr | hr
  · exact absurd htrace (Store.trace_ne_of_blank hblank hr)
  · obtain ⟨f, hf, rfl⟩ := List.mem_map.1 hr
    exact ⟨f, hf, rfl⟩

/-- A new set is all that its part has. -/
theorem holds_of_registered {first : Figure} {id : Uuid} (hrules : Rules.figures fs = [])
    (hfirst : fs.head? = some first) (hblank : s.hasFigures first.trace = false)
    (hfigures : s'.figures = s.figures ++ fs.map (FigureRecord.ofFigure now id)) :
    s'.Holds first.trace fs := by
  refine ⟨fun r hr hr' => ?_, fun f hf => ⟨FigureRecord.ofFigure now id f, ?_, ?_, ?_⟩⟩
  · obtain ⟨f, hf, rfl⟩ := row_of_registered hblank hfigures hr hr'
    exact ⟨f, hf, FigureRecord.carries_ofFigure f⟩
  · rw [hfigures]
    exact List.mem_append_right _ (List.mem_map_of_mem hf)
  · exact (Rules.shared_of_figures hrules hfirst hf).1
  · exact FigureRecord.carries_ofFigure f

/-- A registration adds no rows to other parts. -/
theorem mem_registered {first : Figure} {id : Uuid} (hrules : Rules.figures fs = [])
    (hfirst : fs.head? = some first)
    (hfigures : s'.figures = s.figures ++ fs.map (FigureRecord.ofFigure now id))
    (hother : first.trace ≠ trace) (r : FigureRecord) (hr : r.trace = trace) :
    r ∈ s'.figures ↔ r ∈ s.figures := by
  rw [hfigures, List.mem_append, or_iff_left]
  intro hr'
  obtain ⟨f, hf, rfl⟩ := List.mem_map.1 hr'
  exact hother ((Rules.shared_of_figures hrules hfirst hf).1.symm.trans hr)

theorem Submitted.register {first : Figure} {id : Uuid} (h : Submitted s)
    (hrules : Rules.figures fs = []) (hfirst : fs.head? = some first)
    (hblank : s.hasFigures first.trace = false)
    (hfigures : s'.figures = s.figures ++ fs.map (FigureRecord.ofFigure now id))
    (hunique : insertAll FigureRecord.clash s.figures (fs.map (FigureRecord.ofFigure now id)) =
      some s'.figures) : Submitted s' := by
  constructor
  case keys =>
    refine nodup_map_of_insertAll (fun r q hclash hkey => ?_) h.keys hunique
    rw [Prod.mk.injEq] at hkey
    simp [FigureRecord.clash, hkey.1, hkey.2] at hclash
  case sets =>
    intro trace hhas
    by_cases hnew : first.trace = trace
    · subst hnew
      exact ⟨fs, hrules, holds_of_registered hrules hfirst hblank hfigures⟩
    · have hbefore : s.hasFigures trace :=
        ((hasFigures_registered hrules hfirst hfigures).1 hhas).resolve_left hnew
      obtain ⟨fs₀, hrules₀, hholds⟩ := h.sets trace hbefore
      exact ⟨fs₀, hrules₀, hholds.congr (mem_registered hrules hfirst hfigures hnew)⟩

/-- A revised set takes the place of the one before, figure by figure. -/
theorem holds_of_revised {fs₀ : List Figure} {change : FigureRecord → FigureRecord}
    (hrules : Rules.figures fs = []) (hrules₀ : Rules.figures fs₀ = [])
    (hholds : s.Holds trace fs₀) (hfigures : s'.figures = s.figures.map change)
    (hplace : ∀ r, (change r).place = r.place)
    (hcarried : ∀ r ∈ s.figures, r.trace = trace → ∃ f ∈ fs, (change r).Carries f) :
    s'.Holds trace fs := by
  have hplace (r : FigureRecord) := FigureRecord.place_eq_iff.1 (hplace r)
  rw [Store.Holds, hfigures]
  refine ⟨?_, fun f hf => ?_⟩
  · rw [List.forall_mem_map]
    exact fun r hr htrace => hcarried r hr ((hplace r).2.1.symm.trans htrace)
  · -- Both sets have one figure of every input kind.
    obtain ⟨first, hfirst⟩ := Rules.exists_first_of_figures hrules
    obtain ⟨-, -, -, -, hkind, -⟩ := Rules.shared_of_figures hrules hfirst hf
    obtain ⟨f₀, hf₀, hkind₀, -⟩ :=
      Rules.exists_kind_of_kinds (Rules.kinds_of_figures hrules₀) hkind
    obtain ⟨r, hr, htrace, hold⟩ := hholds.2 f₀ hf₀
    obtain ⟨g, hg, hcarries⟩ := hcarried r hr htrace
    have hgf : g.kind = f.kind := by
      refine literal_injective _ _ ?_
      rw [← hcarries.kind, (hplace r).2.2.1, hold.kind, hkind₀]
    obtain ⟨e, -, -, hunique⟩ :=
      Rules.exists_kind_of_kinds (Rules.kinds_of_figures hrules) hkind
    rw [hunique g hg hgf, ← hunique f hf rfl] at hcarries
    exact ⟨change r, List.mem_map_of_mem hr, (hplace r).2.1.trans htrace, hcarries⟩

theorem Submitted.revise {revised : List Figure} {setId : Uuid} (h : Submitted s)
    (hcoherent : Coherent s) (hrules : Rules.figures fs = [])
    (hrevised : fs.mapM (revisedFigure s setId) = .ok revised)
    (hwritten : s.reviseFigures now revised = .ok s') : Submitted s' := by
  obtain ⟨change, rfl, hplace, hother, hset⟩ := revised_rows hcoherent hrules hrevised hwritten
  have hplaces (r : FigureRecord) := FigureRecord.place_eq_iff.1 (hplace r)
  constructor
  case keys =>
    have hkeys : (s.figures.map change).map (fun r => (r.trace, r.kind)) =
        s.figures.map fun r => (r.trace, r.kind) := by
      rw [List.map_map]
      refine List.map_congr_left fun r _ => ?_
      rw [Function.comp_apply, (hplaces r).2.1, (hplaces r).2.2.1]
    rw [hkeys]
    exact h.keys
  case sets =>
    intro trace hhas
    have hbefore : s.hasFigures trace := by
      refine (Store.hasFigures_congr ?_).1 hhas
      rw [List.map_map]
      exact List.map_congr_left fun r _ => (hplaces r).2.1
    obtain ⟨fs₀, hrules₀, hholds⟩ := h.sets trace hbefore
    obtain ⟨r₀, hr₀, htrace₀⟩ := Store.hasFigures_iff.1 hbefore
    by_cases hsame : r₀.setId = setId
    · -- The set of the trace is the revised one.
      refine ⟨fs, hrules, holds_of_revised hrules hrules₀ hholds rfl hplace fun r hr htrace => ?_⟩
      exact hset r hr ((hcoherent.sets r hr r₀ hr₀ (htrace.trans htrace₀.symm)).1.trans hsame)
    · refine ⟨fs₀, hrules₀, hholds.map rfl (fun r => (hplaces r).2.1) fun r hr htrace f hold => ?_⟩
      have hdiffers : r.setId ≠ setId := fun hset =>
        hsame ((hcoherent.sets r₀ hr₀ r hr (htrace₀.trans htrace.symm)).1.trans hset)
      rw [hother r hr hdiffers]
      exact hold

theorem Submitted.certify {certified : Uuid} {certificates : List String} (h : Submitted s) :
    Submitted (s.certify now certified certificates) where
  keys := by
    have hkeys : (s.certify now certified certificates).figures.map (fun r => (r.trace, r.kind)) =
        s.figures.map fun r => (r.trace, r.kind) := map_updateWhere fun _ _ => rfl
    rw [hkeys]
    exact h.keys
  sets trace hhas := by
    have htraces : (s.certify now certified certificates).figures.map (·.trace) =
        s.figures.map (·.trace) := map_updateWhere fun _ _ => rfl
    obtain ⟨fs, hrules, hholds⟩ := h.sets trace ((Store.hasFigures_congr htraces).1 hhas)
    exact ⟨fs, hrules, hholds.certify⟩

theorem Submitted.of_reachable (h : Reachable s) : Submitted s := by
  refine h.induct submitted_empty ?_
  intro s s' reply c hs _ ih haccepted
  cases figureChange_of_accepted haccepted with
  | kept _ _ hfigures => exact ih.congr hfigures
  | dropped _ _ _ hfigures => exact ih.drop hfigures
  | registered _ _ hrules hfirst hblank _ hfigures hunique =>
    exact ih.register hrules hfirst hblank hfigures hunique
  | revised _ hrules _ hfound hwritten =>
    exact ih.revise (Coherent.of_reachable hs) hrules hfound hwritten
  | certified _ hwritten =>
    rw [hwritten]
    exact ih.certify

/-- All numbers of a row. -/
def FigureRecord.numbers (r : FigureRecord) : List Float :=
  [r.emission, r.technological, r.geographical, r.temporal].filterMap id

/-- The rows kept for a live part: one of every input kind, with an identifier of their own and one
unit, rated by stage, and with numbers that the rules admitted. -/
structure WholeSet (s : Store) (trace : Uuid) : Prop where
  part : ∃ r ∈ s.parts, r.trace = trace ∧ r.isLive
  kinds : ((s.figures.filter fun r => r.trace = trace).map (·.kind)).Perm
    (FigureKind.inputs.map literal)
  setId : ∃ id, ∀ r ∈ s.figures, r.setId = id ↔ r.trace = trace
  unit : ∃ u : DeclaredUnit, ∀ r ∈ s.figures, r.trace = trace → r.unit = literal u
  ratingKind : ∀ r ∈ s.figures, r.trace = trace → ∀ kind : FigureKind, r.kind = literal kind →
    r.ratingKind = literal kind.ratingKind
  ratings : ∀ r ∈ s.figures, ∀ q ∈ s.figures, r.trace = trace → q.trace = trace →
    ∀ kind kind' : FigureKind, r.kind = literal kind → q.kind = literal kind' →
      kind.stage = kind'.stage → r.rating = q.rating
  numbers : ∀ r ∈ s.figures, r.trace = trace → ∀ x ∈ r.numbers,
    Rules.Admits x ∧ ∃ y, Rules.Admits y ∧ x = storedNumber y

theorem Rating.stored_eq_of_agrees {r s : Rating} (h : r.agrees s) : r.stored = s.stored := by
  simp only [agrees, Bool.and_eq_true] at h
  obtain ⟨⟨htechnological, hgeographical⟩, htemporal⟩ := h
  ext1
  · exact map_stored_of_sameValue htechnological
  · exact map_stored_of_sameValue hgeographical
  · exact map_stored_of_sameValue htemporal

theorem FigureRecord.Carries.numbers {r : FigureRecord} {f : Figure} (h : r.Carries f)
    (hrules : Rules.figure f = []) {x : Float} (hx : x ∈ r.numbers) :
    ∃ y, Rules.Admits y ∧ x = storedNumber y := by
  obtain ⟨-, hemission, hrating, -⟩ := Rules.figure_eq_nil.1 hrules
  have hcolumn {o : Option Float} (ho : ∀ y ∈ o, Rules.Admits y)
      (hx : o.map storedNumber = some x) : ∃ y, Rules.Admits y ∧ x = storedNumber y := by
    obtain ⟨y, rfl, rfl⟩ := Option.map_eq_some_iff.1 hx
    exact ⟨y, ho y rfl, rfl⟩
  have hrow := h.rating
  simp only [FigureRecord.rating, Rating.stored, Rating.mk.injEq] at hrow
  simp only [Rating.components, List.forall_mem_cons] at hrating
  obtain ⟨htechnological, hgeographical, htemporal, -⟩ := hrating
  simp only [FigureRecord.numbers, List.mem_filterMap, List.mem_cons, List.not_mem_nil, or_false,
    id_eq, exists_eq_right] at hx
  rw [h.emission, hrow.1, hrow.2.1, hrow.2.2] at hx
  rcases hx with hx | hx | hx | hx
  · exact hcolumn (Rules.admits_of_optionalNumber hemission) hx.symm
  · exact hcolumn (Rules.admits_of_optionalNumber htechnological) hx.symm
  · exact hcolumn (Rules.admits_of_optionalNumber hgeographical) hx.symm
  · exact hcolumn (Rules.admits_of_optionalNumber htemporal) hx.symm

/-- The rows of a trace are as many as the input kinds, one of each. -/
theorem Submitted.perm_kinds (h : Submitted s) (hhas : s.hasFigures trace) :
    ((s.figures.filter fun r => r.trace = trace).map (·.kind)).Perm
      (FigureKind.inputs.map literal) := by
  obtain ⟨fs, hrules, hholds⟩ := h.sets trace hhas
  obtain ⟨first, hfirst⟩ := Rules.exists_first_of_figures hrules
  have hnodup : ((s.figures.filter fun r => r.trace = trace).map (·.kind)).Nodup := by
    refine List.Nodup.of_map (fun kind => (trace, kind)) ?_
    rw [List.map_map]
    have hcolumns : (s.figures.filter fun r => r.trace = trace).map
        ((fun kind => (trace, kind)) ∘ (·.kind)) =
        (s.figures.filter fun r => r.trace = trace).map fun r => (r.trace, r.kind) :=
      List.map_congr_left fun r hr => by simp [of_decide_eq_true (List.mem_filter.1 hr).2]
    rw [hcolumns]
    exact h.keys.sublist (List.filter_sublist.map _)
  refine (List.perm_ext_iff_of_nodup hnodup (by decide)).2 fun kind => ?_
  simp only [List.mem_map, List.mem_filter, decide_eq_true_eq]
  constructor
  · rintro ⟨r, ⟨hr, htrace⟩, rfl⟩
    obtain ⟨f, hf, hcarries⟩ := hholds.1 r hr htrace
    obtain ⟨-, -, -, -, hkind, -⟩ := Rules.shared_of_figures hrules hfirst hf
    exact ⟨f.kind, hkind, hcarries.kind.symm⟩
  · rintro ⟨kind, hkind, rfl⟩
    obtain ⟨f, hf, rfl, -⟩ := Rules.exists_kind_of_kinds (Rules.kinds_of_figures hrules) hkind
    obtain ⟨r, hr, htrace, hcarries⟩ := hholds.2 f hf
    exact ⟨r, ⟨hr, htrace⟩, hcarries.kind⟩

/-- In a reachable store the rows kept for a trace, if there are any, are a whole set. -/
theorem stored_set_whole (hs : Reachable s) (hhas : s.hasFigures trace) : WholeSet s trace := by
  have hcoherent := Coherent.of_reachable hs
  have hsubmitted := Submitted.of_reachable hs
  obtain ⟨fs, hrules, hholds⟩ := hsubmitted.sets trace hhas
  obtain ⟨first, hfirst⟩ := Rules.exists_first_of_figures hrules
  obtain ⟨r₀, hr₀, htrace₀⟩ := Store.hasFigures_iff.1 hhas
  constructor
  case part => exact live_part_of_figures hs hhas
  case kinds => exact hsubmitted.perm_kinds hhas
  case setId =>
    refine ⟨r₀.setId, fun r hr => ⟨fun hset => ?_, fun htrace => ?_⟩⟩
    · exact (hcoherent.traces r hr r₀ hr₀ hset).trans htrace₀
    · exact (hcoherent.sets r hr r₀ hr₀ (htrace.trans htrace₀.symm)).1
  case unit =>
    obtain ⟨u, hu⟩ := (hcoherent.figures r₀ hr₀).unit
    exact ⟨u, fun r hr htrace =>
      (hcoherent.sets r hr r₀ hr₀ (htrace.trans htrace₀.symm)).2.trans hu⟩
  case ratingKind =>
    intro r hr htrace kind hkind
    obtain ⟨f, hf, hcarries⟩ := hholds.1 r hr htrace
    obtain ⟨-, -, -, -, -, hpaired⟩ := Rules.shared_of_figures hrules hfirst hf
    rw [hcarries.ratingKind, hpaired, literal_injective _ _ (hcarries.kind.symm.trans hkind)]
  case ratings =>
    intro r hr q hq htrace htrace' kind kind' hkind hkind' hstage
    obtain ⟨f, hf, hcarries⟩ := hholds.1 r hr htrace
    obtain ⟨g, hg, hcarries'⟩ := hholds.1 q hq htrace'
    obtain rfl := literal_injective _ _ (hcarries.kind.symm.trans hkind)
    obtain rfl := literal_injective _ _ (hcarries'.kind.symm.trans hkind')
    rw [hcarries.rating, hcarries'.rating,
      Rating.stored_eq_of_agrees (Rules.agrees_of_figures hrules hf hg hstage)]
  case numbers =>
    intro r hr htrace x hx
    obtain ⟨f, hf, hcarries⟩ := hholds.1 r hr htrace
    obtain ⟨y, hy, rfl⟩ := hcarries.numbers (Rules.figure_of_figures hrules hf) hx
    exact ⟨hy.stored, y, hy, rfl⟩

/-- The sample's registration with numbers, negative zeros among them. -/
def measuredRegistration : Call :=
  sampleCall ⟨2⟩ (.putFigures (.v4 40) ((sampleFigures (.v4 20)).map fun f =>
    { f with
      emission := some (if f.kind.response?.isSome then 1.5 else -0.0)
      rating := ⟨some 2.1, some (-0.0), none⟩ }))

theorem stored_set_whole_measured :
    WholeSet (measuredRegistration.after sampleAnswered) (.v4 20) ∧
      (measuredRegistration.after sampleAnswered).figures.map (·.emission) =
        [some 1.5, some 1.5, some 0, some 0] := by
  have hreach : Reachable (measuredRegistration.after sampleAnswered) :=
    reachable_sampleAnswered.call measuredRegistration (by decide +kernel)
  exact ⟨stored_set_whole hreach (by decide +kernel), by decide +kernel⟩

end Footprint
