import Footprint.Proofs.Figure.Shown
import Footprint.Proofs.Figure.Submitted
import Footprint.Proofs.Part.Placement

namespace Footprint

open Enumerated Exchange

/-- The emission kept for a part. -/
def Store.emission? (s : Store) (trace : Uuid) (kind : FigureKind) : Option Float :=
  (s.figures.find? fun r => r.trace = trace && r.kind = literal kind).bind (·.emission)

/-- The kind under which a part shows its production: a supplier's comes as a response. -/
def Part.shownKind (p : Part) (kind : FigureKind) : FigureKind :=
  if p.terminal then kind else kind.response?.getD kind

/-- The emission that a child is shown with for a kind. -/
def shownEmission? (kind : FigureKind) (child : Part) (fs : List Figure) : Option Float :=
  (fs.find? fun f => f.kind = child.shownKind kind).bind (·.emission)

/-- Adds the emission of a child, which counts as zero when it is not stated. A child shown without
a unit is left out. -/
def addShown (kind : FigureKind) (sum : Float) (view : Part × List Figure) : Float :=
  if view.2.any (·.unit.isSome) then sum + (shownEmission? kind view.1 view.2).getD 0 else sum

/-- The emissions that children are shown with, added up in order. -/
def shownSum (kind : FigureKind) (views : List (Part × List Figure)) : Float :=
  views.foldl (addShown kind) 0

variable {s : Store} {operator trace : Uuid} {set : FigureSet} {child : Part} {fs : List Figure}
variable {kind : FigureKind} {unit : Option DeclaredUnit}

theorem unit_of_storedSet (h : Coherent s) (hset : storedSet s trace = .ok (some set)) {f : Figure}
    (hf : f ∈ set.figures) : f.unit = set.unit := by
  obtain ⟨r, hr, htrace, hread⟩ := (h.mem_storedSet hset).1 hf
  obtain ⟨q, hq, htrace', hread'⟩ := (h.mem_storedSet hset).1 set.driver_mem
  exact (h.agree hr hq (htrace.trans htrace'.symm) hread hread').2.2.1

/-- The emission read for a kind is the one of its row. -/
theorem emission_of_storedSet (h : Coherent s) (hsubmitted : Submitted s)
    (hset : storedSet s trace = .ok (some set)) : set.emission? kind = s.emission? trace kind := by
  have hrow {r : FigureRecord} (hr : r ∈ s.figures) (htrace : r.trace = trace)
      (hkind : r.kind = literal kind) :
      s.figures.find? (fun r => r.trace = trace && r.kind = literal kind) = some r := by
    refine Table.find?_of_unique hr (by simp [htrace, hkind]) fun q hq hfound => ?_
    simp only [Bool.and_eq_true, decide_eq_true_eq] at hfound
    refine Table.eq_of_key_eq hsubmitted.keys hq hr ?_
    simp [htrace, hkind, hfound]
  rw [FigureSet.emission?, FigureSet.figure?, Store.emission?]
  cases hfind : set.figures.find? fun f => f.kind = kind with
  | some f =>
    obtain ⟨r, hr, htrace, hread⟩ := (h.mem_storedSet hset).1 (List.mem_of_find?_eq_some hfind)
    obtain ⟨-, hkind, -, -, -, -, hemission, -⟩ := FigureRecord.figure_eq_ok.1 hread
    have hkind' : f.kind = kind := by simpa using List.find?_some hfind
    rw [hrow hr htrace (hkind.trans (congrArg literal hkind'))]
    exact hemission
  | none =>
    cases hfind' : s.figures.find? fun r => r.trace = trace && r.kind = literal kind with
    | none => rfl
    | some r =>
      -- A row of the kind would have been read as a figure of the kind.
      have hr := List.mem_of_find?_eq_some hfind'
      have hfound := List.find?_some hfind'
      simp only [Bool.and_eq_true, decide_eq_true_eq] at hfound
      obtain ⟨f, hread⟩ := (h.figures r hr).exists_figure
      have hkind : f.kind = kind :=
        literal_injective _ _ ((FigureRecord.figure_eq_ok.1 hread).2.1.symm.trans hfound.2)
      have hf := (h.mem_storedSet hset).2 ⟨r, hr, hfound.1, hread⟩
      exact absurd (decide_eq_true hkind) (List.find?_eq_none.1 hfind f hf)

/-- What a child shows of the set it contributes. -/
def childFigures (child : Part) (set : FigureSet) : List Figure :=
  if child.terminal then set.figures else responses set child.trace

theorem vector_of_child (hpart : s.part? operator child.trace = .ok (some child))
    (hnot : s.isParent child.trace = false) :
    vector s operator child.trace =
      if child.terminal = false ∧ s.requestFor? child.trace = none then
        .ok (blankResponses child.trace)
      else (contribution s child).map fun o => (o.map (childFigures child)).getD [] := by
  rw [vector_eq hpart, contribution]
  cases hterminal : child.terminal with
  | true =>
    have hclass : classOf s child = .ok (.terminal false) := by
      simp [classOf, hterminal, hnot]
    rw [partFigures?_terminal hclass, if_neg (by simp), if_pos rfl]
    cases storedSet s child.trace with
    | error e => rfl
    | ok o => cases o <;> simp [Except.map, childFigures, hterminal]
  | false =>
    have hclass : classOf s child = .ok .imported := by
      simp [classOf, hterminal, hnot]
    rw [partFigures?_imported hclass]
    by_cases hrequest : s.requestFor? child.trace = none
    · simp [hrequest, Except.map]
    · rw [if_neg hrequest, if_neg (by simp [hrequest]), if_neg (by simp)]
      cases suppliedSet s child.trace with
      | error e => rfl
      | ok o => cases o <;> simp [Except.map, childFigures, hterminal]

/-- A child that contributes nothing is shown without units. -/
theorem contribution_of_vector (hpart : s.part? operator child.trace = .ok (some child))
    (hnot : s.isParent child.trace = false) (h : vector s operator child.trace = .ok fs) :
    (contribution s child = .ok none ∧ ∀ f ∈ fs, f.unit = none) ∨
      ∃ set, contribution s child = .ok (some set) ∧ fs = childFigures child set := by
  rw [vector_of_child hpart hnot] at h
  split at h
  · rename_i hblank
    cases h
    refine Or.inl ⟨?_, fun f hf => (kind_of_blankResponses hf).2.2⟩
    simp [contribution, hblank.1, suppliedSet, hblank.2]
  · obtain ⟨o, ho, rfl⟩ := exceptMap_eq_ok.1 h
    cases o with
    | none => exact Or.inl ⟨ho, by simp⟩
    | some set => exact Or.inr ⟨set, ho, rfl⟩

theorem exists_vector_of_contribution (hpart : s.part? operator child.trace = .ok (some child))
    (hnot : s.isParent child.trace = false) {o : Option FigureSet}
    (h : contribution s child = .ok o) : ∃ fs, vector s operator child.trace = .ok fs := by
  rw [vector_of_child hpart hnot, h]
  split
  · exact ⟨_, rfl⟩
  · exact ⟨_, rfl⟩

/-- Whatever a contributing child shows has the unit of its contribution. -/
theorem unit_of_childFigures (h : Coherent s) (hset : contribution s child = .ok (some set)) :
    (∀ f ∈ childFigures child set, f.unit = set.unit) ∧
      (childFigures child set).any (·.unit.isSome) := by
  have hstored : ∃ part, storedSet s part = .ok (some set) := by
    rw [contribution] at hset
    split at hset
    · exact ⟨_, hset⟩
    · obtain ⟨_, part, -, -, hset⟩ := suppliedSet_eq_some hset
      exact ⟨part, hset⟩
  obtain ⟨part, hstored⟩ := hstored
  have hsome : set.unit.isSome := (h.input_of_storedSet hstored set.driver_mem).2
  rw [childFigures]
  split
  · refine ⟨fun f hf => unit_of_storedSet h hstored hf, ?_⟩
    exact List.any_eq_true.2 ⟨set.driver, set.driver_mem, hsome⟩
  · refine ⟨fun f hf => (kind_of_responses hf).2.2, ?_⟩
    refine List.any_eq_true.2
      ⟨responseFigure set child.trace .preProduction .preProductionResponse, ?_, hsome⟩
    simp [responses, FigureKind.response?]

theorem emission_of_childFigures (hkind : kind = .preProduction ∨ kind = .mainProduction) :
    shownEmission? kind child (childFigures child set) = set.emission? kind := by
  cases hterminal : child.terminal with
  | true => simp [shownEmission?, childFigures, Part.shownKind, hterminal, FigureSet.emission?,
      FigureSet.figure?]
  | false =>
    rcases hkind with rfl | rfl <;>
      simp [shownEmission?, childFigures, Part.shownKind, hterminal, responses, responseFigure,
        FigureKind.response?, Figure.derive]

theorem addChild_eq_ok {c c' : Components} :
    addChild s trace unit c child = .ok c' ↔
      (contribution s child = .ok none ∧ c' = c) ∨
        ∃ set, contribution s child = .ok (some set) ∧ set.unit = unit ∧
          c' = ⟨c.pre + (set.emission? .preProduction).getD 0,
            c.main + (set.emission? .mainProduction).getD 0⟩ := by
  rw [addChild, bind_eq_ok]
  constructor
  · rintro ⟨o, ho, h⟩
    cases o with
    | none =>
      cases h
      exact Or.inl ⟨ho, rfl⟩
    | some set =>
      dsimp only at h
      split at h
      · cases h
        exact Or.inr ⟨set, ho, ‹_›, rfl⟩
      · cases h
  · rintro (⟨ho, rfl⟩ | ⟨set, ho, hunit, rfl⟩)
    · exact ⟨none, ho, rfl⟩
    · exact ⟨some set, ho, if_pos hunit⟩

/-- The children can be added up when each contributes nothing or figures of the unit. -/
theorem exists_foldlM_addChild {children : List Part} {c : Components} :
    (∃ c', children.foldlM (addChild s trace unit) c = .ok c') ↔
      ∀ child ∈ children, ∃ o, contribution s child = .ok o ∧
        ∀ set, o = some set → set.unit = unit := by
  induction children generalizing c with
  | nil => simp [pure, Except.pure]
  | cons child children ih =>
    rw [List.forall_mem_cons]
    simp only [List.foldlM_cons, bind_eq_ok]
    constructor
    · rintro ⟨c', c₁, hadd, hrest⟩
      refine ⟨?_, ih.1 ⟨c', hrest⟩⟩
      rcases addChild_eq_ok.1 hadd with ⟨ho, -⟩ | ⟨set, ho, hunit, -⟩
      · exact ⟨none, ho, by simp⟩
      · exact ⟨some set, ho, by simpa using hunit⟩
    · rintro ⟨⟨o, ho, hunit⟩, hrest⟩
      obtain ⟨c₁, hadd⟩ : ∃ c₁, addChild s trace unit c child = .ok c₁ := by
        cases o with
        | none => exact ⟨_, addChild_eq_ok.2 (Or.inl ⟨ho, rfl⟩)⟩
        | some set => exact ⟨_, addChild_eq_ok.2 (Or.inr ⟨set, ho, hunit set rfl, rfl⟩)⟩
      obtain ⟨c', hrest⟩ := ih.2 hrest
      exact ⟨c', c₁, hadd, hrest⟩

/-- A child can be added when it can be shown without figures of another unit. -/
theorem addable_iff_shown (h : Coherent s) (hpart : s.part? operator child.trace = .ok (some child))
    (hnot : s.isParent child.trace = false) :
    (∃ o, contribution s child = .ok o ∧ ∀ set, o = some set → set.unit = unit) ↔
      ∃ fs, vector s operator child.trace = .ok fs ∧
        ∀ f ∈ fs, ∀ u, f.unit = some u → unit = some u := by
  constructor
  · rintro ⟨o, ho, hunit⟩
    obtain ⟨fs, hfs⟩ := exists_vector_of_contribution hpart hnot ho
    refine ⟨fs, hfs, fun f hf u hu => ?_⟩
    rcases contribution_of_vector hpart hnot hfs with ⟨-, hblank⟩ | ⟨set, hset, rfl⟩
    · cases (hblank f hf).symm.trans hu
    · cases ho.symm.trans hset
      rw [← hunit set rfl, ← (unit_of_childFigures h hset).1 f hf, hu]
  · rintro ⟨fs, hfs, hunits⟩
    rcases contribution_of_vector hpart hnot hfs with ⟨ho, -⟩ | ⟨set, hset, rfl⟩
    · exact ⟨none, ho, by simp⟩
    · obtain ⟨hsame, hany⟩ := unit_of_childFigures h hset
      obtain ⟨f, hf, hsome⟩ := List.any_eq_true.1 hany
      obtain ⟨u, hu⟩ := Option.isSome_iff_exists.1 hsome
      have hunit : set.unit = unit := by rw [← hsame f hf, hunits f hf u hu, hu]
      exact ⟨some set, hset, by simpa using hunit⟩

/-- Adding contributions and adding what is shown is the same. -/
theorem foldlM_addChild_eq (h : Coherent s) {children : List Part} {views : List (List Figure)}
    (hchildren : ∀ child ∈ children,
      s.part? operator child.trace = .ok (some child) ∧ s.isParent child.trace = false)
    (hviews : List.Forall₂ (fun child fs => vector s operator child.trace = .ok fs) children views)
    {c c' : Components} (hadded : children.foldlM (addChild s trace unit) c = .ok c') :
    c' = ⟨(children.zip views).foldl (addShown .preProduction) c.pre,
      (children.zip views).foldl (addShown .mainProduction) c.main⟩ := by
  induction hviews generalizing c with
  | nil =>
    cases hadded
    rfl
  | @cons child fs children views hview _ ih =>
    obtain ⟨⟨hpart, hnot⟩, hchildren⟩ := List.forall_mem_cons.1 hchildren
    rw [List.foldlM_cons] at hadded
    obtain ⟨c₁, hadd, hrest⟩ := bind_eq_ok.1 hadded
    have hstep : c₁ = ⟨addShown .preProduction c.pre (child, fs),
        addShown .mainProduction c.main (child, fs)⟩ := by
      rcases contribution_of_vector hpart hnot hview with ⟨ho, hblank⟩ | ⟨set, hset, rfl⟩
      · have hnone : fs.any (·.unit.isSome) = false := by
          simpa using hblank
        rcases addChild_eq_ok.1 hadd with ⟨-, rfl⟩ | ⟨set, hset, -⟩
        · simp [addShown, hnone]
        · cases ho.symm.trans hset
      · have hany := (unit_of_childFigures h hset).2
        rcases addChild_eq_ok.1 hadd with ⟨ho, -⟩ | ⟨set', hset', -, rfl⟩
        · cases ho.symm.trans hset
        · cases hset.symm.trans hset'
          simp [addShown, hany, emission_of_childFigures]
    rw [List.zip_cons_cons, List.foldl_cons, List.foldl_cons, ih hchildren hrest, hstep]

theorem classOf_parent {a : Assembly} (ha : s.assembly? operator trace = .ok (some a))
    (hterminal : a.parent.terminal = false) (hchildren : a.children ≠ []) :
    classOf s a.parent = .ok (.parent a.children) := by
  obtain ⟨hpart, hparent, -⟩ := assembly?_eq_some ha
  obtain ⟨rfl, rfl⟩ := trace_of_part? hpart
  obtain ⟨child, children, hcons⟩ := List.exists_cons_of_ne_nil hchildren
  simp [classOf, hterminal, hparent, ha, ok_bind, hcons]

/-- The totals among the figures of a parent. -/
theorem totals_of_totalled (h : Coherent s) (hset : storedSet s trace = .ok (some set))
    {components : Components} :
    ((totalled set components).filter (·.kind.isTotal)).map (fun f => (f.kind, f.emission)) =
      [(.preProductionTotal, set.emission? .preProduction),
        (.mainProductionTotal, set.emission? .mainProduction),
        (.preComponentTotal, some (fiveDecimals components.pre)),
        (.mainComponentTotal, some (fiveDecimals components.main))] := by
  have hnone : set.figures.filter (·.kind.isTotal) = [] := by
    refine List.filter_eq_nil_iff.2 fun f hf => ?_
    have hinput := (FigureKind.isInput_iff _).2 (h.input_of_storedSet hset hf).1
    simp only [FigureKind.isInput, Bool.and_eq_true, Bool.not_eq_true'] at hinput
    simp [hinput.1]
  rw [totalled, List.filter_append, hnone]
  rfl

/-- The figures of a parent are its set with totals over its children. -/
theorem vector_parent_eq_ok (fs : List Figure) (h : Coherent s) {a : Assembly}
    (ha : s.assembly? operator trace = .ok (some a)) (hterminal : a.parent.terminal = false)
    (hchildren : a.children ≠ []) (hfigures : s.hasFigures trace) :
    vector s operator trace = .ok fs ↔
      ∃ own components, storedSet s trace = .ok (some own) ∧
        a.children.foldlM (addChild s trace own.unit) ⟨0, 0⟩ = .ok components ∧
        fs = totalled own components := by
  obtain ⟨hpart, -, -⟩ := assembly?_eq_some ha
  rw [vector_of_parent hpart (classOf_parent ha hterminal hchildren), or_iff_right]
  rintro ⟨hnone, -⟩
  have hblank := h.isSome_of_storedSet hnone
  rw [hfigures] at hblank
  cases hblank

/-- In a reachable store the figures of a parent with children can be read exactly when its own set
passes the guard and every child can be read without figures declared against another unit. The
production totals are then the stored emissions, and the component totals are the rounded sums of
the emissions that the children are shown with. -/
theorem totals_agree (hs : Reachable s) {a : Assembly}
    (ha : s.assembly? operator trace = .ok (some a)) (hterminal : a.parent.terminal = false)
    (hchildren : a.children ≠ []) (hfigures : s.hasFigures trace) :
    ((∃ fs, figuresFor s operator [trace] = .ok fs) ↔
      ∃ own, storedSet s trace = .ok (some own) ∧
        ∀ child ∈ a.children, ∃ fs, figuresFor s operator [child.trace] = .ok fs ∧
          ∀ f ∈ fs, ∀ u, f.unit = some u → own.unit = some u) ∧
    ∀ fs, figuresFor s operator [trace] = .ok fs →
      ∃ views, a.children.mapM (fun child => figuresFor s operator [child.trace]) = .ok views ∧
        (fs.filter (·.kind.isTotal)).map (fun f => (f.kind, f.emission)) =
          [(.preProductionTotal, s.emission? trace .preProduction),
            (.mainProductionTotal, s.emission? trace .mainProduction),
            (.preComponentTotal,
              some (fiveDecimals (shownSum .preProduction (a.children.zip views)))),
            (.mainComponentTotal,
              some (fiveDecimals (shownSum .mainProduction (a.children.zip views))))] := by
  have hcoherent := Coherent.of_reachable hs
  have hchild : ∀ child ∈ a.children,
      s.part? operator child.trace = .ok (some child) ∧ s.isParent child.trace = false :=
    fun child hmem => child_of_assembly hs ha hmem
  have hshown {unit : Option DeclaredUnit} {child : Part} (hmem : child ∈ a.children) :
      (∃ o, contribution s child = .ok o ∧ ∀ set, o = some set → set.unit = unit) ↔
        ∃ fs, vector s operator child.trace = .ok fs ∧
          ∀ f ∈ fs, ∀ u, f.unit = some u → unit = some u :=
    addable_iff_shown hcoherent (hchild child hmem).1 (hchild child hmem).2
  have hread (fs : List Figure) :=
    vector_parent_eq_ok fs hcoherent ha hterminal hchildren hfigures
  simp only [figuresFor_singleton]
  constructor
  · constructor
    · rintro ⟨fs, hfs⟩
      obtain ⟨own, components, hset, hadded, -⟩ := (hread _).1 hfs
      exact ⟨own, hset, fun child hmem =>
        (hshown hmem).1 (exists_foldlM_addChild.1 ⟨components, hadded⟩ child hmem)⟩
    · rintro ⟨own, hset, hviews⟩
      obtain ⟨components, hadded⟩ :=
        exists_foldlM_addChild.2 fun child hmem => (hshown hmem).2 (hviews child hmem)
      exact ⟨_, (hread _).2 ⟨own, components, hset, hadded, rfl⟩⟩
  · intro fs hfs
    obtain ⟨own, components, hset, hadded, rfl⟩ := (hread _).1 hfs
    obtain ⟨views, hviews⟩ : ∃ views,
        a.children.mapM (fun child => vector s operator child.trace) = .ok views := by
      refine exists_mapM_eq_ok fun child hmem => ?_
      obtain ⟨fs, hfs, -⟩ :=
        (hshown hmem).1 (exists_foldlM_addChild.1 ⟨components, hadded⟩ child hmem)
      exact ⟨fs, hfs⟩
    refine ⟨views, hviews, ?_⟩
    have hsum := foldlM_addChild_eq hcoherent hchild (mapM_eq_ok_iff.1 hviews) hadded
    have hsubmitted := Submitted.of_reachable hs
    rw [totals_of_totalled hcoherent hset, hsum, emission_of_storedSet hcoherent hsubmitted hset,
      emission_of_storedSet hcoherent hsubmitted hset]
    rfl

/-- What a terminal child is shown with is what is kept for it. -/
theorem addShown_of_terminal (hs : Reachable s) (hterminal : child.terminal)
    (hset : storedSet s child.trace = .ok (some set))
    (hkind : kind = .preProduction ∨ kind = .mainProduction) (sum : Float) :
    addShown kind sum (child, childFigures child set) =
      sum + (s.emission? child.trace kind).getD 0 := by
  have hcoherent := Coherent.of_reachable hs
  have hcontribution : contribution s child = .ok (some set) := by
    rw [contribution, if_pos hterminal, hset]
  rw [addShown, if_pos (unit_of_childFigures hcoherent hcontribution).2,
    emission_of_childFigures hkind,
    emission_of_storedSet hcoherent (Submitted.of_reachable hs) hset]

def componentDraft : AssemblyDraft where
  parent := (sampleDraft ⟨1⟩ false).parent
  children := (sampleDraft ⟨1⟩ true).parent.toList ++ (sampleDraft ⟨1⟩ true).parent.toList

def emittedFigures (trace : Uuid) (emission : Float) : List Figure :=
  (sampleFigures trace).map fun f => { f with emission := some emission }

/-- Operator 1 makes its part 10 of the components 11 and 12 and states figures of all three. -/
def componentCalls : List Call :=
  [ sampleCall ⟨1⟩ (.putAssembly [.v4 10, .v4 11, .v4 12] componentDraft),
    sampleCall ⟨1⟩ (.putFigures (.v4 40) (emittedFigures (.v4 10) 1.5)),
    sampleCall ⟨1⟩ (.putFigures (.v4 41) (emittedFigures (.v4 11) 0.1)),
    sampleCall ⟨1⟩ (.putFigures (.v4 42) (emittedFigures (.v4 12) 0.2)) ]

def componentStore : Store :=
  runAll componentCalls Store.empty

def componentPart (trace : Uuid) : Part :=
  { samplePart with trace := trace, terminal := true }

def componentAssembly : Assembly :=
  ⟨samplePart, [componentPart (.v4 11), componentPart (.v4 12)]⟩

theorem reachable_componentStore : Reachable componentStore :=
  Reachable.empty.calls (by decide +kernel)

/-- The sets of the component store are declared against the kilogram. -/
theorem kilogram_of_componentStore (trace : Uuid)
    (hfigures : componentStore.hasFigures trace) :
    ∃ set, storedSet componentStore trace = .ok (some set) ∧ set.unit = some .kilogram := by
  have hcoherent := Coherent.of_reachable reachable_componentStore
  have hrows : ∀ r ∈ componentStore.figures,
      r.unit = literal DeclaredUnit.kilogram ∧ r.certificates = "[]" := by decide +kernel
  have hkilogram : FigureRecord.readUnit (literal DeclaredUnit.kilogram) =
      .ok (some .kilogram) := by decide +kernel
  have hsame : SameCertificates componentStore trace := fun r hr q hq _ _ =>
    (hrows r hr).2.trans (hrows q hq).2.symm
  obtain ⟨set, hset⟩ := hcoherent.exists_storedSet hsame hfigures
  obtain ⟨r, hr, -, hread⟩ := (hcoherent.mem_storedSet hset).1 set.driver_mem
  have hunit := FigureRecord.readUnit_eq_ok.2 (FigureRecord.figure_eq_ok.1 hread).1
  rw [(hrows r hr).1, hkilogram] at hunit
  exact ⟨set, hset, (Except.ok.inj hunit).symm⟩

/-- The sort leaves the two components as they were placed. -/
theorem assembly_of_componentStore :
    componentStore.assembly? ⟨1⟩ (.v4 10) = .ok (some componentAssembly) := by
  have htraces : componentStore.childTraces (.v4 10) = [.v4 11, .v4 12] := by
    rw [Store.childTraces, List.mergeSort_of_pairwise (by decide +kernel)]
    decide +kernel
  have hchildren : componentStore.children (.v4 10) = .ok componentAssembly.children := by
    rw [Store.children, htraces]
    decide +kernel
  have hpart : componentStore.part? ⟨1⟩ (.v4 10) = .ok (some samplePart) := by decide +kernel
  have hparent : componentStore.isParent (.v4 10) := by decide +kernel
  rw [Store.assembly?, hpart, ok_bind]
  simp only [hparent, if_true, hchildren, ok_bind]
  rfl

/-- A component is shown with figures against the kilogram and adds the emission kept for it. -/
theorem exists_shown_component (trace : Uuid)
    (hpart : componentStore.part? ⟨1⟩ trace = .ok (some (componentPart trace)))
    (hnot : componentStore.isParent trace = false) (hfigures : componentStore.hasFigures trace) :
    ∃ fs, figuresFor componentStore ⟨1⟩ [trace] = .ok fs ∧
      (∀ f ∈ fs, f.unit = some .kilogram) ∧
      ∀ kind, kind = .preProduction ∨ kind = .mainProduction → ∀ sum,
        addShown kind sum (componentPart trace, fs) =
          sum + (componentStore.emission? trace kind).getD 0 := by
  obtain ⟨set, hset, hunit⟩ := kilogram_of_componentStore trace hfigures
  have hcontribution : contribution componentStore (componentPart trace) = .ok (some set) := hset
  have hread : vector componentStore ⟨1⟩ (componentPart trace).trace = _ :=
    vector_of_child hpart hnot
  rw [if_neg (by simp [componentPart]), hcontribution] at hread
  have hsame :=
    (unit_of_childFigures (Coherent.of_reachable reachable_componentStore) hcontribution).1
  exact ⟨_, figuresFor_singleton.trans hread, fun f hf => (hsame f hf).trans hunit,
    fun kind hkind sum => addShown_of_terminal reachable_componentStore rfl hset hkind sum⟩

/-- The stored emissions of the parent are its production totals. Those of the components come to
0.30000000000000004 when they are added up, and to 0.3 with five decimals. -/
theorem totals_agree_component :
    ∃ fs, figuresFor componentStore ⟨1⟩ [.v4 10] = .ok fs ∧
      (fs.filter (·.kind.isTotal)).map (fun f => (f.kind, f.emission)) =
        [(.preProductionTotal, some 1.5), (.mainProductionTotal, some 1.5),
          (.preComponentTotal, some 0.3), (.mainComponentTotal, some 0.3)] := by
  obtain ⟨own, hown, hunit⟩ := kilogram_of_componentStore (.v4 10) (by decide +kernel)
  obtain ⟨fs₁, hread₁, hunit₁, hadds₁⟩ := exists_shown_component (.v4 11)
    (by decide +kernel) (by decide +kernel) (by decide +kernel)
  obtain ⟨fs₂, hread₂, hunit₂, hadds₂⟩ := exists_shown_component (.v4 12)
    (by decide +kernel) (by decide +kernel) (by decide +kernel)
  obtain ⟨hreads, htotals⟩ := totals_agree reachable_componentStore assembly_of_componentStore rfl
    nofun (by decide +kernel)
  have hkilogram {f : Figure} (hf : f.unit = some .kilogram) (u : DeclaredUnit)
      (hu : f.unit = some u) : own.unit = some u := hunit.trans (hf.symm.trans hu)
  obtain ⟨fs, hfs⟩ := hreads.2 ⟨own, hown, List.forall_mem_cons.2
    ⟨⟨fs₁, hread₁, fun f hf => hkilogram (hunit₁ f hf)⟩, List.forall_mem_singleton.2
      ⟨fs₂, hread₂, fun f hf => hkilogram (hunit₂ f hf)⟩⟩⟩
  obtain ⟨views, hviews, htotals⟩ := htotals fs hfs
  have hboth : componentAssembly.children.mapM
      (fun child => figuresFor componentStore ⟨1⟩ [child.trace]) = .ok [fs₁, fs₂] :=
    mapM_eq_ok_iff.2 (.cons hread₁ (.cons hread₂ .nil))
  obtain rfl := Except.ok.inj (hviews.symm.trans hboth)
  have hsum {kind : FigureKind} (hkind : kind = .preProduction ∨ kind = .mainProduction) :
      shownSum kind (componentAssembly.children.zip [fs₁, fs₂]) =
        0 + (componentStore.emission? (.v4 11) kind).getD 0 +
          (componentStore.emission? (.v4 12) kind).getD 0 := by
    rw [← hadds₁ kind hkind, ← hadds₂ kind hkind]
    rfl
  rw [hsum (Or.inl rfl), hsum (Or.inr rfl)] at htotals
  refine ⟨fs, hfs, htotals.trans ?_⟩
  decide +kernel

end Footprint
