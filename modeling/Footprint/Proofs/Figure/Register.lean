import Footprint.Proofs.Exchange.ReadBack
import Footprint.Proofs.Figure.Entered
import Footprint.Proofs.Figure.Stated

namespace Footprint

open Table Enumerated Exchange

/-- The sets put for a part, each with the identifier that was returned for it. -/
def puts (trace : Uuid) (steps : List Step) : List (Uuid × List Figure) :=
  steps.filterMap (·.puts trace)

/-- The certificates that were attached last, if any were since the first set was put. -/
def attached (trace : Uuid) (steps : List Step) : Option (List String) :=
  ((steps.dropWhile fun e => (e.puts trace).isNone).filterMap (·.certifies trace)).getLast?

/-- The figure of a kind: what it states is taken from the last set, with numbers as columns keep
them. -/
def accountOfKind (trace id : Uuid) (first last : List Figure) (certificates : Option (List String))
    (kind : FigureKind) : Option Figure := do
  let original ← first.find? fun f => f.kind = kind
  let latest ← last.find? fun f => f.kind = kind
  some
    { setId := some id
      trace := trace
      emission := latest.emission.map storedNumber
      unit := latest.unit
      kind := kind
      ratingKind := latest.ratingKind
      rating := latest.rating.stored
      certificates := certificates.getD original.certificates }

/-- The figures of a part as the accepted calls account for them. -/
def account (trace : Uuid) (steps : List Step) : Option (List Figure) :=
  if steps.any (·.removes trace) then some []
  else
    match (puts trace steps).head?, (puts trace steps).getLast? with
    | some (id, first), some (_, last) =>
      FigureKind.inputs.mapM (accountOfKind trace id first last (attached trace steps))
    | _, _ => some []

/-- The rows of a part that was given figures: they hold the last set under the identifier of the
first, and certify what the first did unless they were certified since. -/
structure Kept (s : Store) (trace id : Uuid) (first last : List Figure)
    (certificates : Option (List String)) : Prop where
  firstRules : Rules.figures first = []
  lastRules : Rules.figures last = []
  holds : s.Holds trace last
  rows : ∀ r ∈ s.figures, r.trace = trace → r.setId = id ∧
    ∃ f ∈ first, r.kind = literal f.kind ∧
      r.certificates = Json.quoteList (certificates.getD f.certificates)

/-- A part by what the steps so far did to it. -/
inductive Entry (trace : Uuid) (s : Store) (steps : List Step) : Prop
  | blank (unremoved : steps.any (·.removes trace) = false) (unput : puts trace steps = [])
      (blank : s.hasFigures trace = false)
  | kept {id id' : Uuid} {first last : List Figure}
      (unremoved : steps.any (·.removes trace) = false)
      (head : (puts trace steps).head? = some (id, first))
      (latest : (puts trace steps).getLast? = some (id', last))
      (rows : Kept s trace id first last (attached trace steps))
  | removed (removed : steps.any (·.removes trace)) (row : ∃ r ∈ s.parts, r.trace = trace)
      (gone : s.hasLivePart trace = false)

variable {now : Instant} {s s' : Store} {trace id id' : Uuid} {first last fs : List Figure}
variable {certificates : Option (List String)} {steps : List Step} {e : Step}

theorem puts_concat (trace : Uuid) (steps : List Step) (e : Step) :
    puts trace (steps ++ [e]) = puts trace steps ++ (e.puts trace).toList := by
  rw [puts, List.filterMap_append, ← puts]
  cases h : e.puts trace <;> simp [h]

/-- Certificates do not count before the first set. -/
theorem attached_of_first (hnone : puts trace steps = []) (he : e.certifies trace = none) :
    attached trace (steps ++ [e]) = none := by
  have hbefore : steps.dropWhile (fun e => (e.puts trace).isNone) = [] := by
    rw [List.dropWhile_eq_nil_iff]
    intro e' he'
    rw [List.filterMap_eq_nil_iff.1 hnone e' he']
    rfl
  rw [attached, List.dropWhile_append, hbefore]
  simp [List.dropWhile_cons, he, apply_ite]

theorem attached_concat (hsome : puts trace steps ≠ []) :
    attached trace (steps ++ [e]) = (e.certifies trace).or (attached trace steps) := by
  have hbefore : steps.dropWhile (fun e => (e.puts trace).isNone) ≠ [] := by
    rw [Ne, List.dropWhile_eq_nil_iff]
    intro hall
    refine hsome (List.filterMap_eq_nil_iff.2 fun e' he' => ?_)
    exact Option.isNone_iff_eq_none.1 (hall e' he')
  rw [attached, List.dropWhile_append, if_neg (by simpa using hbefore), List.filterMap_append,
    List.getLast?_append, ← attached]
  cases h : e.certifies trace <;> simp [h]

namespace Kept

theorem hasFigures (h : Kept s trace id first last certificates) : s.hasFigures trace := by
  obtain ⟨f, hf⟩ := Rules.exists_first_of_figures h.lastRules
  obtain ⟨r, hr, htrace, -⟩ := h.holds.2 f (List.mem_of_mem_head? hf)
  exact Store.hasFigures_iff.2 ⟨r, hr, htrace⟩

theorem congr (h : Kept s trace id first last certificates)
    (hrows : ∀ r, r.trace = trace → (r ∈ s'.figures ↔ r ∈ s.figures)) :
    Kept s' trace id first last certificates where
  firstRules := h.firstRules
  lastRules := h.lastRules
  holds := h.holds.congr hrows
  rows r hr htrace := h.rows r ((hrows r htrace).1 hr) htrace

theorem registered (hrules : Rules.figures fs = []) (hholds : s.Holds trace fs)
    (hrows : ∀ r ∈ s.figures, r.trace = trace → ∃ f ∈ fs, r = FigureRecord.ofFigure now id f) :
    Kept s trace id fs fs none where
  firstRules := hrules
  lastRules := hrules
  holds := hholds
  rows r hr htrace := by
    obtain ⟨f, hf, rfl⟩ := hrows r hr htrace
    exact ⟨rfl, f, hf, rfl, rfl⟩

theorem revised {change : FigureRecord → FigureRecord}
    (h : Kept s trace id first last certificates) (hrules : Rules.figures fs = [])
    (hfigures : s'.figures = s.figures.map change) (hplace : ∀ r, (change r).place = r.place)
    (hcarried : ∀ r ∈ s.figures, r.trace = trace → ∃ f ∈ fs, (change r).Carries f) :
    Kept s' trace id first fs certificates where
  firstRules := h.firstRules
  lastRules := hrules
  holds := holds_of_revised hrules h.lastRules h.holds hfigures hplace hcarried
  rows := by
    rw [hfigures, List.forall_mem_map]
    intro r hr htrace
    obtain ⟨hset, htrace', hkind, hcertificates⟩ := FigureRecord.place_eq_iff.1 (hplace r)
    rw [hset, hkind, hcertificates]
    exact h.rows r hr (htrace'.symm.trans htrace)

theorem certified (h : Kept s trace id first last certificates) (now : Instant)
    (attached : List String) :
    Kept (s.certify now trace attached) trace id first last (some attached) where
  firstRules := h.firstRules
  lastRules := h.lastRules
  holds := h.holds.certify
  rows r hr htrace := by
    rcases mem_updateWhere.1 hr with ⟨-, hother⟩ | ⟨q, hq, hpart, rfl⟩
    · exact absurd htrace (of_decide_eq_false hother)
    · obtain ⟨hset, f, hf, hkind, -⟩ := h.rows q hq htrace
      exact ⟨hset, f, hf, hkind, rfl⟩

end Kept

theorem removes_concat : (steps ++ [e]).any (·.removes trace) = false ↔
    steps.any (·.removes trace) = false ∧ e.removes trace = false := by
  simp [List.any_append]

namespace Entry

/-- A step after which the part has not been removed. -/
theorem concat (h : Entry trace e.before steps) (hentered : Entered trace e)
    (hunremoved : (steps ++ [e]).any (·.removes trace) = false) :
    Entry trace e.after (steps ++ [e]) := by
  cases h with
  | blank _ hunput hblank =>
    have hputs := puts_concat trace steps e
    rw [hunput, List.nil_append] at hputs
    cases hentered with
    | other he _ hrows =>
      rw [he] at hputs
      refine .blank hunremoved hputs ?_
      rw [← Bool.not_eq_true, Store.hasFigures_iff] at hblank ⊢
      rintro ⟨r, hr, htrace⟩
      exact hblank ⟨r, (hrows r htrace).1 hr, htrace⟩
    | @registered id fs he hcertifies hrules _ hholds hrows =>
      rw [he, Option.toList_some] at hputs
      have hhead : (puts trace (steps ++ [e])).head? = some (id, fs) := by
        rw [hputs, List.head?_cons]
      have hlatest : (puts trace (steps ++ [e])).getLast? = some (id, fs) := by
        rw [hputs, List.getLast?_singleton]
      refine .kept hunremoved hhead hlatest ?_
      rw [attached_of_first hunput hcertifies]
      exact .registered hrules hholds hrows
    | revised _ _ _ hpresent => exact absurd hpresent (by simp [hblank])
    | certified _ _ hpresent => exact absurd hpresent (by simp [hblank])
  | @kept id id' first last _ hhead hlatest hkept =>
    have hsome : puts trace steps ≠ [] := fun hnil => by simp [hnil] at hhead
    have hputs := puts_concat trace steps e
    have hattached := attached_concat (e := e) hsome
    have hhead' : (puts trace (steps ++ [e])).head? = some (id, first) := by
      rw [hputs, List.head?_append, hhead, Option.some_or]
    cases hentered with
    | other he hcertifies hrows =>
      rw [he, Option.toList_none, List.append_nil] at hputs
      rw [hcertifies, Option.none_or] at hattached
      refine .kept hunremoved hhead' (hputs ▸ hlatest) ?_
      rw [hattached]
      exact hkept.congr hrows
    | registered _ _ _ hblank => exact absurd hkept.hasFigures (by simp [hblank])
    | @revised id' fs change he hcertifies hrules _ hfigures hplace hcarried =>
      rw [he] at hputs
      rw [hcertifies, Option.none_or] at hattached
      have hlatest' : (puts trace (steps ++ [e])).getLast? = some (id', fs) := by
        rw [hputs]
        exact List.getLast?_concat ..
      refine .kept hunremoved hhead' hlatest' ?_
      rw [hattached]
      exact hkept.revised hrules hfigures hplace hcarried
    | @certified certificates he hcertifies _ hwritten =>
      rw [he, Option.toList_none, List.append_nil] at hputs
      rw [hcertifies, Option.some_or] at hattached
      refine .kept hunremoved hhead' (hputs ▸ hlatest) ?_
      rw [hattached, hwritten]
      exact hkept.certified e.call.now certificates
  | removed hremoved =>
    rw [(removes_concat.1 hunremoved).1] at hremoved
    cases hremoved

theorem step {c : Call} {reply : Reply} (hs : Reachable s) (hfresh : c.Fresh s)
    (h : Entry trace s steps)
    (haccepted : Accepted c.limits c.now c.caller s c.op reply (c.after s)) :
    Entry trace (c.after s) (steps ++ [⟨c, reply, s, c.after s⟩]) := by
  let e : Step := ⟨c, reply, s, c.after s⟩
  cases hany : (steps ++ [e]).any (·.removes trace) with
  | false =>
    exact h.concat (entered_of_accepted hs hfresh haccepted (removes_concat.1 hany).2) hany
  | true =>
    -- The part was live before, or it had been removed already.
    have hrow : (∃ r ∈ s.parts, r.trace = trace) ∧ (c.after s).hasLivePart trace = false := by
      cases h with
      | removed _ hrow hgone =>
        rw [Bool.eq_false_iff, Ne, Store.hasLivePart_iff] at hgone ⊢
        exact ⟨hrow, not_live_after hs c hfresh hrow hgone⟩
      | blank hunremoved | kept hunremoved =>
        rw [List.any_append, hunremoved, Bool.false_or, List.any_cons, List.any_nil, Bool.or_false,
          Step.removes, Bool.and_eq_true, Bool.not_eq_true', Store.hasLivePart_iff] at hany
        obtain ⟨⟨r, hr, htrace, -⟩, hgone⟩ := hany
        exact ⟨⟨r, hr, htrace⟩, hgone⟩
    obtain ⟨⟨r, hr, rfl⟩, hgone⟩ := hrow
    obtain ⟨r', hr', howner⟩ :=
      List.mem_map.1 (owners_of_accepted haccepted (List.mem_map_of_mem hr))
    exact .removed hany ⟨r', hr', congrArg Prod.fst howner⟩ hgone

theorem of_run {cs : List Call} (hfresh : freshAlong Store.empty cs) (trace : Uuid) :
    Entry trace (runAll cs Store.empty) (history Store.empty cs) := by
  have hempty : Entry trace Store.empty [] := .blank rfl rfl rfl
  refine history_induct (P := Entry trace) ?_ .empty hempty hfresh
  exact fun c hs hfresh h haccepted => h.step hs hfresh haccepted

end Entry

/-- The figures of a legal set are found by their kinds. -/
theorem find?_kind {f : Figure} (hrules : Rules.figures fs = []) (hf : f ∈ fs) :
    (fs.find? fun g => g.kind = f.kind) = some f := by
  obtain ⟨head, hhead⟩ := Rules.exists_first_of_figures hrules
  obtain ⟨-, -, -, -, hkind, -⟩ := Rules.shared_of_figures hrules hhead hf
  obtain ⟨l, -, -, hunique⟩ := Rules.exists_kind_of_kinds (Rules.kinds_of_figures hrules) hkind
  refine Table.find?_of_unique hf (decide_eq_true rfl) fun g hg hsame => ?_
  rw [hunique g hg (of_decide_eq_true hsame), hunique f hf rfl]

/-- A row of the part is read as what the account says of its kind. -/
theorem Kept.accountOfKind_eq (h : Kept s trace id first last certificates) {r : FigureRecord}
    {g : Figure} (hr : r ∈ s.figures) (htrace : r.trace = trace) (hread : r.figure = .ok g) :
    accountOfKind trace id first last certificates g.kind = some g := by
  obtain ⟨hunit, hkind, hratingKind, hlist, hset, hgtrace, hemission, hrating⟩ :=
    FigureRecord.figure_eq_ok.1 hread
  obtain ⟨hid, f, hf, hfkind, hcertificates⟩ := h.rows r hr htrace
  obtain ⟨l, hl, hcarries⟩ := h.holds.1 r hr htrace
  have hfirst : (first.find? fun q => q.kind = g.kind) = some f := by
    rw [literal_injective _ _ (hkind.symm.trans hfkind)]
    exact find?_kind h.firstRules hf
  have hlast : (last.find? fun q => q.kind = g.kind) = some l := by
    rw [literal_injective _ _ (hkind.symm.trans hcarries.kind)]
    exact find?_kind h.lastRules hl
  have hgunit : l.unit = g.unit := by
    have hsame := FigureRecord.readUnit_eq_ok.2 hcarries.unit
    rw [FigureRecord.readUnit_eq_ok.2 hunit] at hsame
    exact (Except.ok.inj hsame).symm
  have hgcertificates : certificates.getD f.certificates = g.certificates := by
    rw [hcertificates, Json.readList_quoteList] at hlist
    exact Option.some.inj hlist
  simp only [accountOfKind, hfirst, hlast, Option.bind_eq_bind, Option.bind_some]
  congr 1
  ext1
  · exact (hset.trans (congrArg some hid)).symm
  · exact (hgtrace.trans htrace).symm
  · exact hcarries.emission.symm.trans hemission.symm
  · exact hgunit
  · rfl
  · exact literal_injective _ _ (hcarries.ratingKind.symm.trans hratingKind)
  · exact hcarries.rating.symm.trans hrating.symm
  · exact hgcertificates

theorem Entry.account_eq (hs : Reachable s) (h : Entry trace s steps) :
    ∃ fs, account trace steps = some fs ∧ s.figuresOf trace = .ok fs := by
  obtain ⟨fs, hread, hmem⟩ := (Coherent.of_reachable hs).figuresOf trace
  refine ⟨fs, ?_, hread⟩
  have hnil (hblank : s.hasFigures trace = false) : fs = [] := by
    have hempty := Store.isEmpty_of_figuresOf hread
    rwa [hblank, Bool.not_false, List.isEmpty_iff] at hempty
  cases h with
  | blank hunremoved hunput hblank => simp [account, hunremoved, hunput, hnil hblank]
  | removed hremoved _ hgone =>
    simp [account, hremoved, hnil (hasFigures_of_removed hs hgone)]
  | @kept id id' first last hunremoved hhead hlatest hkept =>
    obtain ⟨g, rfl, hkind, -⟩ :=
      exists_of_figuresOf (Submitted.of_reachable hs) hkept.hasFigures hread
    have hrows : ∀ k ∈ FigureKind.inputs,
        accountOfKind trace id first last (attached trace steps) k = some (g k) := by
      intro k hk
      obtain ⟨r, hr, htrace, hrow⟩ := (hmem (g k)).1 (List.mem_map_of_mem hk)
      rw [← hkept.accountOfKind_eq hr htrace hrow, hkind k hk]
    simp only [FigureKind.inputs, List.forall_mem_cons] at hrows
    simp [account, hunremoved, hhead, hlatest, FigureKind.inputs, hrows]

/-- A figure is found by its set and kind among the figures of all parts. -/
theorem figure?_eq_ok (hs : Reachable s) (id : Uuid) (kind : FigureKind) :
    ∃ o, s.figure? id kind = .ok o ∧ ∀ f, o = some f ↔
      f.setId = some id ∧ f.kind = kind ∧ ∃ trace fs, s.figuresOf trace = .ok fs ∧ f ∈ fs := by
  have hcoherent := Coherent.of_reachable hs
  -- The figure comes from a row of that set and kind.
  have hrow {f : Figure} : (f.setId = some id ∧ f.kind = kind ∧
      ∃ trace fs, s.figuresOf trace = .ok fs ∧ f ∈ fs) ↔
      ∃ r ∈ s.figures, r.setId = id ∧ r.kind = literal kind ∧ r.figure = .ok f := by
    constructor
    · rintro ⟨hset, rfl, trace, fs, hread, hf⟩
      obtain ⟨fs', hread', hmem⟩ := hcoherent.figuresOf trace
      cases hread.symm.trans hread'
      obtain ⟨r, hr, -, hrow⟩ := (hmem f).1 hf
      obtain ⟨-, hkind, -, -, hset', -⟩ := FigureRecord.figure_eq_ok.1 hrow
      exact ⟨r, hr, Option.some.inj (hset'.symm.trans hset), hkind, hrow⟩
    · rintro ⟨r, hr, rfl, hkind, hrow⟩
      obtain ⟨-, hkind', -, -, hset, -⟩ := FigureRecord.figure_eq_ok.1 hrow
      obtain ⟨fs, hread, hmem⟩ := hcoherent.figuresOf r.trace
      exact ⟨hset, literal_injective _ _ (hkind'.symm.trans hkind), r.trace, fs, hread,
        (hmem f).2 ⟨r, hr, rfl, hrow⟩⟩
  have hunique {r q : FigureRecord} (hr : r ∈ s.figures) (hq : q ∈ s.figures)
      (hset : r.setId = q.setId) (hkind : r.kind = q.kind) : r = q :=
    eq_of_key_eq (Submitted.of_reachable hs).keys hr hq
      (Prod.ext (hcoherent.traces r hr q hq hset) hkind)
  cases hfind : s.figures.find? fun r => r.setId = id && r.kind = literal kind with
  | none =>
    refine ⟨none, readOptional_eq_ok_none.2 hfind, fun f => ?_⟩
    rw [hrow]
    refine iff_of_false nofun ?_
    rintro ⟨r, hr, hset, hkind, -⟩
    exact List.find?_eq_none.1 hfind r hr (by simp [hset, hkind])
  | some r =>
    have hr := List.mem_of_find?_eq_some hfind
    have hfound := List.find?_some hfind
    rw [Bool.and_eq_true, decide_eq_true_eq, decide_eq_true_eq] at hfound
    obtain ⟨g, hg⟩ := (hcoherent.figures r hr).exists_figure
    refine ⟨some g, readOptional_eq_ok_some.2 ⟨r, hfind, hg⟩, fun f => ?_⟩
    rw [hrow]
    constructor
    · rintro ⟨⟩
      exact ⟨r, hr, hfound.1, hfound.2, hg⟩
    · rintro ⟨q, hq, hset, hkind, hread⟩
      rw [hunique hq hr (hset.trans hfound.1.symm) (hkind.trans hfound.2.symm), hg] at hread
      rw [Except.ok.inj hread]

/-- After every run the figures of a part are those that its history accounts for, and a figure is
found by its set and kind exactly when it is among these. -/
theorem figures_of_run {cs : List Call} (hfresh : freshAlong Store.empty cs) :
    (∀ trace, ∃ fs, account trace (history Store.empty cs) = some fs ∧
      (runAll cs Store.empty).figuresOf trace = .ok fs) ∧
    ∀ id kind, ∃ o, (runAll cs Store.empty).figure? id kind = .ok o ∧ ∀ f, o = some f ↔
      f.setId = some id ∧ f.kind = kind ∧
        ∃ trace fs, account trace (history Store.empty cs) = some fs ∧ f ∈ fs := by
  have hs : Reachable (runAll cs Store.empty) := Reachable.empty.calls hfresh
  have haccount (trace : Uuid) := (Entry.of_run hfresh trace).account_eq hs
  refine ⟨haccount, fun id kind => ?_⟩
  obtain ⟨o, ho, hfound⟩ := figure?_eq_ok hs id kind
  refine ⟨o, ho, fun f => (hfound f).trans ?_⟩
  have hsame (trace : Uuid) (fs : List Figure) :
      (runAll cs Store.empty).figuresOf trace = .ok fs ↔
        account trace (history Store.empty cs) = some fs := by
    obtain ⟨fs', hfs', hread⟩ := haccount trace
    rw [hread, hfs', Except.ok.injEq, Option.some.injEq]
  simp only [hsame]

/-- The figures are revised in another order, with another unit, numbers that were zero before and
certificates that do not count. -/
def measuredRevision : Call :=
  sampleCall ⟨2⟩ (.putFigures (.v4 41) ((sampleFigures (.v4 20)).reverse.map fun f =>
    { f with
      setId := some (.v4 40)
      emission := some (if f.kind.response?.isSome then -0.0 else 2.5)
      unit := some .liter
      rating := ⟨some 1.7, none, some (-0.0)⟩
      certificates := ["certificate"] }))

def measuredCalls : List Call :=
  sampleCalls ++ [measuredRegistration, measuredRevision]

theorem figures_of_run_measured :
    freshAlong Store.empty measuredCalls ∧
      (runAll measuredCalls Store.empty).figuresOf (.v4 20) =
        .ok (FigureKind.inputs.map fun kind =>
          { setId := some (.v4 40)
            trace := .v4 20
            emission := some (if kind.response?.isSome then 0 else 2.5)
            unit := some .liter
            kind := kind
            ratingKind := kind.ratingKind
            rating := ⟨some 1.7, none, some 0⟩
            certificates := [] }) := by
  have hfresh : freshAlong Store.empty measuredCalls := by decide +kernel
  obtain ⟨fs, haccount, hread⟩ := (figures_of_run hfresh).1 (.v4 20)
  rw [hread]
  refine ⟨hfresh, congrArg Except.ok (Option.some.inj (haccount.symm.trans ?_))⟩
  decide +kernel

end Footprint
