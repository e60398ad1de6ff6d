import Footprint.Exchange.Derivation
import Footprint.Proofs.Figure.Coherence
import Footprint.Proofs.Part.Children

namespace Footprint

open Table Enumerated Exchange

/-- All rows of a part carry the same certificates. -/
def SameCertificates (s : Store) (trace : Uuid) : Prop :=
  ∀ r ∈ s.figures, ∀ q ∈ s.figures, r.trace = trace → q.trace = trace →
    r.certificates = q.certificates

/-- Own figures of a part that is no supplier's and has children, one of which contributes figures
declared against another unit. -/
def UnitClash (s : Store) (operator trace : Uuid) : Prop :=
  ∃ p children own child supplied,
    s.part? operator trace = .ok (some p) ∧ p.terminal = false ∧
      classOf s p = .ok (.parent children) ∧ storedSet s trace = .ok (some own) ∧
      child ∈ children ∧ contribution s child = .ok (some supplied) ∧ supplied.unit ≠ own.unit

/-- Every stored set passes the guard, and figures are refused only for a clash of units. -/
structure ReadsBack (s : Store) : Prop where
  sets : ∀ trace, ∃ set, storedSet s trace = .ok set
  figures : ∀ operator traces e, figuresFor s operator traces = .error e →
    ∃ trace ∈ traces, e = .inconsistent .unit trace ∧ UnitClash s operator trace

variable {s s' : Store} {trace : Uuid}

theorem disagreement?_eq {driver : Figure} {others : List Figure}
    (h : ∀ f ∈ others, driver.setId = f.setId ∧ driver.trace = f.trace ∧ driver.unit = f.unit) :
    FigureSet.disagreement? driver others =
      if ∀ f ∈ others, driver.certificates = f.certificates then none else some .certificates := by
  have hset : others.all (fun f => SharedField.agrees driver f .setId) := by
    simpa [SharedField.agrees] using fun f hf => (h f hf).1
  have htrace : others.all (fun f => SharedField.agrees driver f .trace) := by
    simpa [SharedField.agrees] using fun f hf => (h f hf).2.1
  have hunit : others.all (fun f => SharedField.agrees driver f .unit) := by
    simpa [SharedField.agrees] using fun f hf => (h f hf).2.2
  have hcertificates : others.all (fun f => SharedField.agrees driver f .certificates) ↔
      ∀ f ∈ others, driver.certificates = f.certificates := by
    simp [SharedField.agrees]
  rw [FigureSet.disagreement?, SharedField.all]
  by_cases hsame : ∀ f ∈ others, driver.certificates = f.certificates
  · rw [if_pos hsame]
    simp [hset, htrace, hunit, hcertificates.2 hsame]
  · rw [if_neg hsame]
    have hdiffer := hcertificates.not.2 hsame
    simp [hset, htrace, hunit, hdiffer]

theorem FigureRecord.Legible.exists_figure {r : FigureRecord} (h : r.Legible) :
    ∃ f, r.figure = .ok f := by
  obtain ⟨⟨kind, -, hkind⟩, ⟨u, hunit⟩, ⟨rating, hrating⟩, ⟨certificates, hcertificates⟩⟩ := h
  refine ⟨⟨some r.setId, r.trace, r.emission, some u, kind, rating,
    ⟨r.technological, r.geographical, r.temporal⟩, certificates⟩, figure_eq_ok.2 ?_⟩
  refine ⟨hunit, hkind, hrating, ?_, rfl, rfl, rfl, rfl⟩
  rw [hcertificates]
  exact Json.readList_quoteList certificates

/-- The figures of a part are what its rows read as. -/
theorem Coherent.figuresOf (h : Coherent s) (trace : Uuid) :
    ∃ fs, s.figuresOf trace = .ok fs ∧
      ∀ f, f ∈ fs ↔ ∃ r ∈ s.figures, r.trace = trace ∧ r.figure = .ok f := by
  have hrows : ∀ r ∈ s.figures.filter (fun r => r.trace = trace), ∃ f, r.figure = .ok f :=
    fun r hr => (h.figures r (List.mem_filter.1 hr).1).exists_figure
  obtain ⟨unsorted, hread⟩ := exists_mapM_eq_ok hrows
  obtain ⟨hresult, horigin⟩ := mem_of_mapM_eq_ok hread
  refine ⟨_, Store.figuresOf_eq_ok.2 ⟨unsorted, mapM_eq_ok_iff.1 hread, rfl⟩, fun f => ?_⟩
  rw [List.mem_mergeSort]
  constructor
  · intro hf
    obtain ⟨r, hr, hrf⟩ := horigin f hf
    rw [List.mem_filter, decide_eq_true_eq] at hr
    exact ⟨r, hr.1, hr.2, hrf⟩
  · rintro ⟨r, hr, htrace, hrf⟩
    obtain ⟨g, hg, hrg⟩ := hresult r (List.mem_filter.2 ⟨hr, decide_eq_true htrace⟩)
    rw [hrf] at hrg
    cases hrg
    exact hg

/-- Figures read from rows of one part share all but their certificates, and those exactly when the
rows do. -/
theorem Coherent.agree (h : Coherent s) {r q : FigureRecord} {f g : Figure} (hr : r ∈ s.figures)
    (hq : q ∈ s.figures) (htrace : r.trace = q.trace) (hf : r.figure = .ok f)
    (hg : q.figure = .ok g) :
    f.setId = g.setId ∧ f.trace = g.trace ∧ f.unit = g.unit ∧
      (f.certificates = g.certificates ↔ r.certificates = q.certificates) := by
  obtain ⟨hunit, -, -, hcertificates, hset, htrace', -⟩ := FigureRecord.figure_eq_ok.1 hf
  obtain ⟨hunit', -, -, hcertificates', hset', htrace'', -⟩ := FigureRecord.figure_eq_ok.1 hg
  obtain ⟨hsets, hunits⟩ := h.sets r hr q hq htrace
  refine ⟨by rw [hset, hset', hsets], by rw [htrace', htrace'', htrace], ?_, ?_⟩
  · have hread := FigureRecord.readUnit_eq_ok.2 hunit
    rw [hunits, FigureRecord.readUnit_eq_ok.2 hunit'] at hread
    exact (Except.ok.inj hread).symm
  · constructor
    · intro hsame
      obtain ⟨cs, hcs⟩ := (h.figures r hr).certificates
      obtain ⟨cs', hcs'⟩ := (h.figures q hq).certificates
      rw [hcs, Json.readList_quoteList] at hcertificates
      rw [hcs', Json.readList_quoteList] at hcertificates'
      rw [hcs, hcs', Option.some.inj hcertificates, Option.some.inj hcertificates', hsame]
    · intro hsame
      rw [hsame, hcertificates'] at hcertificates
      exact (Option.some.inj hcertificates).symm

/-- The rows of a part certify the same when the figures read from them do. -/
theorem Coherent.sameCertificates_iff (h : Coherent s) {driver : Figure} {others : List Figure}
    (hmem : ∀ f, f ∈ driver :: others ↔ ∃ r ∈ s.figures, r.trace = trace ∧ r.figure = .ok f) :
    SameCertificates s trace ↔ ∀ f ∈ others, driver.certificates = f.certificates := by
  obtain ⟨r, hr, htrace, hread⟩ := (hmem driver).1 (by simp)
  constructor
  · intro hsame f hf
    obtain ⟨q, hq, htrace', hread'⟩ := (hmem f).1 (by simp [hf])
    exact (h.agree hr hq (htrace.trans htrace'.symm) hread hread').2.2.2.2
      (hsame r hr q hq htrace htrace')
  · intro hsame
    have hdriver : ∀ q ∈ s.figures, q.trace = trace → r.certificates = q.certificates := by
      intro q hq htrace'
      obtain ⟨f, hread'⟩ := (h.figures q hq).exists_figure
      have hf : driver.certificates = f.certificates := by
        rcases List.mem_cons.1 ((hmem f).2 ⟨q, hq, htrace', hread'⟩) with rfl | hf
        · rfl
        · exact hsame f hf
      exact (h.agree hr hq (htrace.trans htrace'.symm) hread hread').2.2.2.1 hf
    intro q hq q' hq' htrace' htrace''
    exact (hdriver q hq htrace').symm.trans (hdriver q' hq' htrace'')

/-- The guard lets a set pass exactly when its rows certify the same, and says so otherwise. -/
theorem Coherent.storedSet_cases (h : Coherent s) (trace : Uuid) :
    (SameCertificates s trace ∧ ∃ set, storedSet s trace = .ok set) ∨
      (¬ SameCertificates s trace ∧
        storedSet s trace = .error (.inconsistent .certificates trace)) := by
  obtain ⟨fs, hread, hmem⟩ := h.figuresOf trace
  have hset : storedSet s trace = FigureSet.ofFigures trace fs := by
    rw [storedSet, hread]
    rfl
  rw [hset]
  cases fs with
  | nil =>
    refine Or.inl ⟨?_, none, rfl⟩
    intro r hr q hq htrace _
    obtain ⟨f, hf⟩ := (h.figures r hr).exists_figure
    exact absurd ((hmem f).2 ⟨r, hr, htrace, hf⟩) (by simp)
  | cons driver others =>
    have hshared : ∀ f ∈ others,
        driver.setId = f.setId ∧ driver.trace = f.trace ∧ driver.unit = f.unit := by
      intro f hf
      obtain ⟨r, hr, htrace, hrow⟩ := (hmem driver).1 (by simp)
      obtain ⟨q, hq, htrace', hrow'⟩ := (hmem f).1 (by simp [hf])
      obtain ⟨hset, htrace, hunit, -⟩ := h.agree hr hq (htrace.trans htrace'.symm) hrow hrow'
      exact ⟨hset, htrace, hunit⟩
    rw [FigureSet.ofFigures, disagreement?_eq hshared, h.sameCertificates_iff hmem]
    by_cases hsame : ∀ f ∈ others, driver.certificates = f.certificates
    · rw [if_pos hsame]
      exact Or.inl ⟨hsame, _, rfl⟩
    · rw [if_neg hsame]
      exact Or.inr ⟨hsame, rfl⟩

theorem exists_readOptional {ε α β : Type} {read : α → Except ε β} {o : Option α}
    (h : ∀ a, o = some a → ∃ b, read a = .ok b) : ∃ b, readOptional read o = .ok b := by
  cases o with
  | none => exact ⟨none, rfl⟩
  | some a =>
    obtain ⟨b, hb⟩ := h a rfl
    exact ⟨some b, readOptional_eq_ok_some.2 ⟨a, rfl, hb⟩⟩

theorem PartRecord.Legible.exists_part {r : PartRecord} (h : r.Legible) : ∃ p, r.part = .ok p := by
  obtain ⟨u, hu⟩ := h
  exact ⟨⟨r.trace, r.operator, r.plant, r.name, r.supportName, r.terminal, r.amount, u⟩,
    part_eq_ok.2 ⟨rfl, rfl, rfl, rfl, rfl, rfl, rfl, hu⟩⟩

theorem Coherent.exists_part? (h : Coherent s) (operator trace : Uuid) :
    ∃ p, s.part? operator trace = .ok p :=
  exists_readOptional fun r hr => (h.parts r (List.mem_of_find?_eq_some hr)).exists_part

theorem Coherent.exists_children (h : Coherent s) (parent : Uuid) :
    ∃ ps, s.children parent = .ok ps :=
  exists_mapM_eq_ok fun r hr =>
    (h.parts r (List.mem_filter.1 (mem_of_mem_arrange hr)).1).exists_part

theorem Coherent.exists_assembly? (h : Coherent s) (operator parent : Uuid) :
    ∃ a, s.assembly? operator parent = .ok a := by
  obtain ⟨p, hp⟩ := h.exists_part? operator parent
  obtain ⟨ps, hps⟩ := h.exists_children parent
  rw [Store.assembly?, hp]
  cases p with
  | none => exact ⟨none, rfl⟩
  | some p =>
    by_cases hparent : s.isParent parent
    · exact ⟨some ⟨p, ps⟩, by simp [hparent, hps, bind, Except.bind]⟩
    · exact ⟨none, by simp [hparent, bind, Except.bind]⟩

/-- Every part has a class, and one with components is not terminal. -/
theorem Coherent.exists_classOf (h : Coherent s) (p : Part) :
    ∃ k, classOf s p = .ok k ∧ ∀ children, k = .parent children → p.terminal = false := by
  obtain ⟨a, ha⟩ := h.exists_assembly? p.operator p.trace
  rw [classOf]
  cases hterminal : p.terminal with
  | true => exact ⟨_, if_pos rfl, nofun⟩
  | false =>
    cases hparent : s.isParent p.trace with
    | false => exact ⟨.imported, by simp, nofun⟩
    | true =>
      simp only [Bool.false_eq_true, if_false, if_true, ha]
      cases hchildren : (a.map (·.children)).getD [] with
      | nil => exact ⟨.imported, by simp [bind, Except.bind, hchildren], nofun⟩
      | cons child children =>
        exact ⟨.parent (child :: children), by simp [bind, Except.bind, hchildren],
          fun _ _ => trivial⟩

theorem exists_of_foldlM_eq_error {ε α β : Type} {f : β → α → Except ε β} {as : List α} {b : β}
    {e : ε} (h : as.foldlM f b = .error e) : ∃ a ∈ as, ∃ b', f b' a = .error e := by
  induction as generalizing b with
  | nil => cases h
  | cons a as ih =>
    rw [List.foldlM_cons] at h
    rcases bind_eq_error.1 h with h | ⟨b', -, h⟩
    · exact ⟨a, by simp, b, h⟩
    · obtain ⟨a', ha', h⟩ := ih h
      exact ⟨a', by simp [ha'], h⟩

/-- When all sets can be formed, a child is refused only for its unit. -/
theorem addChild_eq_error (hsets : ∀ trace, ∃ set, storedSet s trace = .ok set)
    {unit : Option DeclaredUnit} {c : Components} {child : Part} {e : Error}
    (h : addChild s trace unit c child = .error e) :
    e = .inconsistent .unit trace ∧
      ∃ supplied, contribution s child = .ok (some supplied) ∧ supplied.unit ≠ unit := by
  have hcontribution : ∃ set, contribution s child = .ok set := by
    rw [contribution, suppliedSet]
    split
    · exact hsets child.trace
    · split
      · exact hsets _
      · exact ⟨none, rfl⟩
  obtain ⟨set, hset⟩ := hcontribution
  rw [addChild, hset] at h
  cases set with
  | none => cases h
  | some supplied =>
    by_cases hunit : supplied.unit = unit
    · simp [bind, Except.bind, hunit] at h
    · simp only [bind, Except.bind, hunit, if_false] at h
      cases h
      exact ⟨rfl, supplied, hset, hunit⟩

theorem partFigures?_eq_error (h : Coherent s)
    (hsets : ∀ trace, ∃ set, storedSet s trace = .ok set) {p : Part} {e : Error}
    (herror : partFigures? s p = .error e) :
    e = .inconsistent .unit p.trace ∧ p.terminal = false ∧
      ∃ children own child supplied, classOf s p = .ok (.parent children) ∧
        storedSet s p.trace = .ok (some own) ∧ child ∈ children ∧
        contribution s child = .ok (some supplied) ∧ supplied.unit ≠ own.unit := by
  obtain ⟨k, hk, hterminal⟩ := h.exists_classOf p
  obtain ⟨own, hown⟩ := hsets p.trace
  rw [partFigures?, hk, ok_bind] at herror
  cases k with
  | terminal isParent =>
    simp only [hown, ok_bind] at herror
    cases own <;> cases herror
  | imported =>
    dsimp only at herror
    split at herror
    · cases herror
    · split at herror
      · cases herror
      · rename_i part _
        obtain ⟨set, hset⟩ := hsets part
        rw [hset] at herror
        cases herror
  | parent children =>
    simp only [hown, ok_bind] at herror
    cases own with
    | none => cases herror
    | some own =>
      rcases bind_eq_error.1 herror with herror | ⟨components, -, herror⟩
      · obtain ⟨child, hchild, c, herror⟩ := exists_of_foldlM_eq_error herror
        obtain ⟨rfl, supplied, hsupplied, hunit⟩ := addChild_eq_error hsets herror
        exact ⟨rfl, hterminal children rfl, children, own, child, supplied, hk, hown, hchild,
          hsupplied, hunit⟩
      · cases herror

theorem vector_eq_error (h : Coherent s) (hsets : ∀ trace, ∃ set, storedSet s trace = .ok set)
    {operator : Uuid} {e : Error} (herror : vector s operator trace = .error e) :
    e = .inconsistent .unit trace ∧ UnitClash s operator trace := by
  obtain ⟨o, ho⟩ := h.exists_part? operator trace
  rw [vector, ho, ok_bind] at herror
  cases o with
  | none => cases herror
  | some p =>
    obtain ⟨r, -, htrace, -, -, hread⟩ := Store.part?_eq_some ho
    have htrace : p.trace = trace := by rw [(PartRecord.part_eq_ok.1 hread).1, htrace]
    rcases bind_eq_error.1 herror with herror | ⟨fs, -, herror⟩
    · obtain ⟨he, hterminal, children, own, child, supplied, hclass, hown, hrest⟩ :=
        partFigures?_eq_error h hsets herror
      rw [htrace] at he hown
      exact ⟨he, p, children, own, child, supplied, ho, hterminal, hclass, hown, hrest⟩
    · cases herror

theorem figuresFor_eq_error (h : Coherent s) (hsets : ∀ trace, ∃ set, storedSet s trace = .ok set)
    {operator : Uuid} {traces : List Uuid} {e : Error}
    (herror : figuresFor s operator traces = .error e) :
    ∃ trace ∈ traces, e = .inconsistent .unit trace ∧ UnitClash s operator trace := by
  rcases bind_eq_error.1 herror with herror | ⟨vectors, -, herror⟩
  · obtain ⟨trace, htrace, herror⟩ := exists_of_mapM_eq_error herror
    exact ⟨trace, htrace, vector_eq_error h hsets herror⟩
  · cases herror

/-- What was accepted can be read back when the rows of every part certify the same. -/
theorem Coherent.readsBack_iff_same (h : Coherent s) :
    ReadsBack s ↔ ∀ trace, SameCertificates s trace := by
  constructor
  · intro hreads trace
    obtain ⟨set, hset⟩ := hreads.sets trace
    rcases h.storedSet_cases trace with ⟨hsame, -⟩ | ⟨-, herror⟩
    · exact hsame
    · cases hset.symm.trans herror
  · intro hsame
    have hsets : ∀ trace, ∃ set, storedSet s trace = .ok set := by
      intro trace
      rcases h.storedSet_cases trace with ⟨-, hset⟩ | ⟨hdiffer, -⟩
      · exact hset
      · exact absurd (hsame trace) hdiffer
    exact ⟨hsets, fun _ _ _ herror => figuresFor_eq_error h hsets herror⟩

/-- Whether an operation registers a set whose figures do not all carry the same certificates. -/
def Exchange.Operation.mixesCertificates (op : Operation) : Prop :=
  ∃ id fs, op = .putFigures id fs ∧ op.registers ≠ none ∧
    ∃ f ∈ fs, ∃ g ∈ fs, f.certificates ≠ g.certificates

theorem not_mixesCertificates {op : Operation} (h : op.registers = none) : ¬ op.mixesCertificates :=
  fun ⟨_, _, _, hregisters, _⟩ => hregisters h

/-- Rows with the places and the certificates that rows had before. -/
theorem sameCertificates_of_rows (hsame : ∀ trace, SameCertificates s trace)
    (hrows : ∀ r' ∈ s'.figures, ∃ r ∈ s.figures, r.trace = r'.trace ∧
      r.certificates = r'.certificates) : ∀ trace, SameCertificates s' trace := by
  intro trace r' hr' q' hq' hr hq
  obtain ⟨r, hmem, htrace, hcertificates⟩ := hrows r' hr'
  obtain ⟨q, hmem', htrace', hcertificates'⟩ := hrows q' hq'
  rw [← hcertificates, ← hcertificates']
  exact hsame trace r hmem q hmem' (htrace.trans hr) (htrace'.trans hq)

theorem quoteList_injective {cs cs' : List String} (h : Json.quoteList cs = Json.quoteList cs') :
    cs = cs' := by
  have hread := Json.readList_quoteList cs
  rw [h, Json.readList_quoteList] at hread
  exact (Option.some.inj hread).symm

/-- Of a new set exactly the certificates submitted with it are compared. -/
theorem sameCertificates_register {fs : List Figure} {first : Figure} {now : Instant} {id : Uuid}
    (hsame : ∀ trace, SameCertificates s trace) (hrules : Rules.figures fs = [])
    (hfirst : fs.head? = some first) (hblank : s.hasFigures first.trace = false)
    (hfigures : s'.figures = s.figures ++ fs.map (FigureRecord.ofFigure now id)) :
    (∀ trace, SameCertificates s' trace) ↔
      ∀ f ∈ fs, ∀ g ∈ fs, f.certificates = g.certificates := by
  have hnew {f : Figure} (hf : f ∈ fs) : FigureRecord.ofFigure now id f ∈ s'.figures ∧
      (FigureRecord.ofFigure now id f).trace = first.trace := by
    rw [hfigures]
    exact ⟨List.mem_append_right _ (List.mem_map_of_mem hf),
      (Rules.shared_of_figures hrules hfirst hf).1⟩
  have hold {r : FigureRecord} (hr : r ∈ s.figures) : r.trace ≠ first.trace :=
    Store.trace_ne_of_blank hblank hr
  constructor
  · intro h f hf g hg
    obtain ⟨hmem, htrace⟩ := hnew hf
    obtain ⟨hmem', htrace'⟩ := hnew hg
    exact quoteList_injective (h first.trace _ hmem _ hmem' htrace htrace')
  · intro h trace r hr q hq htrace htrace'
    rw [hfigures, List.mem_append, List.mem_map] at hr hq
    rcases hr with hr | ⟨f, hf, rfl⟩ <;> rcases hq with hq | ⟨g, hg, rfl⟩
    · exact hsame trace r hr q hq htrace htrace'
    · exact absurd (htrace.trans (htrace'.symm.trans (hnew hg).2)) (hold hr)
    · exact absurd (htrace'.trans (htrace.symm.trans (hnew hf).2)) (hold hq)
    · exact congrArg Json.quoteList (h f hf g hg)

theorem sameCertificates_certify {now : Instant} {part : Uuid} {certificates : List String}
    (hsame : ∀ trace, SameCertificates s trace) :
    ∀ trace, SameCertificates (s.certify now part certificates) trace := by
  intro trace r' hr' q' hq' htrace htrace'
  have hrow {r' : FigureRecord} (hr' : r' ∈ (s.certify now part certificates).figures) :
      (r'.trace = part ∧ r'.certificates = Json.quoteList certificates) ∨
        (r'.trace ≠ part ∧ r' ∈ s.figures) := by
    rcases mem_updateWhere.1 hr' with ⟨hr, hother⟩ | ⟨r, -, hpart, rfl⟩
    · exact Or.inr ⟨by simpa using hother, hr⟩
    · exact Or.inl ⟨by simpa using hpart, rfl⟩
  rcases hrow hr' with ⟨hpart, hr⟩ | ⟨hpart, hr⟩ <;>
    rcases hrow hq' with ⟨hpart', hq⟩ | ⟨hpart', hq⟩
  · rw [hr, hq]
  · exact absurd (htrace'.trans (htrace.symm.trans hpart)) hpart'
  · exact absurd (htrace.trans (htrace'.symm.trans hpart')) hpart
  · exact hsame trace r' hr q' hq htrace htrace'

/-- Certificates come to differ only by a registration in which they do. -/
theorem sameCertificates_step {limits : TextLimits} {now : Instant} {caller : Uuid}
    {op : Operation} {reply : Reply} (h : Coherent s)
    (haccepted : Accepted limits now caller s op reply s')
    (hsame : ∀ trace, SameCertificates s trace) :
    (∀ trace, SameCertificates s' trace) ↔ ¬ op.mixesCertificates := by
  cases figureChange_of_accepted haccepted with
  | kept hop _ hfigures =>
    refine iff_of_true (sameCertificates_of_rows hsame ?_) (not_mixesCertificates hop)
    intro r hr
    exact ⟨r, hfigures ▸ hr, rfl, rfl⟩
  | dropped hop _ _ hfigures =>
    refine iff_of_true (sameCertificates_of_rows hsame ?_) (not_mixesCertificates hop)
    intro r hr
    rw [hfigures] at hr
    exact ⟨r, (mem_deleteWhere.1 hr).1, rfl, rfl⟩
  | @registered id fs first hregisters hnew hrules hfirst hblank _ hfigures =>
    rw [sameCertificates_register hsame hrules hfirst hblank hfigures]
    constructor
    · rintro hall ⟨_, _, hfs, -, f, hf, g, hg, hdiffer⟩
      cases hregisters.symm.trans hfs
      exact hdiffer (hall f hf g hg)
    · intro hno f hf g hg
      by_contra hdiffer
      exact hno ⟨id, fs, hregisters, by simp [hnew], f, hf, g, hg, hdiffer⟩
  | revised hop hrules _ hfound hwritten =>
    obtain ⟨change, rfl, hplace, -⟩ := revised_rows h hrules hfound hwritten
    refine iff_of_true (sameCertificates_of_rows hsame ?_) (not_mixesCertificates hop)
    rw [List.forall_mem_map]
    intro r hr
    obtain ⟨-, htrace, -, hcertificates⟩ := FigureRecord.place_eq_iff.1 (hplace r)
    exact ⟨r, hr, htrace.symm, hcertificates.symm⟩
  | certified hop hwritten =>
    rw [hwritten]
    exact iff_of_true (sameCertificates_certify hsame) (not_mixesCertificates hop)

/-- In a reachable store the accepted sets can be read back exactly when the rows of every part
carry the same certificates; the guard names these otherwise. As long as all can be read, the
operation that ends this is an accepted registration of figures with different certificates. -/
theorem readsBack_iff (hs : Reachable s) :
    (ReadsBack s ↔ ∀ trace, SameCertificates s trace) ∧
    (∀ trace, ¬ SameCertificates s trace →
      storedSet s trace = .error (.inconsistent .certificates trace)) ∧
    ∀ c : Call, c.Fresh s → ReadsBack s →
      (ReadsBack (c.after s) ↔
        ¬ ((∃ result, c.op.run c.limits c.now c.caller s = .ok result) ∧
          c.op.mixesCertificates)) := by
  have hcoherent := Coherent.of_reachable hs
  refine ⟨hcoherent.readsBack_iff_same, ?_, ?_⟩
  · intro trace hdiffer
    rcases hcoherent.storedSet_cases trace with ⟨hsame, -⟩ | ⟨-, herror⟩
    · exact absurd hsame hdiffer
    · exact herror
  · intro c hfresh hreads
    have hsame := hcoherent.readsBack_iff_same.1 hreads
    rw [(Coherent.of_reachable (hs.call c hfresh)).readsBack_iff_same, Call.after]
    cases hrun : c.op.run c.limits c.now c.caller s with
    | error e =>
      refine iff_of_true hsame ?_
      rintro ⟨⟨result, hresult⟩, -⟩
      cases hresult
    | ok result =>
      obtain ⟨reply, s'⟩ := result
      have hstep := sameCertificates_step hcoherent (accepted_of_run hrun) hsame
      exact hstep.trans (not_congr ⟨fun h => ⟨⟨_, rfl⟩, h⟩, And.right⟩)

theorem readsBack_iff_sample : ReadsBack (sampleRegistration.after sampleAnswered) := by
  have hsame : ∀ r ∈ (sampleRegistration.after sampleAnswered).figures,
      ∀ q ∈ (sampleRegistration.after sampleAnswered).figures,
        r.certificates = q.certificates := by decide +kernel
  exact (readsBack_iff reachable_sampleRegistration).1.2 fun _ r hr q hq _ _ => hsame r hr q hq

/-- The sample's registration with a certificate on one of the four figures. -/
def mixedRegistration : Call :=
  sampleCall ⟨2⟩ (.putFigures (.v4 40) ((sampleFigures (.v4 20)).map fun f =>
    if f.kind = .preProduction then { f with certificates := ["certificate"] } else f))

/-- It is accepted, and then the set cannot be read. -/
theorem not_readsBack_mixed :
    Reachable (mixedRegistration.after sampleAnswered) ∧
      storedSet (mixedRegistration.after sampleAnswered) (.v4 20) =
        .error (.inconsistent .certificates (.v4 20)) ∧
      ¬ ReadsBack (mixedRegistration.after sampleAnswered) := by
  have hreach : Reachable (mixedRegistration.after sampleAnswered) :=
    reachable_sampleAnswered.call mixedRegistration (by decide +kernel)
  have hdiffer : ¬ SameCertificates (mixedRegistration.after sampleAnswered) (.v4 20) := by
    intro hsame
    obtain ⟨r, hr, q, hq, htrace, htrace', hne⟩ :
        ∃ r ∈ (mixedRegistration.after sampleAnswered).figures,
          ∃ q ∈ (mixedRegistration.after sampleAnswered).figures,
            r.trace = .v4 20 ∧ q.trace = .v4 20 ∧ r.certificates ≠ q.certificates := by
      decide +kernel
    exact hne (hsame r hr q hq htrace htrace')
  have hcoherent := Coherent.of_reachable hreach
  refine ⟨hreach, ?_, fun hreads => hdiffer (hcoherent.readsBack_iff_same.1 hreads (.v4 20))⟩
  rcases hcoherent.storedSet_cases (.v4 20) with ⟨hsame, -⟩ | ⟨-, herror⟩
  · exact absurd hsame hdiffer
  · exact herror

end Footprint
