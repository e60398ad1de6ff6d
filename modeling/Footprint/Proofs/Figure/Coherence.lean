import Footprint.Proofs.Exchange.Reachable
import Footprint.Proofs.Figure.Change

namespace Footprint

open Table Enumerated Exchange

/-- A row that holds literals of a submitted figure. -/
structure FigureRecord.Legible (r : FigureRecord) : Prop where
  kind : ∃ kind ∈ FigureKind.inputs, r.kind = literal kind
  unit : ∃ u : DeclaredUnit, r.unit = literal u
  ratingKind : ∃ kind : RatingKind, r.ratingKind = literal kind
  certificates : ∃ certificates, r.certificates = Json.quoteList certificates

/-- Where a row stands and what it certifies, which no revision changes. -/
def FigureRecord.place (r : FigureRecord) : Uuid × Uuid × String × String :=
  (r.setId, r.trace, r.kind, r.certificates)

/-- A row of a part whose unit, if any, can be read. -/
def PartRecord.Legible (r : PartRecord) : Prop :=
  ∃ u : Option AmountUnit, r.amountUnit = u.map literal

structure Coherent (s : Store) : Prop where
  parts : ∀ r ∈ s.parts, r.Legible
  figures : ∀ r ∈ s.figures, r.Legible
  sets : ∀ r ∈ s.figures, ∀ q ∈ s.figures, r.trace = q.trace → r.setId = q.setId ∧ r.unit = q.unit
  traces : ∀ r ∈ s.figures, ∀ q ∈ s.figures, r.setId = q.setId → r.trace = q.trace

theorem coherent_empty : Coherent Store.empty := by
  constructor <;> simp [Store.empty]

variable {now : Instant} {s s' : Store} {reply : Reply}

theorem legible_writeParts {ps : List Part} {table : List PartRecord}
    (h : ∀ r ∈ table, r.Legible) : ∀ r ∈ ps.foldl (Store.writePart now) table, r.Legible := by
  intro r hr
  rcases mem_writeParts hr with ⟨hr, -⟩ | ⟨p, -, q, rfl⟩
  · exact h r hr
  · exact ⟨p.amountUnit, rfl⟩

theorem legible_dropParts {author : Uuid} {traces : List Uuid} (h : ∀ r ∈ s.parts, r.Legible) :
    ∀ r ∈ (s.dropParts now author traces).parts, r.Legible := by
  intro r hr
  rcases mem_updateWhere.1 hr with ⟨hr, -⟩ | ⟨q, hq, -, rfl⟩
  · exact h r hr
  · exact h q hq

/-- Figures that are dropped leave the others coherent. -/
theorem Coherent.of_subset (h : Coherent s) (hparts : ∀ r ∈ s'.parts, r.Legible)
    (hfigures : s'.figures ⊆ s.figures) : Coherent s' where
  parts := hparts
  figures r hr := h.figures r (hfigures hr)
  sets r hr q hq := h.sets r (hfigures hr) q (hfigures hq)
  traces r hr q hq := h.traces r (hfigures hr) q (hfigures hq)

theorem legible_ofFigure {fs : List Figure} {first f : Figure} {id : Uuid}
    (hrules : Rules.figures fs = []) (hfirst : fs.head? = some first) (hf : f ∈ fs) :
    (FigureRecord.ofFigure now id f).Legible := by
  obtain ⟨-, -, -, hunit, hkind, -⟩ := Rules.shared_of_figures hrules hfirst hf
  obtain ⟨u, hunit⟩ := Option.isSome_iff_exists.1 hunit
  exact ⟨⟨f.kind, hkind, rfl⟩, ⟨u, by simp [FigureRecord.ofFigure, hunit]⟩, ⟨_, rfl⟩, ⟨_, rfl⟩⟩

/-- A new set for a part without figures, under a new identifier. -/
theorem Coherent.register {fs : List Figure} {first : Figure} {id : Uuid} (h : Coherent s)
    (hrules : Rules.figures fs = []) (hfirst : fs.head? = some first)
    (hblank : s.hasFigures first.trace = false) (hid : ∀ r ∈ s.figures, r.setId ≠ id)
    (hparts : s'.parts = s.parts)
    (hfigures : s'.figures = s.figures ++ fs.map (FigureRecord.ofFigure now id)) :
    Coherent s' := by
  have hnew {r : FigureRecord} (hr : r ∈ fs.map (FigureRecord.ofFigure now id)) :
      r.Legible ∧ r.setId = id ∧ r.trace = first.trace ∧
        r.unit = (first.unit.map literal).getD "" := by
    obtain ⟨f, hf, rfl⟩ := List.mem_map.1 hr
    obtain ⟨htrace, -, hunit, -⟩ := Rules.shared_of_figures hrules hfirst hf
    exact ⟨legible_ofFigure hrules hfirst hf, rfl, htrace,
      by rw [FigureRecord.ofFigure, hunit]⟩
  have hold {r : FigureRecord} (hr : r ∈ s.figures) : r.trace ≠ first.trace :=
    Store.trace_ne_of_blank hblank hr
  have hmem (r : FigureRecord) :
      r ∈ s'.figures ↔ r ∈ s.figures ∨ r ∈ fs.map (FigureRecord.ofFigure now id) := by
    rw [hfigures, List.mem_append]
  constructor
  case parts =>
    rw [hparts]
    exact h.parts
  case figures =>
    intro r hr
    rcases (hmem r).1 hr with hr | hr
    · exact h.figures r hr
    · exact (hnew hr).1
  case sets =>
    intro r hr q hq htrace
    rcases (hmem r).1 hr with hr | hr <;> rcases (hmem q).1 hq with hq | hq
    · exact h.sets r hr q hq htrace
    · exact absurd (htrace.trans (hnew hq).2.2.1) (hold hr)
    · exact absurd (htrace.symm.trans (hnew hr).2.2.1) (hold hq)
    · obtain ⟨-, hset, -, hunit⟩ := hnew hr
      obtain ⟨-, hset', -, hunit'⟩ := hnew hq
      exact ⟨hset.trans hset'.symm, hunit.trans hunit'.symm⟩
  case traces =>
    intro r hr q hq hset
    rcases (hmem r).1 hr with hr | hr <;> rcases (hmem q).1 hq with hq | hq
    · exact h.traces r hr q hq hset
    · exact absurd (hset.trans (hnew hq).2.1) (hid r hr)
    · exact absurd (hset.symm.trans (hnew hr).2.1) (hid q hq)
    · exact (hnew hr).2.2.1.trans (hnew hq).2.2.1.symm

/-- A revised figure keeps the place of a stored row and takes what was submitted for it. -/
theorem revisedFigure_eq_ok {setId : Uuid} {f f' : Figure} (h : revisedFigure s setId f = .ok f') :
    f'.setId = some setId ∧ f'.kind = f.kind ∧ f'.unit = f.unit ∧ f'.ratingKind = f.ratingKind ∧
      f'.emission = f.emission ∧ f'.rating = f.rating ∧
      ∃ r ∈ s.figures, r.setId = setId ∧ r.trace = f.trace := by
  obtain ⟨stored, hstored, h⟩ := bind_eq_ok.1 h
  cases stored with
  | none => cases h
  | some stored =>
    dsimp only at h
    split at h
    · rename_i hsame
      cases h
      obtain ⟨r, hr, hread⟩ := readOptional_eq_ok_some.1 hstored
      have hfound := List.find?_some hr
      simp only [Bool.and_eq_true, decide_eq_true_eq] at hfound
      obtain ⟨-, hkind, -, -, hset, htrace, -⟩ := FigureRecord.figure_eq_ok.1 hread
      exact ⟨by rw [hset, hfound.1], literal_injective _ _ (hkind.symm.trans hfound.2), rfl, rfl,
        rfl, rfl, r, List.mem_of_find?_eq_some hr, hfound.1, htrace.symm.trans hsame⟩
    · exact absurd h refuseWith_ne_ok

theorem FigureRecord.place_eq_iff {r q : FigureRecord} :
    r.place = q.place ↔
      r.setId = q.setId ∧ r.trace = q.trace ∧ r.kind = q.kind ∧
        r.certificates = q.certificates := by
  simp [place]

/-- A rating as columns of numbers keep it. -/
def Rating.stored (r : Rating) : Rating :=
  ⟨r.technological.map storedNumber, r.geographical.map storedNumber, r.temporal.map storedNumber⟩

def FigureRecord.rating (r : FigureRecord) : Rating :=
  ⟨r.technological, r.geographical, r.temporal⟩

/-- A row that holds all that a submitted figure states, its certificates apart. -/
structure FigureRecord.Carries (f : Figure) (r : FigureRecord) : Prop where
  kind : r.kind = literal f.kind
  unit : r.unit = (f.unit.map literal).getD ""
  ratingKind : r.ratingKind = literal f.ratingKind
  emission : r.emission = f.emission.map storedNumber
  rating : r.rating = f.rating.stored

theorem FigureRecord.carries_ofFigure {id : Uuid} (f : Figure) :
    (ofFigure now id f).Carries f :=
  ⟨rfl, rfl, rfl, rfl, rfl⟩

/-- What a revision makes of the rows: all keep their places, and each row of the set holds one of
the submitted figures. -/
theorem revised_rows {fs revised : List Figure} {setId : Uuid} (h : Coherent s)
    (hrules : Rules.figures fs = []) (hrevised : fs.mapM (revisedFigure s setId) = .ok revised)
    (hwritten : s.reviseFigures now revised = .ok s') :
    ∃ change : FigureRecord → FigureRecord,
      s' =
        { s with
          figures := s.figures.map change } ∧
      (∀ r, (change r).place = r.place) ∧
      (∀ r ∈ s.figures, r.setId ≠ setId → change r = r) ∧
      ∀ r ∈ s.figures, r.setId = setId → ∃ f ∈ fs, (change r).Carries f := by
  obtain ⟨figures, hfold, rfl⟩ := Store.reviseFigures_eq_ok hwritten
  obtain ⟨hresult, horigin⟩ := mem_of_mapM_eq_ok hrevised
  have hset : ∀ f' ∈ revised, f'.setId = some setId := by
    intro f' hf'
    obtain ⟨f, -, hf⟩ := horigin f' hf'
    exact (revisedFigure_eq_ok hf).1
  have hmake : ∀ f' ∈ revised, ∀ r : FigureRecord,
      decide (r.setId = setId) && decide (r.kind = literal f'.kind) →
      ∃ f ∈ fs, (FigureRecord.revise now f' r).Carries f := by
    intro f' hf' r hselected
    simp only [Bool.and_eq_true, decide_eq_true_eq] at hselected
    obtain ⟨f, hf, hff'⟩ := horigin f' hf'
    obtain ⟨-, hkind, hunit, hratingKind, hemission, hrating, -⟩ := revisedFigure_eq_ok hff'
    rw [hkind] at hselected
    refine ⟨f, hf, hselected.2, ?_, ?_, ?_, ?_⟩
    · rw [FigureRecord.revise, hunit]
    · rw [FigureRecord.revise, hratingKind]
    · rw [FigureRecord.revise, hemission]
    · rw [FigureRecord.rating, FigureRecord.revise, hrating]
      rfl
  rw [Store.foldlM_reviseFigure hset hfold, foldl_updateWhere]
  refine ⟨_, rfl, ?_, ?_, ?_⟩
  · intro r
    have hplace (f : Figure) (r : FigureRecord) : (FigureRecord.revise now f r).place = r.place :=
      rfl
    exact key_foldl hplace r
  · intro r _ hother
    apply foldl_eq_self
    intro f' _ hselected
    simp [hother] at hselected
  · intro r hr hsame
    -- A set has rows of input kinds only, and a figure of every input kind is submitted.
    obtain ⟨kind, hkind, hliteral⟩ := (h.figures r hr).kind
    obtain ⟨f, hf, rfl, -⟩ := Rules.exists_kind_of_kinds (Rules.kinds_of_figures hrules) hkind
    obtain ⟨f', hf', hff'⟩ := hresult f hf
    obtain ⟨-, hkind', -⟩ := revisedFigure_eq_ok hff'
    refine foldl_of_selected (P := fun r : FigureRecord => ∃ f ∈ fs, r.Carries f) hmake
      (Or.inr ⟨f', hf', ?_⟩)
    simp [hsame, hliteral, hkind']

theorem Coherent.revise {fs revised : List Figure} {first : Figure} {setId : Uuid} (h : Coherent s)
    (hrules : Rules.figures fs = []) (hfirst : fs.head? = some first)
    (hrevised : fs.mapM (revisedFigure s setId) = .ok revised)
    (hwritten : s.reviseFigures now revised = .ok s') : Coherent s' := by
  obtain ⟨change, rfl, hplace, hother, hset⟩ := revised_rows h hrules hrevised hwritten
  have hplace (r : FigureRecord) := FigureRecord.place_eq_iff.1 (hplace r)
  have hset (r : FigureRecord) (hr : r ∈ s.figures) (hsame : r.setId = setId) :
      (change r).unit = (first.unit.map literal).getD "" ∧
        ∃ kind : RatingKind, (change r).ratingKind = literal kind := by
    obtain ⟨f, hf, hcarries⟩ := hset r hr hsame
    obtain ⟨-, -, hunit, -⟩ := Rules.shared_of_figures hrules hfirst hf
    exact ⟨by rw [hcarries.unit, hunit], f.ratingKind, hcarries.ratingKind⟩
  have hunit : ∃ u : DeclaredUnit, (first.unit.map literal).getD "" = literal u := by
    obtain ⟨-, -, -, hsome, -⟩ :=
      Rules.shared_of_figures hrules hfirst (List.mem_of_mem_head? hfirst)
    obtain ⟨u, hu⟩ := Option.isSome_iff_exists.1 hsome
    exact ⟨u, by rw [hu]; rfl⟩
  constructor
  case parts => exact h.parts
  case figures =>
    rw [List.forall_mem_map]
    intro r hr
    obtain ⟨-, -, hkind, hcertificates⟩ := hplace r
    by_cases hsame : r.setId = setId
    · obtain ⟨hunit', hrating⟩ := hset r hr hsame
      exact ⟨hkind ▸ (h.figures r hr).kind, hunit' ▸ hunit, hrating,
        hcertificates ▸ (h.figures r hr).certificates⟩
    · rw [hother r hr hsame]
      exact h.figures r hr
  case sets =>
    simp only [List.forall_mem_map]
    intro r hr q hq htrace
    rw [(hplace r).2.1, (hplace q).2.1] at htrace
    obtain ⟨hsets, hunits⟩ := h.sets r hr q hq htrace
    refine ⟨by rw [(hplace r).1, (hplace q).1, hsets], ?_⟩
    by_cases hsame : r.setId = setId
    · rw [(hset r hr hsame).1, (hset q hq (hsets.symm.trans hsame)).1]
    · rw [hother r hr hsame, hother q hq (hsets ▸ hsame), hunits]
  case traces =>
    simp only [List.forall_mem_map]
    intro r hr q hq hsets
    rw [(hplace r).1, (hplace q).1] at hsets
    rw [(hplace r).2.1, (hplace q).2.1, h.traces r hr q hq hsets]

/-- Certificates are no concern of coherence as long as they can be read. -/
theorem Coherent.certify {trace : Uuid} {certificates : List String} (h : Coherent s) :
    Coherent (s.certify now trace certificates) := by
  have hrow {r' : FigureRecord} (hr' : r' ∈ (s.certify now trace certificates).figures) :
      r'.Legible ∧ ∃ r ∈ s.figures, r.setId = r'.setId ∧ r.trace = r'.trace ∧ r.unit = r'.unit := by
    rcases mem_updateWhere.1 hr' with ⟨hr, -⟩ | ⟨r, hr, -, rfl⟩
    · exact ⟨h.figures r' hr, r', hr, rfl, rfl, rfl⟩
    · obtain ⟨hkind, hunit, hrating, -⟩ := h.figures r hr
      exact ⟨⟨hkind, hunit, hrating, certificates, rfl⟩, r, hr, rfl, rfl, rfl⟩
  constructor
  case parts => exact h.parts
  case figures => exact fun r hr => (hrow hr).1
  case sets =>
    intro r' hr' q' hq' htrace
    obtain ⟨-, r, hr, hset, htrace₁, hunit⟩ := hrow hr'
    obtain ⟨-, q, hq, hset', htrace₂, hunit'⟩ := hrow hq'
    rw [← hset, ← hset', ← hunit, ← hunit']
    exact h.sets r hr q hq (htrace₁.trans (htrace.trans htrace₂.symm))
  case traces =>
    intro r' hr' q' hq' hset
    obtain ⟨-, r, hr, hset₁, htrace, -⟩ := hrow hr'
    obtain ⟨-, q, hq, hset₂, htrace', -⟩ := hrow hq'
    rw [← htrace, ← htrace']
    exact h.traces r hr q hq (hset₁.trans (hset.trans hset₂.symm))

theorem Coherent.step {c : Call} (hfresh : c.Fresh s) (h : Coherent s)
    (haccepted : Accepted c.limits c.now c.caller s c.op reply s') : Coherent s' := by
  cases figureChange_of_accepted haccepted with
  | kept _ hparts hfigures =>
    exact h.of_subset (hparts ▸ h.parts) (hfigures ▸ List.Subset.refl _)
  | dropped _ _ hparts hfigures =>
    refine h.of_subset ?_ ?_
    · rw [hparts]
      exact legible_writeParts (legible_dropParts h.parts)
    · rw [hfigures]
      exact List.filter_sublist.subset
  | @registered id fs first hop hnew hrules hfirst hblank hparts hfigures =>
    have hid : ∀ r ∈ s.figures, r.setId ≠ id := by
      have hminted : id ∈ c.op.minted := by
        rw [hop] at hnew ⊢
        simp [Operation.minted, hnew]
      intro r hr hset
      refine (hfresh.2 id hminted).2 ?_
      simp only [Store.keys, List.mem_append, List.mem_map]
      exact Or.inl (Or.inl (Or.inr ⟨r, hr, hset⟩))
    exact h.register hrules hfirst hblank hid hparts hfigures
  | revised _ hrules hfirst hfound hwritten => exact h.revise hrules hfirst hfound hwritten
  | certified _ hwritten =>
    rw [hwritten]
    exact h.certify

/-- In a reachable store the figures of a part are one set with one unit. Nothing is said of their
certificates. -/
theorem Coherent.of_reachable (h : Reachable s) : Coherent s :=
  h.induct coherent_empty fun _ _ hfresh hs haccepted => hs.step hfresh haccepted

end Footprint
