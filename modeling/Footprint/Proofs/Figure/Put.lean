import Footprint.Proofs.Exchange.Isolation
import Footprint.Proofs.Exchange.Served
import Footprint.Proofs.Figure.Register

namespace Footprint

open Table Enumerated Exchange

/-- An open request of a live trade that is answered with the part. -/
def Store.awaitsFigures (s : Store) (trace : Uuid) (r : StatusRecord) : Bool :=
  r.isPending && s.trades.any fun t => t.id = r.trade && t.isLive && t.supplierPart = some trace

namespace FigureRecord

/-- The row of a new figure. -/
def added (now : Instant) (id : Uuid) (f : Figure) : FigureRecord where
  setId := id
  kind := literal f.kind
  trace := f.trace
  emission := f.emission.map storedNumber
  unit := (f.unit.map literal).getD ""
  ratingKind := literal f.ratingKind
  technological := f.rating.technological.map storedNumber
  geographical := f.rating.geographical.map storedNumber
  temporal := f.rating.temporal.map storedNumber
  certificates := Json.quoteList f.certificates
  createdAt := now
  updatedAt := now

/-- A row with the emission, the unit and the rating of a figure. -/
def restated (now : Instant) (f : Figure) (r : FigureRecord) : FigureRecord :=
  { r with
    emission := f.emission.map storedNumber
    unit := (f.unit.map literal).getD ""
    ratingKind := literal f.ratingKind
    technological := f.rating.technological.map storedNumber
    geographical := f.rating.geographical.map storedNumber
    temporal := f.rating.temporal.map storedNumber
    updatedAt := now }

/-- A row of the part with the values of the figure of its kind. -/
def rewritten (now : Instant) (trace : Uuid) (fs : List Figure) (r : FigureRecord) :
    FigureRecord :=
  match fs.find? fun f => r.trace = trace && r.kind = literal f.kind with
  | some f => r.restated now f
  | none => r

theorem ofFigure_eq_added : ofFigure = added := rfl

theorem revise_eq_restated : revise = restated := rfl

end FigureRecord

/-- The store with a new set for the part, and with the requests completed that waited for it. -/
def Store.withNewSet (s : Store) (now : Instant) (id trace : Uuid) (terminal : Bool)
    (fs : List Figure) : Store :=
  { s with
    figures := s.figures ++ fs.map (FigureRecord.added now id)
    statuses := updateWhere (s.awaitsFigures trace) (StatusRecord.completed now terminal)
      s.statuses }

/-- The store with the values of the figures in the rows of the part. -/
def Store.withRevisedSet (s : Store) (now : Instant) (trace : Uuid) (fs : List Figure) : Store :=
  { s with figures := s.figures.map (FigureRecord.rewritten now trace fs) }

/-- How legal figures without an identifier fare for a live part of the caller. -/
structure PutsNew (s : Store) (c : Call) (id : Uuid) (fs : List Figure) (trace : Uuid) : Prop where
  succeeds : c.Succeeds s ↔ s.hasFigures trace = false
  duplicate : s.hasFigures trace → c.served s = (.error (.duplicateFigures trace), s)
  rows : ∀ r ∈ fs.map (FigureRecord.added c.now id), r.trace = trace ∧ r.setId = id
  kinds : ((fs.map (FigureRecord.added c.now id)).map (·.kind)).Perm
    ["preProduction", "mainProduction", "preComponent", "mainComponent"]
  written : s.hasFigures trace = false → ∃ part ∈ s.parts, part.trace = trace ∧ part.isLive ∧
    c.served s = (.ok (.setId id), s.withNewSet c.now id trace part.terminal fs)

/-- How legal figures of the set `x` fare for a live part of the caller. -/
structure PutsOld (s : Store) (c : Call) (x : Uuid) (fs : List Figure) (first : Figure) :
    Prop where
  succeeds : c.Succeeds s ↔ ∃ r ∈ s.figures, r.setId = x ∧ r.trace = first.trace
  unknown : (∀ r ∈ s.figures, r.setId ≠ x) →
    c.served s = (.error (.figureNotFound x first.kind), s)
  other : (∃ r ∈ s.figures, r.setId = x ∧ r.trace ≠ first.trace) →
    c.served s = (.error (.invalid [.setOfOtherTrace x]), s)
  written : (∃ r ∈ s.figures, r.setId = x ∧ r.trace = first.trace) →
    c.served s = (.ok (.setId x), s.withRevisedSet c.now first.trace fs)
  rows : ∀ r ∈ s.figures, r.trace = first.trace → ∃ f ∈ fs, r.kind = literal f.kind ∧
    r.rewritten c.now first.trace fs = r.restated c.now f
  again : s.figuresOf first.trace = .ok fs →
    s.withRevisedSet c.now first.trace fs =
      { s with
        figures := updateWhere (·.trace = first.trace)
          (fun r => { r with updatedAt := c.now }) s.figures }

variable {c : Call} {s s' : Store} {id x trace : Uuid} {fs rest : List Figure}
variable {first f g : Figure} {part : Part} {r : FigureRecord} {now : Instant} {write : Write}

theorem served_of_error {e : Error} (hop : c.op = .putFigures id fs)
    (h : putFigures id c.caller fs s = .error e) : c.served s = (.error e, s) :=
  served_of_plan_error (by rw [hop]; rfl) h

theorem served_of_ok (hop : c.op = .putFigures id fs)
    (h : putFigures id c.caller fs s = .ok (write, x)) (happly : s.apply c.now write = .ok s') :
    c.served s = (.ok (.setId x), s') :=
  served_of_plan_ok (by rw [hop]; rfl) h happly

theorem putFigures_of_rejected (hrules : Rules.figures fs ≠ []) :
    putFigures id c.caller fs s = .error (.invalid (Rules.figures fs)) := by
  have hrefused : refuse (Rules.figures fs) = .error (.invalid (Rules.figures fs)) :=
    if_neg fun h => hrules (List.isEmpty_iff.1 h)
  exact bind_eq_error.2 (Or.inl hrefused)

theorem putFigures_of_hidden (hrules : Rules.figures (first :: rest) = [])
    (hhidden : s.holds c.caller first.trace = false) :
    putFigures id c.caller (first :: rest) s = .error (.partNotFound first.trace) := by
  rw [putFigures, refuse_eq_ok_iff.2 hrules, ok_bind, part?_of_hidden hhidden]
  rfl

theorem putFigures_of_duplicate (hs : Reachable s) (hrules : Rules.figures (first :: rest) = [])
    (hpart : s.part? c.caller first.trace = .ok (some part)) (hnew : first.setId = none)
    (hhas : s.hasFigures first.trace) :
    putFigures id c.caller (first :: rest) s = .error (.duplicateFigures first.trace) := by
  obtain ⟨stored, hstored, -⟩ := (Coherent.of_reachable hs).figuresOf first.trace
  have hempty := Store.isEmpty_of_figuresOf hstored
  rw [putFigures, refuse_eq_ok_iff.2 hrules, ok_bind, hpart, ok_bind]
  simp only [hnew, hstored, ok_bind, hempty, hhas, Bool.not_true, Bool.false_eq_true, if_false]

theorem putFigures_of_new (hs : Reachable s) (hrules : Rules.figures (first :: rest) = [])
    (hpart : s.part? c.caller first.trace = .ok (some part)) (hnew : first.setId = none)
    (hblank : s.hasFigures first.trace = false) :
    ∃ completed, completions s (.ofTerminal part.terminal) (s.tradesAnsweredWith first.trace) =
        .ok completed ∧
      putFigures id c.caller (first :: rest) s =
        .ok (.addFigures ((first :: rest).map fun f => { f with setId := some id }) completed,
          id) := by
  obtain ⟨stored, hstored, -⟩ := (Coherent.of_reachable hs).figuresOf first.trace
  have hempty := Store.isEmpty_of_figuresOf hstored
  obtain ⟨completed, hcompleted⟩ :=
    exists_completions hs (.ofTerminal part.terminal) (s.tradesAnsweredWith first.trace)
  refine ⟨completed, hcompleted, ?_⟩
  rw [putFigures, refuse_eq_ok_iff.2 hrules, ok_bind, hpart, ok_bind]
  simp only [hnew, hstored, ok_bind, hempty, hblank, Bool.not_false, if_true, hcompleted]

/-- The trade of a pending status is live. -/
theorem waitsFor_eq (hs : s.Paired) {q : StatusRecord} (hq : q ∈ s.statuses) :
    Evolves.waitsFor s trace q = s.awaitsFigures trace q := by
  obtain ⟨t, hp⟩ := hs.exists_trade hq
  have hbelongs := hs.belongs _ hp
  rw [Bool.eq_iff_iff, Evolves.waitsFor_iff hs hp, Store.awaitsFigures, Bool.and_eq_true,
    List.any_eq_true]
  refine and_congr_right fun hpending => ⟨fun hpart => ?_, ?_⟩
  · have hid : t.id = q.trade := hbelongs.trade.symm
    have hlive : t.isLive := hbelongs.live.symm.trans (StatusRecord.isPending_iff.1 hpending).2
    have hpart : t.supplierPart = some trace := hpart
    exact ⟨t, Store.fst_mem_of_pairs hp, by simp [hid, hlive, hpart]⟩
  · rintro ⟨t', ht', hfound⟩
    simp only [Bool.and_eq_true, decide_eq_true_eq] at hfound
    obtain ⟨⟨hid, -⟩, hpart⟩ := hfound
    rwa [eq_of_key_eq hs.trades ht' (Store.fst_mem_of_pairs hp) (hid.trans hbelongs.trade)] at hpart

/-- The requests that wait for the set are completed along with it. -/
theorem addFigures_eq_withNewSet (hs : Reachable s) (hfresh : c.Fresh s)
    (hop : c.op = .putFigures id (first :: rest)) (hrules : Rules.figures (first :: rest) = [])
    (hnew : first.setId = none) (hblank : s.hasFigures first.trace = false) {terminal : Bool}
    {completed : List Status}
    (hcompleted : completions s (.ofTerminal terminal) (s.tradesAnsweredWith first.trace) =
      .ok completed) :
    s.addFigures now ((first :: rest).map fun f => { f with setId := some id }) completed =
      .ok (s.withNewSet now id first.trace terminal (first :: rest)) := by
  have hpaired := Store.Paired.of_reachable hs
  have hminted : id ∈ c.op.minted := by
    rw [hop]
    simp [Operation.minted, Operation.registers, hnew]
  have hinsert := Fulfils.insertFigures now hrules rfl hblank (hfresh.not_key hminted).1
  have hstatuses : completed.foldl (Store.reviseStatus now none) s.statuses =
      updateWhere (s.awaitsFigures first.trace) (StatusRecord.completed now terminal)
        s.statuses := by
    rw [Evolves.foldl_completions hpaired hcompleted]
    exact List.map_congr_left fun q hq => by rw [waitsFor_eq hpaired hq]
  rw [Store.addFigures_eq_ok (List.cons_ne_nil _ _), Store.withNewSet, hstatuses,
    ← FigureRecord.ofFigure_eq_added]
  exact ⟨hinsert, rfl⟩

theorem putsNew (hs : Reachable s) (hfresh : c.Fresh s)
    (hop : c.op = .putFigures id (first :: rest)) (hrules : Rules.figures (first :: rest) = [])
    (hholds : s.holds c.caller first.trace) (hnew : first.setId = none) :
    PutsNew s c id (first :: rest) first.trace := by
  obtain ⟨r, hr, hrtrace, hlive, part, hpart, hterminal⟩ := exists_part_of_holds hs hholds
  have hduplicate (hhas : s.hasFigures first.trace) :
      c.served s = (.error (.duplicateFigures first.trace), s) :=
    served_of_error hop (putFigures_of_duplicate hs hrules hpart hnew hhas)
  have hwritten (hblank : s.hasFigures first.trace = false) : c.served s =
      (.ok (.setId id), s.withNewSet c.now id first.trace part.terminal (first :: rest)) := by
    obtain ⟨completed, hcompleted, hplan⟩ := putFigures_of_new hs hrules hpart hnew hblank
    exact served_of_ok hop hplan
      (addFigures_eq_withNewSet hs hfresh hop hrules hnew hblank hcompleted)
  constructor
  case succeeds =>
    refine ⟨fun h => ?_, fun hblank => succeeds_of_ok (hwritten hblank)⟩
    rw [Bool.eq_false_iff]
    exact fun hhas => not_succeeds_of_error (hduplicate hhas) h
  case duplicate => exact hduplicate
  case rows =>
    intro row hrow
    obtain ⟨f, hf, rfl⟩ := List.mem_map.1 hrow
    exact ⟨(Rules.shared_of_figures hrules rfl hf).1, rfl⟩
  case kinds =>
    have hkinds : ((first :: rest).map (FigureRecord.added c.now id)).map (·.kind) =
        ((first :: rest).map (·.kind)).map literal := by
      rw [List.map_map, List.map_map]
      rfl
    rw [hkinds]
    exact (Rules.perm_kinds_of_figures hrules).map literal
  case written =>
    intro hblank
    rw [hterminal] at hwritten
    exact ⟨r, hr, hrtrace, hlive, hwritten hblank⟩

/-- Every kind of a set that is there is found, in a figure of the part that the set is of. -/
theorem exists_figure_of_set (hs : Reachable s) (hr : r ∈ s.figures) {kind : FigureKind}
    (hkind : kind ∈ FigureKind.inputs) :
    ∃ g, s.figure? r.setId kind = .ok (some g) ∧ g.trace = r.trace := by
  have hcoherent := Coherent.of_reachable hs
  have hhas : s.hasFigures r.trace := Store.hasFigures_iff.2 ⟨r, hr, rfl⟩
  have hmem : literal kind ∈ (s.figures.filter fun q => q.trace = r.trace).map (·.kind) :=
    ((Submitted.of_reachable hs).perm_kinds hhas).mem_iff.2 (List.mem_map_of_mem hkind)
  obtain ⟨q, hq, hqkind⟩ := List.mem_map.1 hmem
  rw [List.mem_filter, decide_eq_true_eq] at hq
  obtain ⟨hq, hqtrace⟩ := hq
  have hqset : q.setId = r.setId := (hcoherent.sets q hq r hr hqtrace).1
  obtain ⟨g, hread⟩ := (hcoherent.figures q hq).exists_figure
  obtain ⟨-, hgkind, -, -, hgset, hgtrace, -⟩ := FigureRecord.figure_eq_ok.1 hread
  have hsame : g.kind = kind := literal_injective _ _ (hgkind.symm.trans hqkind)
  obtain ⟨fs, hfs, hmem⟩ := hcoherent.figuresOf r.trace
  obtain ⟨o, ho, hfound⟩ := figure?_eq_ok hs r.setId kind
  have hg : o = some g := (hfound g).2
    ⟨by rw [hgset, hqset], hsame, r.trace, fs, hfs, (hmem g).2 ⟨q, hq, hqtrace, hread⟩⟩
  exact ⟨g, by rw [ho, hg], hgtrace.trans hqtrace⟩

theorem revisedFigure_of_unknown (h : ∀ r ∈ s.figures, r.setId ≠ x) :
    revisedFigure s x f = .error (.figureNotFound x f.kind) := by
  have hnone : s.figure? x f.kind = .ok none :=
    readOptional_eq_ok_none.2 (List.find?_eq_none.2 fun r hr => by simp [h r hr])
  rw [revisedFigure, hnone]
  rfl

theorem revisedFigure_of_other (hs : Reachable s) (hr : r ∈ s.figures) (hother : r.trace ≠ f.trace)
    (hkind : f.kind ∈ FigureKind.inputs) :
    revisedFigure s r.setId f = .error (.invalid [.setOfOtherTrace r.setId]) := by
  obtain ⟨g, hfound, htrace⟩ := exists_figure_of_set hs hr hkind
  rw [revisedFigure, hfound, ok_bind]
  exact if_neg (htrace ▸ hother)

theorem exists_revisedFigure (hs : Reachable s) (hr : r ∈ s.figures) (hsame : r.trace = f.trace)
    (hkind : f.kind ∈ FigureKind.inputs) : ∃ f', revisedFigure s r.setId f = .ok f' := by
  obtain ⟨g, hfound, htrace⟩ := exists_figure_of_set hs hr hkind
  rw [revisedFigure, hfound, ok_bind]
  exact ⟨_, if_pos (htrace.trans hsame)⟩

/-- What a put of an identified set comes down to once it has passed the first checks. -/
theorem putFigures_of_set (hrules : Rules.figures (first :: rest) = [])
    (hpart : s.part? c.caller first.trace = .ok (some part)) (hold : first.setId = some x) :
    putFigures id c.caller (first :: rest) s =
      (first :: rest).mapM (revisedFigure s x) >>= fun revised =>
        .ok (.reviseFigures revised, x) := by
  rw [putFigures, refuse_eq_ok_iff.2 hrules, ok_bind, hpart, ok_bind]
  simp only [hold]

/-- The first figure is refused before the others are looked at. -/
theorem putFigures_of_refused {e : Error} (hrules : Rules.figures (first :: rest) = [])
    (hpart : s.part? c.caller first.trace = .ok (some part)) (hold : first.setId = some x)
    (h : revisedFigure s x first = .error e) :
    putFigures id c.caller (first :: rest) s = .error e := by
  rw [putFigures_of_set hrules hpart hold, List.mapM_cons, h]
  rfl

theorem rewritten_of_ne (h : r.trace ≠ trace) : r.rewritten now trace fs = r := by
  have hnone : (fs.find? fun f => r.trace = trace && r.kind = literal f.kind) = none :=
    List.find?_eq_none.2 fun f _ => by simp [h]
  rw [FigureRecord.rewritten, hnone]

theorem rewritten_of_mem (hrules : Rules.figures fs = []) (hf : f ∈ fs)
    (hkind : r.kind = literal f.kind) :
    r.rewritten now r.trace fs = r.restated now f := by
  have hfound : (fs.find? fun g => r.trace = r.trace && r.kind = literal g.kind) = some f := by
    refine find?_of_unique hf (by simp [hkind]) fun g hg hselected => ?_
    simp only [Bool.and_eq_true, decide_eq_true_eq, true_and] at hselected
    have hsame : g.kind = f.kind := literal_injective _ _ (hselected.symm.trans hkind)
    exact eq_of_key_eq (Rules.nodup_kinds (Rules.kinds_of_figures hrules)) hg hf hsame
  rw [FigureRecord.rewritten, hfound]

/-- Every row of a part has a figure of its kind in a legal set. -/
theorem exists_rewritten (hs : Reachable s) (now : Instant) (hrules : Rules.figures fs = [])
    (hr : r ∈ s.figures) :
    ∃ f ∈ fs, r.kind = literal f.kind ∧
      r.rewritten now r.trace fs = r.restated now f := by
  obtain ⟨kind, hkind, hliteral⟩ := ((Coherent.of_reachable hs).figures r hr).kind
  obtain ⟨f, hf, rfl, -⟩ := Rules.exists_kind_of_kinds (Rules.kinds_of_figures hrules) hkind
  exact ⟨f, hf, hliteral, rewritten_of_mem hrules hf hliteral⟩

/-- A figure that was found makes of a row what the submitted one of its kind makes of it. -/
theorem restated_of_revised {revised : List Figure} (hrules : Rules.figures fs = [])
    (hrevised : fs.mapM (revisedFigure s x) = .ok revised) (hf : f ∈ fs) (hg : g ∈ revised)
    (hkind : g.kind = f.kind) : FigureRecord.restated now g = FigureRecord.restated now f := by
  obtain ⟨e, he, heg⟩ := (mem_of_mapM_eq_ok hrevised).2 g hg
  obtain ⟨-, hkind', hunit, hratingKind, hemission, hrating, -⟩ := revisedFigure_eq_ok heg
  obtain rfl : e = f := eq_of_key_eq (Rules.nodup_kinds (Rules.kinds_of_figures hrules)) he hf
    (hkind'.symm.trans hkind)
  funext r
  simp only [FigureRecord.restated, hunit, hratingKind, hemission, hrating]

/-- Written one after the other the figures that were found leave each row of the set with the
values submitted for its kind. -/
theorem foldl_revised_eq (hs : Reachable s) (hrules : Rules.figures fs = [])
    {revised : List Figure} (hrevised : fs.mapM (revisedFigure s x) = .ok revised)
    (hr : r ∈ s.figures) (hset : r.setId = x) :
    revised.foldl (fun r f => if r.setId = x && r.kind = literal f.kind
      then r.restated now f else r) r = r.rewritten now r.trace fs := by
  obtain ⟨f, hf, hkind, hrewritten⟩ := exists_rewritten hs now hrules hr
  obtain ⟨f', hf', hff'⟩ := (mem_of_mapM_eq_ok hrevised).1 f hf
  have hselected : r.setId = x && r.kind = literal f'.kind := by
    simp [hset, hkind, (revisedFigure_eq_ok hff').2.1]
  have hmake (g : Figure) (hg : g ∈ revised) (hselected : r.setId = x && r.kind = literal g.kind) :
      FigureRecord.restated now g = FigureRecord.restated now f := by
    simp only [Bool.and_eq_true, decide_eq_true_eq] at hselected
    refine restated_of_revised hrules hrevised hf hg ?_
    exact literal_injective _ _ (hselected.2.symm.trans hkind)
  rw [hrewritten]
  refine foldl_eq_of_agree ⟨f', hf', hselected⟩ (fun g hg hselected => ?_)
    fun g hg hselected => ?_
  · rw [hmake g hg hselected]
  · -- A revision keeps the set and the kind of the row.
    rw [hmake g hg hselected]
    rfl

theorem reviseFigures_eq_withRevisedSet (hs : Reachable s) (hrules : Rules.figures fs = [])
    {revised : List Figure} (hr : r ∈ s.figures)
    (hrevised : fs.mapM (revisedFigure s r.setId) = .ok revised) :
    s.reviseFigures now revised = .ok (s.withRevisedSet now r.trace fs) := by
  have hcoherent := Coherent.of_reachable hs
  have hset : ∀ f ∈ revised, f.setId = some r.setId := by
    intro f hf
    obtain ⟨g, -, hg⟩ := (mem_of_mapM_eq_ok hrevised).2 f hf
    exact (revisedFigure_eq_ok hg).1
  obtain ⟨s', hwritten⟩ : ∃ s', s.reviseFigures now revised = .ok s' := Fulfils.reviseFigures hset
  obtain ⟨figures, hfold, rfl⟩ := Store.reviseFigures_eq_ok hwritten
  have hfigures : figures = s.figures.map (FigureRecord.rewritten now r.trace fs) := by
    rw [Store.foldlM_reviseFigure hset hfold, foldl_updateWhere, FigureRecord.revise_eq_restated]
    refine List.map_congr_left fun q hq => ?_
    by_cases hsame : q.setId = r.setId
    · rw [foldl_revised_eq hs hrules hrevised hq hsame, hcoherent.traces q hq r hr hsame]
    · have hother : q.trace ≠ r.trace := fun htrace => hsame (hcoherent.sets q hq r hr htrace).1
      rw [rewritten_of_ne hother]
      exact foldl_eq_self fun f _ hselected => by simp [hsame] at hselected
  rw [hwritten, hfigures, Store.withRevisedSet]

/-- A figure that is read states what its row keeps. -/
theorem carries_of_figure (hs : Reachable s) (hr : r ∈ s.figures) (hread : r.figure = .ok f) :
    r.Carries f := by
  have hhas : s.hasFigures r.trace := Store.hasFigures_iff.2 ⟨r, hr, rfl⟩
  obtain ⟨fs, -, hholds⟩ := (Submitted.of_reachable hs).sets r.trace hhas
  obtain ⟨e, -, hcarries⟩ := hholds.1 r hr rfl
  obtain ⟨hunit, hkind, hratingKind, -, -, -, hemission, hrating⟩ :=
    FigureRecord.figure_eq_ok.1 hread
  refine ⟨hkind, hunit, hratingKind, ?_, ?_⟩
  · rw [hemission, hcarries.emission, map_storedNumber_stored]
  · have hcolumns : (⟨r.technological, r.geographical, r.temporal⟩ : Rating) = e.rating.stored :=
      hcarries.rating
    rw [hcarries.rating, hrating, hcolumns]
    simp only [Rating.stored, map_storedNumber_stored]

/-- A row that has the values already gets a new time only. -/
theorem restated_of_carries (h : r.Carries f) :
    r.restated now f = { r with updatedAt := now } := by
  have hrating := h.rating
  simp only [FigureRecord.rating, Rating.stored, Rating.mk.injEq] at hrating
  obtain ⟨htechnological, hgeographical, htemporal⟩ := hrating
  rw [FigureRecord.restated, ← h.emission, ← h.unit, ← h.ratingKind, ← htechnological,
    ← hgeographical, ← htemporal]

theorem withRevisedSet_again (hs : Reachable s) (hrules : Rules.figures fs = [])
    (hread : s.figuresOf trace = .ok fs) :
    s.withRevisedSet now trace fs =
      { s with
        figures := updateWhere (·.trace = trace) (fun r => { r with updatedAt := now })
          s.figures } := by
  obtain ⟨fs', hread', hmem⟩ := (Coherent.of_reachable hs).figuresOf trace
  cases hread.symm.trans hread'
  have hrows : s.figures.map (FigureRecord.rewritten now trace fs) =
      updateWhere (·.trace = trace) (fun r => { r with updatedAt := now }) s.figures := by
    refine List.map_congr_left fun r hr => ?_
    by_cases htrace : r.trace = trace
    · subst htrace
      obtain ⟨f, hf, hkind, hrewritten⟩ := exists_rewritten hs now hrules hr
      obtain ⟨q, hq, hqtrace, hqread⟩ := (hmem f).1 hf
      have hqkind := (FigureRecord.figure_eq_ok.1 hqread).2.1
      obtain rfl : q = r := eq_of_key_eq (Submitted.of_reachable hs).keys hq hr
        (Prod.ext hqtrace (hqkind.trans hkind.symm))
      rw [hrewritten, restated_of_carries (carries_of_figure hs hq hqread), if_pos (by simp)]
    · rw [rewritten_of_ne htrace, if_neg (by simpa using htrace)]
  rw [Store.withRevisedSet, hrows]

theorem putsOld (hs : Reachable s) (hop : c.op = .putFigures id (first :: rest))
    (hrules : Rules.figures (first :: rest) = []) (hholds : s.holds c.caller first.trace)
    (hold : first.setId = some x) : PutsOld s c x (first :: rest) first := by
  obtain ⟨-, -, -, -, part, hpart, -⟩ := exists_part_of_holds hs hholds
  have hinput {f : Figure} (hf : f ∈ first :: rest) :
      f.trace = first.trace ∧ f.kind ∈ FigureKind.inputs := by
    obtain ⟨htrace, -, -, -, hkind, -⟩ := Rules.shared_of_figures hrules rfl hf
    exact ⟨htrace, hkind⟩
  have hunknown (h : ∀ r ∈ s.figures, r.setId ≠ x) :
      c.served s = (.error (.figureNotFound x first.kind), s) :=
    served_of_error hop (putFigures_of_refused hrules hpart hold (revisedFigure_of_unknown h))
  have hother (h : ∃ r ∈ s.figures, r.setId = x ∧ r.trace ≠ first.trace) :
      c.served s = (.error (.invalid [.setOfOtherTrace x]), s) := by
    obtain ⟨r, hr, rfl, htrace⟩ := h
    exact served_of_error hop (putFigures_of_refused hrules hpart hold
      (revisedFigure_of_other hs hr htrace (hinput List.mem_cons_self).2))
  have hwritten (h : ∃ r ∈ s.figures, r.setId = x ∧ r.trace = first.trace) :
      c.served s = (.ok (.setId x), s.withRevisedSet c.now first.trace (first :: rest)) := by
    obtain ⟨r, hr, rfl, htrace⟩ := h
    obtain ⟨revised, hrevised⟩ :
        ∃ revised, (first :: rest).mapM (revisedFigure s r.setId) = .ok revised :=
      exists_mapM_eq_ok fun f hf =>
        exists_revisedFigure hs hr (htrace.trans (hinput hf).1.symm) (hinput hf).2
    have hplan : putFigures id c.caller (first :: rest) s =
        .ok (.reviseFigures revised, r.setId) := by
      rw [putFigures_of_set hrules hpart hold, hrevised]
      rfl
    rw [← htrace]
    exact served_of_ok hop hplan (reviseFigures_eq_withRevisedSet hs hrules hr hrevised)
  constructor
  case succeeds =>
    refine ⟨fun h => ?_, fun h => succeeds_of_ok (hwritten h)⟩
    by_contra hnone
    by_cases hset : ∃ r ∈ s.figures, r.setId = x
    · obtain ⟨r, hr, hrset⟩ := hset
      have htrace : r.trace ≠ first.trace := fun htrace => hnone ⟨r, hr, hrset, htrace⟩
      exact not_succeeds_of_error (hother ⟨r, hr, hrset, htrace⟩) h
    · have hset : ∀ r ∈ s.figures, r.setId ≠ x := fun r hr hrset => hset ⟨r, hr, hrset⟩
      exact not_succeeds_of_error (hunknown hset) h
  case unknown => exact hunknown
  case other => exact hother
  case written => exact hwritten
  case rows =>
    rintro r hr htrace
    rw [← htrace]
    exact exists_rewritten hs c.now hrules hr
  case again => exact withRevisedSet_again hs hrules

/-- A put of figures, for every caller and all rows, in a reachable store. Rows against the rules are
refused with all that is wrong with them, and so are rows for what is no live part of the caller.
Rows without an identifier succeed if and only if the part has no figures: a new set is added and the
open requests answered with the part are completed. Rows with an identifier succeed if and only if it
is that of the part's set: the values of its rows are replaced. Nothing else changes. -/
theorem put_figures_exact (hs : Reachable s) (hfresh : c.Fresh s) (hop : c.op = .putFigures id fs) :
    (Rules.figures fs ≠ [] → c.served s = (.error (.invalid (Rules.figures fs)), s)) ∧
      (Rules.figures fs = [] → ∃ first, fs.head? = some first ∧
        (s.holds c.caller first.trace = false →
          c.served s = (.error (.partNotFound first.trace), s)) ∧
        (s.holds c.caller first.trace →
          (first.setId = none → PutsNew s c id fs first.trace) ∧
            ∀ x, first.setId = some x → PutsOld s c x fs first)) := by
  refine ⟨fun hrules => served_of_error hop (putFigures_of_rejected hrules), fun hrules => ?_⟩
  obtain ⟨first, hfirst⟩ := Rules.exists_first_of_figures hrules
  obtain ⟨rest, rfl⟩ := List.head?_eq_some_iff.1 hfirst
  refine ⟨first, rfl, fun hhidden => served_of_error hop (putFigures_of_hidden hrules hhidden),
    fun hholds => ⟨fun hnew => ?_, fun x hold => ?_⟩⟩
  · exact putsNew hs hfresh hop hrules hholds hnew
  · exact putsOld hs hop hrules hholds hold

/-- The figures of the sample as they are read once they are registered. -/
def sampleRead : List Figure :=
  (sampleFigures (.v4 20)).map fun f => { f with setId := some (.v4 40) }

def sampleResubmission : Call :=
  { sampleCall ⟨2⟩ (.putFigures (.v4 41) sampleRead) with now := ⟨1, 0⟩ }

/-- The registration of the sample completes the request that waits for it, and to put what is read
afterwards changes nothing but the time of the rows. -/
theorem put_figures_exact_sample :
    sampleRegistration.served sampleAnswered = (.ok (.setId (.v4 40)),
      sampleAnswered.withNewSet ⟨0, 0⟩ (.v4 40) (.v4 20) true (sampleFigures (.v4 20))) ∧
      (∃ q ∈ (sampleRegistration.after sampleAnswered).statuses,
        q.progress = "COMPLETED" ∧ q.tree = "TERMINATED" ∧ q.completedCount = 1 ∧
          q.tradesCount = 1) ∧
      sampleResubmission.served (sampleRegistration.after sampleAnswered) = (.ok (.setId (.v4 40)),
        { sampleRegistration.after sampleAnswered with
          figures := updateWhere (·.trace = .v4 20) (fun r => { r with updatedAt := ⟨1, 0⟩ })
            (sampleRegistration.after sampleAnswered).figures }) := by
  refine ⟨?_, by decide +kernel, ?_⟩
  · have hflag : ∀ r ∈ sampleAnswered.parts, r.trace = .v4 20 → r.terminal = true := by
      decide +kernel
    obtain ⟨-, hlegal⟩ := put_figures_exact reachable_sampleAnswered (c := sampleRegistration)
      (by decide +kernel) rfl
    obtain ⟨first, hfirst, -, hput⟩ := hlegal (by decide +kernel)
    obtain ⟨htrace, hnew⟩ : first.trace = .v4 20 ∧ first.setId = none := by
      cases hfirst
      exact ⟨rfl, rfl⟩
    rw [htrace] at hput
    obtain ⟨part, hpart, hptrace, -, hserved⟩ :=
      ((hput (by decide +kernel)).1 hnew).written (by decide +kernel)
    rw [hflag part hpart hptrace] at hserved
    exact hserved
  · obtain ⟨-, hlegal⟩ := put_figures_exact reachable_sampleRegistration (c := sampleResubmission)
      (by decide +kernel) rfl
    obtain ⟨first, hfirst, -, hput⟩ := hlegal (by decide +kernel)
    obtain ⟨htrace, hold⟩ : first.trace = .v4 20 ∧ first.setId = some (.v4 40) := by
      cases hfirst
      exact ⟨rfl, rfl⟩
    rw [htrace] at hput
    have hputs := (hput (by decide +kernel)).2 (.v4 40) hold
    have hwritten := hputs.written
    have hagain := hputs.again
    rw [htrace] at hwritten hagain
    have hrows : ((sampleRegistration.after sampleAnswered).figures.filter fun r =>
        r.trace = .v4 20).mapM (·.figure) = .ok sampleRead := by decide +kernel
    have hread : (sampleRegistration.after sampleAnswered).figuresOf (.v4 20) = .ok sampleRead := by
      rw [Store.figuresOf, hrows, ok_bind, List.mergeSort_of_pairwise (by decide +kernel)]
    rw [hwritten (by decide +kernel), hagain hread]
    rfl

end Footprint
