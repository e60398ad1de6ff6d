import Footprint.Proofs.Store.Reading
import Footprint.Proofs.Table

namespace Footprint

open Table Enumerated

/-- An open request of the trade. -/
def StatusRecord.isOpenFor (trade : Uuid) (r : StatusRecord) : Bool :=
  r.trade = trade && r.isPending

/-- The status of a request that is brought to an end with a reply. -/
def StatusRecord.ended (now : Instant) (author : Uuid) (progress : Progress)
    (reply : Option String) (r : StatusRecord) : StatusRecord :=
  { r with progress := literal progress, reply := reply, updatedAt := now, updatedBy := author }

namespace Store

variable {s s' : Store} {now : Instant}

theorem endRequest_eq_ok {author trade : Uuid} {progress : Progress} {event : Event}
    {reply : Option String} :
    s.endRequest now author trade progress event reply = .ok s' ↔
      (∃ r ∈ s.statuses, r.isOpenFor trade) ∧
      s' =
        { s with
          statuses := updateWhere (StatusRecord.isOpenFor trade)
            (StatusRecord.ended now author progress reply) s.statuses } := by
  simp only [endRequest]
  rw [← List.any_eq_true]
  split
  · rename_i h
    simp only [Except.ok.injEq, eq_comm (a := s')]
    exact ⟨fun he => ⟨h, he⟩, fun he => he.2⟩
  · rename_i h
    simp only [reduceCtorEq, false_iff, not_and]
    exact fun h' => absurd h' h

theorem reviseWith_eq_ok {author trade : Uuid} {status : Status} {event : Event}
    {trades : List TradeRecord} {statuses : List StatusRecord} :
    s.reviseWith now author trade status event trades statuses = .ok s' ↔
      (∃ r ∈ statuses, awaits status.id r) ∧
      s' =
        { s with
          trades := trades
          statuses := reviseStatus now (some author) statuses status } := by
  simp only [reviseWith]
  rw [← List.any_eq_true]
  split
  · rename_i h
    simp only [Except.ok.injEq, eq_comm (a := s')]
    exact ⟨fun he => ⟨h, he⟩, fun he => he.2⟩
  · rename_i h
    simp only [reduceCtorEq, false_iff, not_and]
    exact fun h' => absurd h' h

theorem endRequest_eq_error {author trade : Uuid} {progress : Progress} {event : Event}
    {reply : Option String} (h : ¬ ∃ r ∈ s.statuses, r.isOpenFor trade) :
    s.endRequest now author trade progress event reply =
      .error (whyClosed s.statuses trade event) := by
  rw [← List.any_eq_true] at h
  exact if_neg h

theorem reviseWith_eq_error {author trade : Uuid} {status : Status} {event : Event}
    {trades : List TradeRecord} {statuses : List StatusRecord}
    (h : ¬ ∃ r ∈ statuses, awaits status.id r) :
    s.reviseWith now author trade status event trades statuses =
      .error (whyClosed statuses trade event) := by
  rw [← List.any_eq_true] at h
  exact if_neg h

/-- The status that is written belongs to the new trade or to one that was there before. -/
theorem openTrade_eq_ok_iff {t : Trade} {status : Status} {author : Uuid} :
    s.openTrade now t status author = .ok s' ↔
      (∀ r ∈ s.trades, r.id ≠ t.id) ∧ (∀ r ∈ s.statuses, r.id ≠ status.id) ∧
      (t.id = status.trade ∨ ∃ r ∈ s.trades, r.id = status.trade) ∧
      s' =
        { s with
          trades := s.trades ++ [TradeRecord.ofTrade now author t]
          statuses := s.statuses ++ [StatusRecord.ofStatus now author t status] } := by
  have hkey : (TradeRecord.ofTrade now author t).id = t.id := rfl
  have hkey' : (StatusRecord.ofStatus now author t status).id = status.id := rfl
  have hany : (s.trades ++ [TradeRecord.ofTrade now author t]).any
      (fun r => r.id = status.trade) ↔
        t.id = status.trade ∨ ∃ r ∈ s.trades, r.id = status.trade := by
    simp [hkey, or_comm]
  constructor
  · intro h
    simp only [openTrade] at h
    split at h
    · rename_i trades statuses ht hs
      split at h
      · rename_i hknown
        cases h
        obtain ⟨hno, rfl⟩ := insertAll_singleton_eq_some.1 ht
        obtain ⟨hno', rfl⟩ := insertAll_singleton_eq_some.1 hs
        exact ⟨fun r hr => by simpa [hkey] using hno r hr,
          fun r hr => by simpa [hkey'] using hno' r hr, hany.1 hknown, rfl⟩
      · cases h
    · cases h
  · rintro ⟨hno, hno', hknown, rfl⟩
    have ht : insertAll (fun r q => q.id = r.id) s.trades [TradeRecord.ofTrade now author t] =
        some (s.trades ++ [TradeRecord.ofTrade now author t]) :=
      insertAll_singleton_eq_some.2 ⟨fun r hr => by simpa [hkey] using hno r hr, rfl⟩
    have hs : insertAll (fun r q => q.id = r.id) s.statuses
        [StatusRecord.ofStatus now author t status] =
        some (s.statuses ++ [StatusRecord.ofStatus now author t status]) :=
      insertAll_singleton_eq_some.2 ⟨fun r hr => by simpa [hkey'] using hno' r hr, rfl⟩
    simp only [openTrade, ht, hs, hany.2 hknown, if_true]

theorem openTrade_eq_ok {t : Trade} {status : Status} {author : Uuid}
    (htrade : status.trade = t.id) :
    s.openTrade now t status author = .ok s' ↔
      (∀ r ∈ s.trades, r.id ≠ t.id) ∧ (∀ r ∈ s.statuses, r.id ≠ status.id) ∧
      s' =
        { s with
          trades := s.trades ++ [TradeRecord.ofTrade now author t]
          statuses := s.statuses ++ [StatusRecord.ofStatus now author t status] } := by
  rw [openTrade_eq_ok_iff]
  simp only [htrade, true_or, true_and]

/-- The figures of a set are kept under its identifier whatever they carried. -/
theorem mapM_recordOf {id : Uuid} (fs : List Figure) :
    (fs.map fun f => { f with setId := some id }).mapM (recordOf now) =
      .ok (fs.map (FigureRecord.ofFigure now id)) := by
  rw [mapM_eq_ok_iff, List.forall₂_map_left_iff, List.forall₂_map_right_iff, List.forall₂_same]
  intro f _
  rfl

theorem addFigures_eq_ok {id : Uuid} {fs : List Figure} {completed : List Status} (hne : fs ≠ []) :
    s.addFigures now (fs.map fun f => { f with setId := some id }) completed = .ok s' ↔
      insertAll FigureRecord.clash s.figures (fs.map (FigureRecord.ofFigure now id)) =
        some (s.figures ++ fs.map (FigureRecord.ofFigure now id)) ∧
      s' =
        { s with
          figures := s.figures ++ fs.map (FigureRecord.ofFigure now id)
          statuses := completed.foldl (reviseStatus now none) s.statuses } := by
  rw [addFigures, mapM_recordOf, bind_eq_ok]
  cases fs with
  | nil => exact absurd rfl hne
  | cons f fs =>
    simp only [Except.ok.injEq, List.map_cons, exists_eq_left']
    split
    · rename_i figures h
      obtain rfl := eq_append_of_insertAll h
      simp [h, eq_comm]
    · rename_i h
      simp [h]

theorem reviseFigures_eq_ok {fs : List Figure} (h : s.reviseFigures now fs = .ok s') :
    ∃ figures, fs.foldlM (reviseFigure now) s.figures = .ok figures ∧
      s' = { s with figures := figures } := by
  obtain ⟨figures, hfigures, h⟩ := bind_eq_ok.1 h
  cases h
  exact ⟨figures, hfigures, rfl⟩

/-- Figures of one set are written one after the other. -/
theorem foldlM_reviseFigure {setId : Uuid} {fs : List Figure} {table table' : List FigureRecord}
    (hset : ∀ f ∈ fs, f.setId = some setId)
    (h : fs.foldlM (reviseFigure now) table = .ok table') :
    table' = fs.foldl (fun table f =>
      updateWhere (fun r => r.setId = setId && r.kind = literal f.kind)
        (FigureRecord.revise now f) table) table := by
  induction fs generalizing table with
  | nil =>
    cases h
    rfl
  | cons f fs ih =>
    rw [List.foldlM_cons] at h
    obtain ⟨table'', hf, h⟩ := bind_eq_ok.1 h
    rw [reviseFigure, hset f (by simp)] at hf
    cases hf
    exact ih (fun f hf => hset f (by simp [hf])) h

/-- Columns that a revision leaves alone. -/
theorem map_reviseFigures {β : Type} {key : FigureRecord → β} {fs : List Figure}
    {table table' : List FigureRecord} (hkey : ∀ f r, key (FigureRecord.revise now f r) = key r)
    (h : fs.foldlM (reviseFigure now) table = .ok table') : table'.map key = table.map key := by
  induction fs generalizing table with
  | nil =>
    cases h
    rfl
  | cons f fs ih =>
    rw [List.foldlM_cons] at h
    obtain ⟨table'', hf, h⟩ := bind_eq_ok.1 h
    rw [ih h]
    rw [reviseFigure] at hf
    split at hf
    · cases hf
      exact map_updateWhere fun r _ => hkey f r
    · cases hf

theorem putAssembly_eq_ok {a : Assembly} {removed : List Uuid}
    (h : s.putAssembly now a removed = .ok s') :
    s'.trades = s.trades ∧ s'.statuses = s.statuses ∧
      s'.figures = deleteWhere (fun r => removed.contains r.trace) s.figures ∧
      s'.parts = a.parts.foldl (writePart now) (s.dropParts now a.parent.operator removed).parts ∧
      insertAll (fun r q => q.trace = r.trace)
        (deleteWhere (fun r => r.parent = a.parent.trace || r.trace = a.parent.trace)
          (s.dropParts now a.parent.operator removed).placements) (placementsOf now a) =
        some s'.placements := by
  simp only [putAssembly] at h
  split at h
  · rename_i placements hp
    cases h
    exact ⟨rfl, rfl, rfl, rfl, hp⟩
  · cases h

theorem hasFigures_deleteWhere {removed : List Uuid} {trace : Uuid}
    (hs : s'.figures = deleteWhere (fun r => removed.contains r.trace) s.figures) :
    s'.hasFigures trace ↔ s.hasFigures trace ∧ trace ∉ removed := by
  simp only [hasFigures_iff, hs, mem_deleteWhere, List.contains_eq_mem, decide_eq_false_iff_not]
  constructor
  · rintro ⟨r, ⟨hr, hn⟩, rfl⟩
    exact ⟨⟨r, hr, rfl⟩, hn⟩
  · rintro ⟨⟨r, hr, rfl⟩, hn⟩
    exact ⟨r, ⟨hr, hn⟩, rfl⟩

end Store

variable {now : Instant} {table : List PartRecord} {p : Part} {r : PartRecord}

theorem mem_writePart (hr : r ∈ Store.writePart now table p) :
    (r ∈ table ∧ r.trace ≠ p.trace) ∨ ∃ q, r = PartRecord.revise now p q := by
  rw [Store.writePart] at hr
  split at hr
  · rcases mem_updateWhere.1 hr with ⟨hr, hother⟩ | ⟨q, -, -, rfl⟩
    · exact Or.inl ⟨hr, of_decide_eq_false hother⟩
    · exact Or.inr ⟨q, rfl⟩
  · rename_i hnew
    rcases List.mem_append.1 hr with hr | hr
    · exact Or.inl ⟨hr, fun htrace =>
        hnew (List.any_eq_true.2 ⟨r, hr, decide_eq_true htrace⟩)⟩
    · exact Or.inr ⟨PartRecord.ofPart now p, List.mem_singleton.1 hr⟩

/-- A row is as before, or it is that of the part that was written last. -/
theorem mem_writeParts {ps : List Part} (hr : r ∈ ps.foldl (Store.writePart now) table) :
    (r ∈ table ∧ ∀ p ∈ ps, p.trace ≠ r.trace) ∨
      ∃ p ∈ ps, ∃ q, r = PartRecord.revise now p q := by
  induction ps generalizing table with
  | nil => exact Or.inl ⟨hr, by simp⟩
  | cons p ps ih =>
    rcases ih hr with ⟨hr, hothers⟩ | ⟨q, hq, hwritten⟩
    · rcases mem_writePart hr with ⟨hr, hother⟩ | hwritten
      · exact Or.inl ⟨hr, List.forall_mem_cons.2 ⟨Ne.symm hother, hothers⟩⟩
      · exact Or.inr ⟨p, List.mem_cons_self, hwritten⟩
    · exact Or.inr ⟨q, List.mem_cons_of_mem _ hq, hwritten⟩

end Footprint
