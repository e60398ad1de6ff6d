import Footprint.Proofs.Exchange.Reachable
import Footprint.Proofs.Figure.Change

namespace Footprint

open Table Enumerated Exchange

/-- A part and its owner. -/
def PartRecord.owner (r : PartRecord) : Uuid × Uuid :=
  (r.trace, r.operator)

variable {now : Instant} {s s' : Store} {table : List PartRecord} {p : Part} {r : PartRecord}

/-- Owners stay, and a part that is new to the table comes last. -/
theorem owners_writePart :
    (Store.writePart now table p).map PartRecord.owner =
      if table.any fun r => r.trace = p.trace then table.map PartRecord.owner
      else table.map PartRecord.owner ++ [(p.trace, p.operator)] := by
  rw [Store.writePart]
  split
  · refine map_updateWhere fun r hselected => ?_
    have htrace : r.trace = p.trace := by simpa using hselected
    simp [PartRecord.owner, PartRecord.revise, PartRecord.ofPart, htrace]
  · simp [PartRecord.owner, PartRecord.ofPart]

theorem exists_of_writePart (now : Instant) (p : Part) (hr : r ∈ table) :
    ∃ r' ∈ Store.writePart now table p, r'.owner = r.owner ∧ (r.isLive → r'.isLive) := by
  rw [Store.writePart]
  split
  · by_cases hselected : r.trace = p.trace
    · refine ⟨PartRecord.revise now p r, ?_, ?_, fun _ => rfl⟩
      · exact mem_updateWhere.2 (Or.inr ⟨r, hr, by simpa using hselected, rfl⟩)
      · simp [PartRecord.owner, PartRecord.revise, PartRecord.ofPart, hselected]
    · exact ⟨r, mem_updateWhere.2 (Or.inl ⟨hr, by simpa using hselected⟩), rfl, id⟩
  · exact ⟨r, List.mem_append_left _ hr, rfl, id⟩

theorem exists_of_writeParts {ps : List Part} (hr : r ∈ table) :
    ∃ r' ∈ ps.foldl (Store.writePart now) table, r'.owner = r.owner ∧ (r.isLive → r'.isLive) := by
  induction ps generalizing table r with
  | nil => exact ⟨r, hr, rfl, id⟩
  | cons p ps ih =>
    obtain ⟨q, hq, howner, hlive⟩ := exists_of_writePart now p hr
    obtain ⟨r', hr', howner', hlive'⟩ := ih hq
    exact ⟨r', hr', howner'.trans howner, hlive' ∘ hlive⟩

theorem exists_writePart (now : Instant) (table : List PartRecord) (p : Part) :
    ∃ r ∈ Store.writePart now table p, r.trace = p.trace := by
  rw [Store.writePart]
  split
  · rename_i hpresent
    obtain ⟨r, hr, htrace⟩ := List.any_eq_true.1 hpresent
    exact ⟨PartRecord.revise now p r, mem_updateWhere.2 (Or.inr ⟨r, hr, htrace, rfl⟩), rfl⟩
  · exact ⟨PartRecord.ofPart now p, List.mem_append_right _ (List.mem_singleton_self _), rfl⟩

theorem exists_writeParts {ps : List Part} (hp : p ∈ ps) :
    ∃ r ∈ ps.foldl (Store.writePart now) table, r.trace = p.trace := by
  induction ps generalizing table with
  | nil => cases hp
  | cons q ps ih =>
    rcases List.mem_cons.1 hp with rfl | hp
    · obtain ⟨r, hr, htrace⟩ := exists_writePart now table p
      obtain ⟨r', hr', howner, -⟩ := exists_of_writeParts hr
      exact ⟨r', hr', (congrArg Prod.fst howner).trans htrace⟩
    · exact ih hp

/-- Whoever owns a row owned it before or brought the part in. -/
theorem owner_of_writeParts {ps : List Part} (hr : r ∈ ps.foldl (Store.writePart now) table) :
    r.owner ∈ table.map PartRecord.owner ∨ ∃ p ∈ ps, r.owner = (p.trace, p.operator) := by
  induction ps generalizing table with
  | nil => exact Or.inl (List.mem_map_of_mem hr)
  | cons p ps ih =>
    rcases ih hr with howner | ⟨q, hq, howner⟩
    · rw [owners_writePart] at howner
      split at howner
      · exact Or.inl howner
      · rcases List.mem_append.1 howner with howner | howner
        · exact Or.inl howner
        · exact Or.inr ⟨p, by simp, List.mem_singleton.1 howner⟩
    · exact Or.inr ⟨q, by simp [hq], howner⟩

theorem live_writeParts {ps : List Part} {trace : Uuid} :
    (∃ r ∈ ps.foldl (Store.writePart now) table, r.trace = trace ∧ r.isLive) ↔
      (∃ r ∈ table, r.trace = trace ∧ r.isLive) ∨ ∃ p ∈ ps, p.trace = trace := by
  constructor
  · rintro ⟨r, hr, rfl, hlive⟩
    rcases mem_writeParts hr with ⟨hr, -⟩ | ⟨p, hp, q, rfl⟩
    · exact Or.inl ⟨r, hr, rfl, hlive⟩
    · exact Or.inr ⟨p, hp, rfl⟩
  · rintro (⟨r, hr, rfl, hlive⟩ | ⟨p, hp, rfl⟩)
    · obtain ⟨r', hr', howner, hlive'⟩ := exists_of_writeParts hr
      exact ⟨r', hr', congrArg Prod.fst howner, hlive' hlive⟩
    · obtain ⟨r, hr, htrace⟩ := exists_writeParts hp
      refine ⟨r, hr, htrace, ?_⟩
      rcases mem_writeParts hr with ⟨-, hothers⟩ | ⟨q, -, q', rfl⟩
      · exact absurd htrace.symm (hothers p hp)
      · rfl

theorem nodup_writePart (h : (table.map (·.trace)).Nodup) :
    ((Store.writePart now table p).map (·.trace)).Nodup := by
  rw [Store.writePart]
  split
  · have htraces : (updateWhere (fun r => r.trace = p.trace) (PartRecord.revise now p) table).map
        (·.trace) = table.map (·.trace) :=
      map_updateWhere fun r hselected => (of_decide_eq_true hselected).symm
    rwa [htraces]
  · rename_i hnew
    refine nodup_map_append h fun q hq htrace => hnew ?_
    exact List.any_eq_true.2 ⟨q, hq, decide_eq_true htrace⟩

theorem nodup_writeParts {ps : List Part} (h : (table.map (·.trace)).Nodup) :
    ((ps.foldl (Store.writePart now) table).map (·.trace)).Nodup := by
  induction ps generalizing table with
  | nil => exact h
  | cons p ps ih => exact ih (nodup_writePart h)

/-- Rows that are told apart from all parts that are written, whatever is written to them. -/
theorem filter_writeParts {ps : List Part} {keep : PartRecord → Bool}
    (hkeep : ∀ p r, r.trace = p.trace → keep (PartRecord.revise now p r) = keep r)
    (h : ∀ p ∈ ps, keep (PartRecord.ofPart now p) = false ∧
      ∀ r ∈ table, r.trace = p.trace → keep r = false) :
    (ps.foldl (Store.writePart now) table).filter keep = table.filter keep := by
  induction ps generalizing table with
  | nil => rfl
  | cons p ps ih =>
    obtain ⟨⟨hp, htable⟩, hps⟩ := List.forall_mem_cons.1 h
    have hstep : (Store.writePart now table p).filter keep = table.filter keep := by
      rw [Store.writePart]
      split
      · refine filter_updateWhere_eq fun r hr hselected => ?_
        have htrace : r.trace = p.trace := of_decide_eq_true hselected
        have hother := htable r hr htrace
        exact ⟨hother, (hkeep p r htrace).trans hother⟩
      · refine filter_append_eq fun r hr => ?_
        rw [List.mem_singleton.1 hr]
        exact hp
    rw [List.foldl_cons, ih, hstep]
    refine fun q hq => ⟨(hps q hq).1, fun r hr htrace => ?_⟩
    rw [Bool.eq_false_iff]
    intro hkept
    -- A row that is kept was in the table before.
    have hrow : r ∈ table.filter keep := by
      rw [← hstep]
      exact List.mem_filter.2 ⟨hr, hkept⟩
    rw [(hps q hq).2 r (List.mem_filter.1 hrow).1 htrace] at hkept
    cases hkept

theorem owners_dropParts {author : Uuid} {removed : List Uuid} :
    (s.dropParts now author removed).parts.map PartRecord.owner = s.parts.map PartRecord.owner :=
  map_updateWhere fun _ _ => rfl

theorem mem_dropParts {author : Uuid} {removed : List Uuid} (hr : r ∈ s.parts)
    (hkept : r.trace ∉ removed) : r ∈ (s.dropParts now author removed).parts :=
  mem_updateWhere.2 (Or.inl ⟨hr, by simpa using hkept⟩)

theorem live_dropParts {author : Uuid} {removed : List Uuid} {trace : Uuid} :
    (∃ r ∈ (s.dropParts now author removed).parts, r.trace = trace ∧ r.isLive) ↔
      (∃ r ∈ s.parts, r.trace = trace ∧ r.isLive) ∧ trace ∉ removed := by
  constructor
  · rintro ⟨r, hr, rfl, hlive⟩
    rcases mem_updateWhere.1 hr with ⟨hr, hkept⟩ | ⟨q, -, -, rfl⟩
    · exact ⟨⟨r, hr, rfl, hlive⟩, by simpa using hkept⟩
    · cases hlive
  · rintro ⟨⟨r, hr, rfl, hlive⟩, hkept⟩
    exact ⟨r, mem_dropParts hr hkept, rfl, hlive⟩

/-- Dropping a part leaves its flag and its amount alone. -/
theorem exists_of_mem_dropParts {author : Uuid} {removed : List Uuid}
    (hr : r ∈ (s.dropParts now author removed).parts) :
    ∃ q ∈ s.parts, q.trace = r.trace ∧ q.terminal = r.terminal ∧ q.amount = r.amount ∧
      q.amountUnit = r.amountUnit := by
  rcases mem_updateWhere.1 hr with ⟨hr, -⟩ | ⟨q, hq, -, rfl⟩
  · exact ⟨r, hr, rfl, rfl, rfl, rfl⟩
  · exact ⟨q, hq, rfl, rfl, rfl, rfl⟩

variable {limits : TextLimits} {caller : Uuid} {op : Operation} {reply : Reply}

/-- An operation drops some parts in no live trade, with their figures, and keeps all others. -/
theorem parts_of_accepted (h : Accepted limits now caller s op reply s') :
    ∃ removed : List Uuid, (∀ trace ∈ removed, isTraded s trace = false) ∧
      (∀ trace ∈ removed, s'.hasFigures trace = false) ∧
      ∀ r ∈ s.parts, r.trace ∉ removed →
        ∃ r' ∈ s'.parts, r'.owner = r.owner ∧ (r.isLive → r'.isLive) := by
  have hkept (hparts : s'.parts = s.parts) :
      ∃ removed : List Uuid, (∀ trace ∈ removed, isTraded s trace = false) ∧
        (∀ trace ∈ removed, s'.hasFigures trace = false) ∧
        ∀ r ∈ s.parts, r.trace ∉ removed →
          ∃ r' ∈ s'.parts, r'.owner = r.owner ∧ (r.isLive → r'.isLive) :=
    ⟨[], by simp, by simp, fun r hr _ => ⟨r, hparts ▸ hr, rfl, id⟩⟩
  cases figureChange_of_accepted h with
  | kept _ hparts _ => exact hkept hparts
  | @dropped author removed ps _ huntraded hparts hfigures =>
    refine ⟨removed, huntraded, fun trace htrace => ?_, fun r hr hr' => ?_⟩
    · rw [Bool.eq_false_iff]
      exact fun hhas => ((Store.hasFigures_deleteWhere hfigures).1 hhas).2 htrace
    · rw [hparts]
      exact exists_of_writeParts (mem_dropParts hr hr')
  | registered _ _ _ _ _ hparts _ => exact hkept hparts
  | revised _ _ _ _ hwritten =>
    obtain ⟨figures, -, rfl⟩ := Store.reviseFigures_eq_ok hwritten
    exact hkept rfl
  | certified _ hwritten =>
    subst hwritten
    exact hkept rfl

/-- A traded part stays live with its owner. -/
theorem traded_part_kept (h : Accepted limits now caller s op reply s') {trace operator : Uuid}
    (htraded : isTraded s trace)
    (hr : ∃ r ∈ s.parts, r.trace = trace ∧ r.isLive ∧ r.operator = operator) :
    ∃ r ∈ s'.parts, r.trace = trace ∧ r.isLive ∧ r.operator = operator := by
  obtain ⟨removed, huntraded, -, hkept⟩ := parts_of_accepted h
  obtain ⟨r, hr, rfl, hlive, rfl⟩ := hr
  have hremoved : r.trace ∉ removed := fun hmem => by
    rw [huntraded _ hmem] at htraded
    cases htraded
  obtain ⟨r', hr', howner, hstill⟩ := hkept r hr hremoved
  exact ⟨r', hr', congrArg Prod.fst howner, hstill hlive, congrArg Prod.snd howner⟩

theorem parts_of_answer {trade trace : Uuid}
    (h : Accepted limits now caller s (.answer trade trace) reply s') :
    s'.parts = s.parts ∧ ∃ part, s.part? caller trace = .ok (some part) := by
  cases h with
  | answer _ _ _ _ howned _ hwritten =>
    obtain ⟨-, rfl⟩ := Store.reviseWith_eq_ok.1 hwritten
    exact ⟨rfl, _, howned⟩

theorem parts_of_request {tradeId statusId : Uuid} {r : TradeRequest}
    (h : Accepted limits now caller s (.putRequest tradeId statusId r) reply s') :
    s'.parts = s.parts := by
  cases h with
  | openRequest => rfl
  | reviseRequest _ _ _ _ _ _ _ _ hwritten =>
    obtain ⟨-, rfl⟩ := Store.reviseWith_eq_ok.1 hwritten
    rfl

/-- Figures are registered by the owner of their part. -/
theorem owned_of_registers (h : Accepted limits now caller s op reply s') {trace : Uuid}
    (hregisters : op.registers = some trace) :
    ∃ r ∈ s.parts, r.trace = trace ∧ r.isLive ∧ r.operator = caller := by
  have hnone : op.registers ≠ none := by simp [hregisters]
  cases h with
  | @registerFigures id fs first part completed _ hhead hnew howned =>
    obtain ⟨rest, rfl⟩ := List.head?_eq_some_iff.1 hhead
    have htrace : first.trace = trace := by simpa [Operation.registers, hnew] using hregisters
    obtain ⟨r, hr, hr', hoperator, hlive, -⟩ := Store.part?_eq_some howned
    exact ⟨r, hr, hr'.trans htrace, hlive, hoperator⟩
  | @reviseFigures id fs first part setId revised _ _ hhead hold =>
    obtain ⟨rest, rfl⟩ := List.head?_eq_some_iff.1 hhead
    simp [Operation.registers, hold] at hregisters
  | _ => exact absurd rfl hnone

/-- No two rows are for one part. -/
theorem nodup_parts (h : Reachable s) : (s.parts.map (·.trace)).Nodup := by
  refine h.induct (P := fun s => (s.parts.map (·.trace)).Nodup) List.nodup_nil ?_
  intro s s' reply c _ _ ih haccepted
  cases figureChange_of_accepted haccepted with
  | kept _ hparts _ => rwa [hparts]
  | @dropped author removed ps _ _ hparts _ =>
    rw [hparts]
    refine nodup_writeParts ?_
    have htraces : (s.dropParts c.now author removed).parts.map (·.trace) = s.parts.map (·.trace) :=
      map_updateWhere fun _ _ => rfl
    rwa [htraces]
  | registered _ _ _ _ _ hparts _ => rwa [hparts]
  | revised _ _ _ _ hwritten =>
    obtain ⟨figures, -, rfl⟩ := Store.reviseFigures_eq_ok hwritten
    exact ih
  | certified _ hwritten =>
    subst hwritten
    exact ih

/-- In a reachable store figures belong to live parts. -/
theorem live_part_of_figures (h : Reachable s) {trace : Uuid} (hfigures : s.hasFigures trace) :
    ∃ r ∈ s.parts, r.trace = trace ∧ r.isLive := by
  refine h.induct (P := fun s => ∀ trace, s.hasFigures trace →
    ∃ r ∈ s.parts, r.trace = trace ∧ r.isLive) ?_ ?_ trace hfigures
  · simp [Store.hasFigures, Store.empty]
  · intro s s' reply c _ _ ih haccepted trace hfigures
    obtain ⟨removed, -, hgone, hkept⟩ := parts_of_accepted haccepted
    have hremoved : trace ∉ removed := fun hmem => by
      rw [hgone trace hmem] at hfigures
      cases hfigures
    obtain ⟨_, -, hhas⟩ := hasFigures_of_accepted haccepted
    have hbefore : ∃ r ∈ s.parts, r.trace = trace ∧ r.isLive := by
      rcases (hhas trace).1 hfigures with hregisters | ⟨hold, -⟩
      · obtain ⟨r, hr, htrace, hlive, -⟩ := owned_of_registers haccepted hregisters
        exact ⟨r, hr, htrace, hlive⟩
      · exact ih trace hold
    obtain ⟨r, hr, rfl, hlive⟩ := hbefore
    obtain ⟨r', hr', howner, hlive'⟩ := hkept r hr hremoved
    exact ⟨r', hr', congrArg Prod.fst howner, hlive' hlive⟩

end Footprint
