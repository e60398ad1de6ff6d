import Footprint.Proofs.Store.Reading
import Footprint.Proofs.Table
import Mathlib.Data.List.Perm.Basic

namespace Footprint

open Table

/-- The parts of those traces that have a row in the pool, in the order of the traces. -/
structure InOrder (traces : List Uuid) (pool : List PartRecord) (ps : List Part) : Prop where
  order : ps.map (·.trace) = traces.filter (· ∈ pool.map (·.trace))
  rows : ∀ p ∈ ps, ∃ r ∈ pool, r.part = .ok p

variable {traces : List Uuid} {pool pool' rows : List PartRecord} {r r' : PartRecord}
variable {p q : Part} {ps qs : List Part}

/-- Which row fills the gap does not matter to what is left. -/
theorem perm_swapRemove {α : Type} {rows : List α} {index : Nat} {q : α}
    (h : rows[index]? = some q) : (q :: Store.swapRemove rows index).Perm rows := by
  obtain ⟨front, last, rfl⟩ := (List.eq_nil_or_concat' rows).resolve_left (by rintro rfl; cases h)
  obtain ⟨hindex, hq⟩ := List.getElem?_eq_some_iff.1 h
  simp only [Store.swapRemove, List.getLast?_append, List.getLast?_singleton, Option.some_or,
    List.dropLast_concat]
  split
  · rename_i hend
    have hlast : index = front.length := by simpa using hend
    rw [hlast, List.getElem?_concat_length] at h
    rw [← Option.some.inj h]
    exact (List.perm_append_singleton last front).symm
  · rename_i hinner
    simp only [List.length_append, List.length_singleton] at hindex hinner
    have hfront : index < front.length := by omega
    rw [List.getElem_append_left hfront] at hq
    calc
      (q :: front.set index last).Perm (q :: last :: front.eraseIdx index) :=
        (List.set_perm_cons_eraseIdx hfront last).cons q
      List.Perm _ (last :: q :: front.eraseIdx index) := List.Perm.swap last q _
      List.Perm _ (last :: front) := (hq ▸ List.getElem_cons_eraseIdx_perm hfront).cons last
      List.Perm _ (front ++ [last]) := (List.perm_append_singleton last front).symm

/-- A trace without a row is passed over; for any other, one of its rows leaves the pool. -/
theorem arrange_cons_cases (trace : Uuid) (traces : List Uuid) (pool : List PartRecord) :
    ((∀ r ∈ pool, r.trace ≠ trace) ∧
        Store.arrange (trace :: traces) pool = Store.arrange traces pool) ∨
      ∃ r rest, r.trace = trace ∧ (r :: rest).Perm pool ∧
        Store.arrange (trace :: traces) pool = r :: Store.arrange traces rest := by
  rw [Store.arrange]
  cases hfind : pool.findIdx? fun r => r.trace = trace with
  | none => exact Or.inl ⟨fun r hr => by simpa using List.findIdx?_eq_none_iff.1 hfind r hr, rfl⟩
  | some index =>
    obtain ⟨hindex, hfound, -⟩ := List.findIdx?_eq_some_iff_getElem.1 hfind
    have hget : pool[index]? = some pool[index] := List.getElem?_eq_getElem hindex
    refine Or.inr ⟨pool[index], _, of_decide_eq_true hfound, perm_swapRemove hget, ?_⟩
    simp only [hget, Option.toList_some, List.cons_append, List.nil_append]

theorem mem_of_mem_arrange (h : r ∈ Store.arrange traces pool) : r ∈ pool := by
  induction traces generalizing pool with
  | nil => cases h
  | cons trace traces ih =>
    rcases arrange_cons_cases trace traces pool with ⟨-, harrange⟩ | ⟨q, rest, -, hperm, harrange⟩
    · exact ih (harrange ▸ h)
    · rw [harrange] at h
      rcases List.mem_cons.1 h with rfl | h
      · exact hperm.mem_iff.1 List.mem_cons_self
      · exact hperm.mem_iff.1 (List.mem_cons_of_mem q (ih h))

/-- No trace is passed over that has a row. -/
theorem exists_mem_arrange (htrace : r.trace ∈ traces) (hr : r ∈ pool) :
    ∃ r' ∈ Store.arrange traces pool, r'.trace = r.trace := by
  induction traces generalizing pool with
  | nil => cases htrace
  | cons trace traces ih =>
    rcases arrange_cons_cases trace traces pool with
      ⟨hnone, harrange⟩ | ⟨q, rest, hqtrace, hperm, harrange⟩
    · rw [harrange]
      exact ih (List.mem_of_ne_of_mem (hnone r hr) htrace) hr
    · rw [harrange]
      by_cases hhere : r.trace = trace
      · exact ⟨q, List.mem_cons_self, hqtrace.trans hhere.symm⟩
      · have hother : r ≠ q := fun heq => hhere (heq ▸ hqtrace)
        have hleft : r ∈ rest := List.mem_of_ne_of_mem hother (hperm.mem_iff.2 hr)
        obtain ⟨r', hr', htrace'⟩ := ih (List.mem_of_ne_of_mem hhere htrace) hleft
        exact ⟨r', List.mem_cons_of_mem q hr', htrace'⟩

theorem map_trace_arrange (htraces : traces.Nodup) :
    (Store.arrange traces pool).map (·.trace) = traces.filter (· ∈ pool.map (·.trace)) := by
  induction traces generalizing pool with
  | nil => rfl
  | cons trace traces ih =>
    obtain ⟨hother, hlater⟩ := List.nodup_cons.1 htraces
    rcases arrange_cons_cases trace traces pool with
      ⟨hnone, harrange⟩ | ⟨q, rest, rfl, hperm, harrange⟩
    · have hmissing : trace ∉ pool.map (·.trace) := fun hmem =>
        let ⟨r, hr, htrace⟩ := List.mem_map.1 hmem
        hnone r hr htrace
      rw [harrange, ih hlater, List.filter_cons_of_neg (by simpa using hmissing)]
    · have hkeys : (q.trace :: rest.map (·.trace)).Perm (pool.map (·.trace)) := hperm.map _
      have hfound : q.trace ∈ pool.map (·.trace) := hkeys.mem_iff.1 List.mem_cons_self
      -- The traces that follow differ from the one placed, so their rows are still in the pool.
      have hrest : ∀ trace ∈ traces,
          trace ∈ rest.map (·.trace) ↔ trace ∈ pool.map (·.trace) := by
        intro trace htrace
        have hne : trace ≠ q.trace := fun heq => hother (heq ▸ htrace)
        rw [← hkeys.mem_iff, List.mem_cons, or_iff_right hne]
      rw [harrange, List.map_cons, ih hlater, List.filter_cons_of_pos (by simpa using hfound)]
      exact congrArg _ <| List.filter_congr fun trace htrace =>
        decide_eq_decide.2 (hrest trace htrace)

theorem mem_arrange_iff (htraces : traces.Nodup) (hpool : (pool.map (·.trace)).Nodup) :
    r ∈ Store.arrange traces pool ↔ r ∈ pool ∧ r.trace ∈ traces := by
  constructor
  · intro hr
    have htrace : r.trace ∈ (Store.arrange traces pool).map (·.trace) := List.mem_map_of_mem hr
    rw [map_trace_arrange htraces] at htrace
    exact ⟨mem_of_mem_arrange hr, (List.mem_filter.1 htrace).1⟩
  · rintro ⟨hr, htrace⟩
    obtain ⟨r', hr', hsame⟩ := exists_mem_arrange htrace hr
    rwa [← eq_of_key_eq hpool (mem_of_mem_arrange hr') hr hsame]

/-- Rows with different traces are told apart by these, so the order in the pool does not show. -/
theorem arrange_eq_of_perm (htraces : traces.Nodup) (hpool : (pool.map (·.trace)).Nodup)
    (hperm : pool'.Perm pool) : Store.arrange traces pool' = Store.arrange traces pool := by
  refine eq_of_map_key_eq (fun r hr q hq htrace => eq_of_key_eq hpool
    (hperm.mem_iff.1 (mem_of_mem_arrange hr)) (mem_of_mem_arrange hq) htrace) ?_
  rw [map_trace_arrange htraces, map_trace_arrange htraces]
  exact List.filter_congr fun trace _ => decide_eq_decide.2 (hperm.map _).mem_iff

theorem map_trace_of_read (h : rows.mapM (·.part) = .ok ps) :
    ps.map (·.trace) = rows.map (·.trace) := by
  have hread : List.Forall₂ (fun r p => r.part = .ok p) rows ps := mapM_eq_ok_iff.1 h
  rw [← List.forall₂_eq_eq_eq, List.forall₂_map_left_iff, List.forall₂_map_right_iff]
  exact hread.flip.imp fun _ _ hpart => (PartRecord.part_eq_ok.1 hpart).1

theorem inOrder_of_arrange (htraces : traces.Nodup)
    (h : (Store.arrange traces pool).mapM (·.part) = .ok ps) : InOrder traces pool ps where
  order := (map_trace_of_read h).trans (map_trace_arrange htraces)
  rows p hp := by
    obtain ⟨r, hr, hread⟩ := (mem_of_mapM_eq_ok h).2 p hp
    exact ⟨r, mem_of_mem_arrange hr, hread⟩

/-- One part is read for a trace. -/
theorem part_eq_of_trace_eq (hpool : (pool.map (·.trace)).Nodup) (hr : r ∈ pool) (hr' : r' ∈ pool)
    (hread : r.part = .ok p) (hread' : r'.part = .ok q) (htrace : p.trace = q.trace) : p = q := by
  have hsame : r.trace = r'.trace := (PartRecord.part_eq_ok.1 hread).1.symm.trans
    (htrace.trans (PartRecord.part_eq_ok.1 hread').1)
  rw [eq_of_key_eq hpool hr hr' hsame] at hread
  exact Except.ok.inj (hread.symm.trans hread')

/-- There is one list of parts in order. -/
theorem InOrder.eq (h : InOrder traces pool ps) (h' : InOrder traces pool qs)
    (hpool : (pool.map (·.trace)).Nodup) : ps = qs := by
  refine eq_of_map_key_eq (fun p hp q hq htrace => ?_) (h.order.trans h'.order.symm)
  obtain ⟨r, hr, hread⟩ := h.rows p hp
  obtain ⟨r', hr', hread'⟩ := h'.rows q hq
  exact part_eq_of_trace_eq hpool hr hr' hread hread' htrace

theorem InOrder.readable (h : InOrder traces pool ps) (hpool : (pool.map (·.trace)).Nodup)
    (hr : r ∈ pool) (htrace : r.trace ∈ traces) : ∃ p, r.part = .ok p := by
  have hplaced : r.trace ∈ ps.map (·.trace) := by
    rw [h.order, List.mem_filter, decide_eq_true_eq]
    exact ⟨htrace, List.mem_map_of_mem hr⟩
  obtain ⟨p, hp, hptrace⟩ := List.mem_map.1 hplaced
  obtain ⟨q, hq, hread⟩ := h.rows p hp
  rw [← eq_of_key_eq hpool hq hr ((PartRecord.part_eq_ok.1 hread).1.symm.trans hptrace)]
  exact ⟨p, hread⟩

theorem exists_arranged_iff (htraces : traces.Nodup) (hpool : (pool.map (·.trace)).Nodup) :
    (∃ ps, (Store.arrange traces pool).mapM (·.part) = .ok ps) ↔
      ∀ r ∈ pool, r.trace ∈ traces → ∃ p, r.part = .ok p := by
  constructor
  · rintro ⟨ps, h⟩ r hr htrace
    exact (inOrder_of_arrange htraces h).readable hpool hr htrace
  · intro hreadable
    refine exists_mapM_eq_ok fun r hr => ?_
    obtain ⟨hr, htrace⟩ := (mem_arrange_iff htraces hpool).1 hr
    exact hreadable r hr htrace

/-- Whatever the order in which the rows are found, children are read when the rows of the traces
can be, and they are the parts of those traces that have a row, each once and in the order of the
traces. The children of a head in the store are read so. -/
theorem children_in_order (htraces : traces.Nodup) (hpool : (pool.map (·.trace)).Nodup) :
    ((∃ ps, (Store.arrange traces pool).mapM (·.part) = .ok ps) ↔
        ∀ r ∈ pool, r.trace ∈ traces → ∃ p, r.part = .ok p) ∧
      (∀ ps, (Store.arrange traces pool).mapM (·.part) = .ok ps ↔ InOrder traces pool ps) ∧
      (∀ pool' : List PartRecord, pool'.Perm pool →
        (Store.arrange traces pool').mapM (·.part) = (Store.arrange traces pool).mapM (·.part)) ∧
      ∀ (s : Store) (parent : Uuid), s.childTraces parent = traces →
        (s.parts.filter fun r => traces.contains r.trace && r.isLive).Perm pool →
        s.children parent = (Store.arrange traces pool).mapM (·.part) := by
  have hread := exists_arranged_iff htraces hpool
  have hsame (pool' : List PartRecord) (hperm : pool'.Perm pool) :
      (Store.arrange traces pool').mapM (·.part) = (Store.arrange traces pool).mapM (·.part) := by
    rw [arrange_eq_of_perm htraces hpool hperm]
  refine ⟨hread, fun ps => ⟨inOrder_of_arrange htraces, fun h => ?_⟩, hsame, ?_⟩
  · obtain ⟨qs, hqs⟩ := hread.2 fun r hr htrace => h.readable hpool hr htrace
    rw [hqs, h.eq (inOrder_of_arrange htraces hqs) hpool]
  · rintro s parent rfl hperm
    exact hsame _ hperm

def scatteredPart (trace : Uuid) : Part where
  trace := trace
  operator := ⟨1⟩
  plant := ⟨3⟩
  name := "part"
  supportName := none
  terminal := false
  amount := none
  amountUnit := some .kilogram

/-- Live rows of parts with the given traces. -/
def scatteredRows (traces : List Uuid) : List PartRecord :=
  traces.map fun trace => PartRecord.ofPart ⟨0, 0⟩ (scatteredPart trace)

/-- One trace has no row and one row is of no trace; the row of the first trace is not the first of
the rows, and its gap is filled by another or by none. -/
theorem children_in_order_scattered :
    ([.v4 10, .v4 11, .v4 12] : List Uuid).Nodup ∧
      ((scatteredRows [.v4 12, .v4 10, .v4 13]).map (·.trace)).Nodup ∧
      (Store.arrange [.v4 10, .v4 11, .v4 12]
          (scatteredRows [.v4 12, .v4 10, .v4 13])).mapM (·.part) =
        .ok [scatteredPart (.v4 10), scatteredPart (.v4 12)] ∧
      (Store.arrange [.v4 10, .v4 11, .v4 12]
          (scatteredRows [.v4 13, .v4 12, .v4 10])).mapM (·.part) =
        .ok [scatteredPart (.v4 10), scatteredPart (.v4 12)] := by
  have htraces : ([.v4 10, .v4 11, .v4 12] : List Uuid).Nodup := by decide
  have hpool : ((scatteredRows [.v4 12, .v4 10, .v4 13]).map (·.trace)).Nodup := by decide
  obtain ⟨-, hread, hsame, -⟩ := children_in_order htraces hpool
  have hinOrder : InOrder [.v4 10, .v4 11, .v4 12] (scatteredRows [.v4 12, .v4 10, .v4 13])
      ([.v4 10, .v4 12].map scatteredPart) := by
    refine ⟨by decide, fun p hp => ?_⟩
    obtain ⟨trace, htrace, rfl⟩ := List.mem_map.1 hp
    have hsub : ∀ trace ∈ ([.v4 10, .v4 12] : List Uuid), trace ∈ [.v4 12, .v4 10, .v4 13] := by
      decide
    exact ⟨_, List.mem_map_of_mem (hsub trace htrace), rfl⟩
  have hchildren := (hread _).2 hinOrder
  have hperm : ([.v4 13, .v4 12, .v4 10] : List Uuid).Perm [.v4 12, .v4 10, .v4 13] := by decide
  exact ⟨htraces, hpool, hchildren, (hsame _ (hperm.map _)).trans hchildren⟩

end Footprint
