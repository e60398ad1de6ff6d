import Footprint.Proofs.Part.Forest

namespace Footprint

open Table Exchange

/-- The part that a live row is read as. -/
def Store.LivePart (s : Store) (p : Part) : Prop :=
  ∃ r ∈ s.parts, r.isLive ∧ r.part = .ok p

variable {s : Store} {operator parent trace : Uuid} {p q : Part} {ps : List Part} {a : Assembly}

theorem Store.LivePart.trace_mem (h : s.LivePart p) :
    ∃ r ∈ s.parts, r.trace = p.trace ∧ r.isLive := by
  obtain ⟨r, hr, hlive, hread⟩ := h
  exact ⟨r, hr, (PartRecord.part_eq_ok.1 hread).1.symm, hlive⟩

/-- There is one live part to a trace. -/
theorem Store.LivePart.eq (h : s.LivePart p) (h' : s.LivePart q) (hs : Reachable s)
    (htrace : p.trace = q.trace) : p = q := by
  obtain ⟨r, hr, -, hread⟩ := h
  obtain ⟨r', hr', -, hread'⟩ := h'
  exact part_eq_of_trace_eq (nodup_parts hs) hr hr' hread hread' htrace

theorem part?_eq_some_iff (hs : Reachable s) :
    s.part? operator trace = .ok (some p) ↔
      s.LivePart p ∧ p.trace = trace ∧ p.operator = operator := by
  constructor
  · intro h
    obtain ⟨r, hr, -, -, hlive, hread⟩ := Store.part?_eq_some h
    exact ⟨⟨r, hr, hlive, hread⟩, trace_of_part? h⟩
  · rintro ⟨⟨r, hr, hlive, hread⟩, rfl, rfl⟩
    obtain ⟨htrace, hoperator, -⟩ := PartRecord.part_eq_ok.1 hread
    rw [htrace, hoperator]
    exact part?_of_mem hs hr hlive hread

theorem nodup_childTraces (h : Arranged s) (parent : Uuid) : (s.childTraces parent).Nodup := by
  refine ((List.mergeSort_perm _ _).map _).nodup_iff.2 ?_
  exact h.traces.sublist (List.filter_sublist.map _)

/-- All children are read, in the order of their places. -/
theorem map_trace_children (hs : Reachable s) (h : s.children parent = .ok ps) :
    ps.map (·.trace) = s.childTraces parent := by
  have hrooted := Rooted.of_reachable hs
  have hnodup := nodup_childTraces (Arranged.of_reachable hs) parent
  rw [(inOrder_of_arrange hnodup h).order, List.filter_eq_self]
  intro trace htrace
  obtain ⟨q, hq, rfl, -⟩ := mem_childTraces.1 htrace
  obtain ⟨r, hr, hrtrace, hlive⟩ := (hrooted.live q.trace).2 ⟨q, hq, rfl⟩
  refine decide_eq_true (List.mem_map.2 ⟨r, List.mem_filter.2 ⟨hr, ?_⟩, hrtrace⟩)
  rw [hrtrace, List.contains_eq_mem, decide_eq_true htrace, hlive]
  rfl

theorem children_eq_ok_iff (hs : Reachable s) :
    s.children parent = .ok ps ↔
      ps.map (·.trace) = s.childTraces parent ∧ ∀ p ∈ ps, s.LivePart p := by
  have hlive {ps : List Part} (h : s.children parent = .ok ps) : ∀ p ∈ ps, s.LivePart p := by
    intro p hp
    obtain ⟨r, hr, hlive, hread, -⟩ := mem_children h hp
    exact ⟨r, hr, hlive, hread⟩
  refine ⟨fun h => ⟨map_trace_children hs h, hlive h⟩, fun ⟨htraces, hps⟩ => ?_⟩
  obtain ⟨qs, hread⟩ := (Coherent.of_reachable hs).exists_children parent
  rw [hread, eq_of_map_key_eq (fun p hp q hq htrace => (hps p hp).eq (hlive hread q hq) hs htrace)
    (htraces.trans (map_trace_children hs hread).symm)]

/-- In a reachable store an assembly is read when its parts are those of live rows, the children
being those placed under the head in the order of their places. -/
theorem assembly?_eq_some_iff (hs : Reachable s) :
    s.assembly? operator parent = .ok (some a) ↔
      (s.LivePart a.parent ∧ a.parent.trace = parent ∧ a.parent.operator = operator) ∧
        s.isParent parent ∧
        a.children.map (·.trace) = s.childTraces parent ∧ ∀ p ∈ a.children, s.LivePart p := by
  rw [← part?_eq_some_iff hs, ← children_eq_ok_iff hs]
  refine ⟨assembly?_eq_some, fun ⟨hpart, hparent, hchildren⟩ => ?_⟩
  rw [Store.assembly?, hpart, ok_bind]
  simp only [hparent, if_true, hchildren, ok_bind]

theorem part?_eq_of_livePart {s' : Store} (hs : Reachable s) (hs' : Reachable s')
    (h : ∀ p, s'.LivePart p ↔ s.LivePart p) : s'.part? = s.part? := by
  funext operator trace
  refine eq_of_ok_some_iff ((Coherent.of_reachable hs').exists_part? operator trace)
    ((Coherent.of_reachable hs).exists_part? operator trace) fun p => ?_
  rw [part?_eq_some_iff hs, part?_eq_some_iff hs', h]

/-- No assembly is headed by the nil trace, so what stands under that does not matter. -/
theorem assembly?_eq_of_livePart {s' : Store} (hs : Reachable s) (hs' : Reachable s')
    (h : ∀ p, s'.LivePart p ↔ s.LivePart p) (hplaces : s'.placement? = s.placement?)
    (htraces : ∀ parent, parent ≠ Uuid.nil → s'.childTraces parent = s.childTraces parent) :
    s'.assembly? = s.assembly? := by
  funext operator parent
  have hparent : s'.isParent parent = s.isParent parent := by
    rw [Store.isParent, hplaces, Store.isParent]
  refine eq_of_ok_some_iff ((Coherent.of_reachable hs').exists_assembly? operator parent)
    ((Coherent.of_reachable hs).exists_assembly? operator parent) fun a => ?_
  rw [assembly?_eq_some_iff hs, assembly?_eq_some_iff hs', hparent]
  simp only [h]
  refine and_congr_right fun htop => ?_
  obtain ⟨hlive, hhead, -⟩ := htop
  obtain ⟨r, hr, hrtrace, -⟩ := hlive.trace_mem
  rw [htraces parent fun hnil => (Arranged.of_reachable hs).named r hr
    (hrtrace.trans (hhead.trans hnil))]

theorem placement?_eq_some_iff (h : Arranged s) {place : Placement} :
    s.placement? trace = some place ↔
      place.trace = trace ∧ ∃ q ∈ s.placements, q.placement = place := by
  constructor
  · intro hplace
    obtain ⟨q, hq, rfl⟩ := Option.map_eq_some_iff.1 hplace
    have htrace : q.trace = trace := by simpa using List.find?_some hq
    exact ⟨htrace, q, List.mem_of_find?_eq_some hq, rfl⟩
  · rintro ⟨rfl, q, hq, rfl⟩
    exact placement?_of_mem h hq

theorem placement?_eq_of_mem {s' : Store} (h : Arranged s) (h' : Arranged s')
    (hmem : ∀ place, (∃ q ∈ s'.placements, q.placement = place) ↔
      ∃ q ∈ s.placements, q.placement = place) : s'.placement? = s.placement? := by
  funext trace
  refine Option.ext fun place => ?_
  rw [placement?_eq_some_iff h, placement?_eq_some_iff h', hmem]

end Footprint
