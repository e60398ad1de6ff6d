import Footprint.Proofs.Part.Placement

namespace Footprint

open Table Exchange

/-- Whether a place belongs to the assembly of a head. -/
def PlacementRecord.isOf (head : Uuid) (q : PlacementRecord) : Bool :=
  q.parent = head || q.trace = head

/-- Every place is a head or under a head, and the places under a head are numbered from zero. -/
structure Grounded (places : List PlacementRecord) : Prop where
  rooted : ∀ q ∈ places, q.parent = Uuid.nil ∨
    ∃ top ∈ places, top.trace = q.parent ∧ top.parent = Uuid.nil
  positions : ∀ parent, parent ≠ Uuid.nil →
    (places.filter (·.parent = parent)).map (·.position) =
      List.range (places.filter (·.parent = parent)).length

/-- The live parts are those that have a place, and what heads an assembly is used by none. -/
structure Rooted (s : Store) : Prop where
  grounded : Grounded s.placements
  live : ∀ trace, (∃ r ∈ s.parts, r.trace = trace ∧ r.isLive) ↔
    ∃ q ∈ s.placements, q.trace = trace
  amounts : ∀ q ∈ s.placements, q.parent = Uuid.nil → ∀ r ∈ s.parts, r.trace = q.trace →
    r.amount = none ∧ r.amountUnit = none

variable {now : Instant} {caller parent head trace : Uuid} {s s' : Store} {a : Assembly}
variable {places : List PlacementRecord} {q : PlacementRecord}

theorem PlacementRecord.isOf_eq_false :
    q.isOf head = false ↔ q.parent ≠ head ∧ q.trace ≠ head := by
  simp [isOf]

theorem Grounded.without (h : Grounded places) (hhead : head ≠ Uuid.nil)
    (htop : ∀ q ∈ places, q.trace = head → q.parent = Uuid.nil) :
    Grounded (deleteWhere (PlacementRecord.isOf head) places) where
  rooted q hq := by
    obtain ⟨hq, hapart⟩ := mem_deleteWhere.1 hq
    rw [PlacementRecord.isOf_eq_false] at hapart
    refine (h.rooted q hq).imp_right fun ⟨top, htop, htrace, hnil⟩ => ?_
    refine ⟨top, mem_deleteWhere.2 ⟨htop, PlacementRecord.isOf_eq_false.2 ⟨?_, ?_⟩⟩, htrace, hnil⟩
    · rw [hnil]
      exact hhead.symm
    · rw [htrace]
      exact hapart.1
  positions parent hparent := by
    have hfilter : (deleteWhere (PlacementRecord.isOf head) places).filter (·.parent = parent) =
        if parent = head then [] else places.filter (·.parent = parent) := by
      rw [deleteWhere, List.filter_filter]
      split
      · subst parent
        simp +contextual [PlacementRecord.isOf]
      · refine List.filter_congr fun q hq => ?_
        by_cases hunder : q.parent = parent
        · have hother : q.trace ≠ head := fun htrace =>
            hparent (hunder.symm.trans (htop q hq htrace))
          simp_all [PlacementRecord.isOf]
        · simp [hunder]
    rw [hfilter]
    split
    · rfl
    · exact h.positions parent hparent

theorem positions_of_children (now : Instant) (head : Uuid) (children : List Part) :
    (children.mapIdx fun position child =>
      (⟨child.trace, head, position, now⟩ : PlacementRecord)).map (·.position) =
      List.range children.length := by
  refine List.ext_getElem (by simp) fun position h h' => ?_
  simp

theorem Grounded.place (h : Grounded places)
    (hnone : ∀ q ∈ places, q.parent ≠ a.parent.trace) :
    Grounded (places ++ Store.placementsOf now a) where
  rooted q hq := by
    rcases List.mem_append.1 hq with hq | hq
    · exact (h.rooted q hq).imp_right fun ⟨top, htop, hunder⟩ =>
        ⟨top, List.mem_append_left _ htop, hunder⟩
    · refine (mem_placementsOf hq).imp_right fun ⟨_, _, _, hparent⟩ => ?_
      exact ⟨_, List.mem_append_right _ List.mem_cons_self, hparent.symm, rfl⟩
  positions parent hparent := by
    rw [List.filter_append, Store.placementsOf, List.filter_cons_of_neg (by simpa using hparent.symm)]
    by_cases hhere : parent = a.parent.trace
    · subst hhere
      have hold : places.filter (·.parent = a.parent.trace) = [] :=
        List.filter_eq_nil_iff.2 (by simpa using hnone)
      have hnew : ∀ children : List Part, (children.mapIdx fun position child =>
          (⟨child.trace, a.parent.trace, position, now⟩ : PlacementRecord)).filter
            (·.parent = a.parent.trace) =
          children.mapIdx fun position child => ⟨child.trace, a.parent.trace, position, now⟩ := by
        intro children
        refine List.filter_eq_self.2 fun q hq => ?_
        obtain ⟨position, hposition, rfl⟩ := List.mem_mapIdx.1 hq
        exact decide_eq_true rfl
      rw [hold, hnew, List.nil_append, positions_of_children, List.length_mapIdx]
    · have hnew : (a.children.mapIdx fun position child =>
          (⟨child.trace, a.parent.trace, position, now⟩ : PlacementRecord)).filter
            (·.parent = parent) = [] := by
        refine List.filter_eq_nil_iff.2 fun q hq => ?_
        obtain ⟨position, hposition, rfl⟩ := List.mem_mapIdx.1 hq
        simpa using Ne.symm hhere
      rw [hnew, List.append_nil]
      exact h.positions parent hparent

theorem mem_childTraces : trace ∈ s.childTraces parent ↔
    ∃ q ∈ s.placements, q.trace = trace ∧ q.parent = parent := by
  simp only [Store.childTraces, List.mem_map, List.mem_mergeSort, List.mem_filter, decide_eq_true_eq,
    and_assoc, and_comm (a := PlacementRecord.parent _ = parent)]

/-- The children that are read are the parts placed under the head. -/
theorem Rooted.mem_children_iff (h : Rooted s) {ps : List Part}
    (hread : s.children parent = .ok ps) :
    (∃ p ∈ ps, p.trace = trace) ↔ ∃ q ∈ s.placements, q.trace = trace ∧ q.parent = parent := by
  constructor
  · rintro ⟨p, hp, rfl⟩
    obtain ⟨r, -, -, hpart, q, hq, htrace, hparent⟩ := mem_children hread hp
    exact ⟨q, hq, htrace.trans (PartRecord.part_eq_ok.1 hpart).1.symm, hparent⟩
  · rintro ⟨q, hq, rfl, hparent⟩
    obtain ⟨r, hr, htrace, hlive⟩ := (h.live q.trace).2 ⟨q, hq, rfl⟩
    have hmem : r.trace ∈ s.childTraces parent := mem_childTraces.2 ⟨q, hq, htrace.symm, hparent⟩
    have hpool : r ∈ s.parts.filter fun r =>
        (s.childTraces parent).contains r.trace && r.isLive :=
      List.mem_filter.2 ⟨hr, by simp [hmem, hlive]⟩
    obtain ⟨r', hr', htrace'⟩ := exists_mem_arrange hmem hpool
    obtain ⟨p, hp, hpart⟩ := (mem_of_mapM_eq_ok hread).1 r' hr'
    exact ⟨p, hp, (PartRecord.part_eq_ok.1 hpart).1.trans (htrace'.trans htrace)⟩

/-- The parts of an assembly are its head and what is placed under it. -/
theorem Rooted.mem_traces_iff (h : Rooted s) (ha : s.assembly? caller parent = .ok (some a)) :
    trace ∈ a.traces ↔
      trace = parent ∨ ∃ q ∈ s.placements, q.trace = trace ∧ q.parent = parent := by
  obtain ⟨hpart, -, hchildren⟩ := assembly?_eq_some ha
  obtain ⟨hhead, -⟩ := trace_of_part? hpart
  rw [← h.mem_children_iff hchildren, Assembly.traces, Assembly.parts, List.map_cons,
    List.mem_cons, hhead, List.mem_map]

section

variable {c : Call} {removed minted : List Uuid}

theorem Rooted.not_minted (h : Rooted s) (hfresh : c.Fresh s) (hminted : trace ∈ c.op.minted)
    (hq : q ∈ s.placements) : q.trace ≠ trace ∧ q.parent ≠ trace := by
  have hplaced {q : PlacementRecord} (hq : q ∈ s.placements) : q.trace ≠ trace := by
    obtain ⟨r, hr, htrace, -⟩ := (h.live q.trace).2 ⟨q, hq, rfl⟩
    rw [← htrace]
    exact hfresh.trace_ne hminted hr
  refine ⟨hplaced hq, ?_⟩
  rcases h.grounded.rooted q hq with hnil | ⟨top, htop, htrace, -⟩
  · rw [hnil]
    exact (hfresh.2 _ hminted).1.symm
  · rw [← htrace]
    exact hplaced htop

namespace Drafted

/-- The head has no place yet or heads an assembly already. -/
theorem parent_of_head (hd : Drafted s caller c.op.minted a removed) (harranged : Arranged s)
    (h : Rooted s) (hfresh : c.Fresh s) (hq : q ∈ s.placements) (hhead : q.trace = a.parent.trace) :
    q.parent = Uuid.nil := by
  rcases hd.parent with hminted | hplaceable
  · exact absurd hhead (h.not_minted hfresh hminted hq).1
  · have hkeeps := hplaceable.keeps q.placement (hhead ▸ placement?_of_mem harranged hq)
    exact of_decide_eq_true hkeeps

/-- A child has no place yet or stands under the head already. -/
theorem parent_of_child (hd : Drafted s caller c.op.minted a removed) (harranged : Arranged s)
    (h : Rooted s) (hfresh : c.Fresh s) {p : Part} (hp : p ∈ a.children) (hq : q ∈ s.placements)
    (hchild : q.trace = p.trace) : q.parent = a.parent.trace := by
  rcases hd.children p hp with hminted | ⟨index, hplaceable⟩
  · exact absurd hchild (h.not_minted hfresh hminted hq).1
  · have hkeeps := hplaceable.keeps q.placement (hchild ▸ placement?_of_mem harranged hq)
    exact of_decide_eq_true hkeeps

/-- Whatever stands under the head is among the children or is dropped. -/
theorem child_or_removed (hd : Drafted s caller c.op.minted a removed) (harranged : Arranged s)
    (h : Rooted s) (hfresh : c.Fresh s) (hq : q ∈ s.placements)
    (hunder : q.parent = a.parent.trace) :
    (∃ p ∈ a.children, p.trace = q.trace) ∨ q.trace ∈ removed := by
  obtain ⟨existing, hexisting, hremoved⟩ := hd.dropped
  rcases hd.parent with hminted | hplaceable
  · exact absurd hunder (h.not_minted hfresh hminted hq).2
  · obtain ⟨part, hpart⟩ := hplaceable.owned
    obtain ⟨r, hr, htrace, -, hlive, -⟩ := Store.part?_eq_some hpart
    obtain ⟨top, htop, htoptrace⟩ := (h.live _).1 ⟨r, hr, htrace, hlive⟩
    have hparent : s.isParent a.parent.trace := by
      rw [← htoptrace, isParent_of_mem harranged htop]
      exact decide_eq_true (hd.parent_of_head harranged h hfresh htop htoptrace)
    obtain ⟨before, rfl⟩ := exists_of_assembly? hexisting hpart hparent
    obtain ⟨-, -, hread⟩ := assembly?_eq_some hexisting
    obtain ⟨p, hp, htrace⟩ := (h.mem_children_iff hread).2 ⟨q, hq, rfl, hunder⟩
    by_cases hkept : ∃ p ∈ a.children, p.trace = q.trace
    · exact Or.inl hkept
    · refine Or.inr ?_
      simp only [hremoved, droppedTraces, List.mem_filter, List.mem_map, List.contains_eq_mem,
        Bool.not_eq_true', decide_eq_false_iff_not]
      exact ⟨⟨p, hp, htrace⟩, hkept⟩

/-- What is dropped stands under the head and is no child. -/
theorem place_of_removed (hd : Drafted s caller minted a removed) (h : Rooted s)
    (htrace : trace ∈ removed) :
    (∃ q ∈ s.placements, q.trace = trace ∧ q.parent = a.parent.trace) ∧
      ∀ p ∈ a.children, p.trace ≠ trace := by
  obtain ⟨existing, hexisting, rfl⟩ := hd.dropped
  cases existing with
  | none => cases htrace
  | some before =>
    obtain ⟨-, -, hread⟩ := assembly?_eq_some hexisting
    simp only [droppedTraces, List.mem_filter, List.mem_map, List.contains_eq_mem,
      Bool.not_eq_true', decide_eq_false_iff_not] at htrace
    obtain ⟨hbefore, hgone⟩ := htrace
    exact ⟨(h.mem_children_iff hread).1 hbefore, fun p hp htrace => hgone ⟨p, hp, htrace⟩⟩

/-- All places of the assembly are given up and the new ones are added. -/
theorem placements_eq (hd : Drafted s caller minted a removed) (harranged : Arranged s)
    (h : Rooted s) (hwritten : s.putAssembly now a removed = .ok s') :
    s'.placements =
      deleteWhere (PlacementRecord.isOf a.parent.trace) s.placements ++
        Store.placementsOf now a := by
  obtain ⟨-, -, -, -, hplacements⟩ := Store.putAssembly_eq_ok hwritten
  rw [eq_append_of_insertAll hplacements]
  congr 1
  rw [Store.dropParts, deleteWhere, deleteWhere, deleteWhere, List.filter_filter]
  refine List.filter_congr fun q hq => ?_
  by_cases hremoved : q.trace ∈ removed
  · obtain ⟨⟨q', hq', htrace, hunder⟩, -⟩ := hd.place_of_removed h hremoved
    have hsame : q' = q := eq_of_key_eq harranged.traces hq' hq htrace
    rw [hsame] at hunder
    simp [PlacementRecord.isOf, hunder]
  · simp [PlacementRecord.isOf, hremoved]

end Drafted

theorem rooted_empty : Rooted Store.empty := by
  refine ⟨⟨?_, ?_⟩, ?_, ?_⟩ <;> simp [Store.empty]

theorem Rooted.remove (harranged : Arranged s) (h : Rooted s)
    (ha : s.assembly? caller parent = .ok (some a)) : Rooted (s.removeAssembly now a) := by
  have htraces {trace : Uuid} : trace ∈ a.traces ↔
      trace = parent ∨ ∃ q ∈ s.placements, q.trace = trace ∧ q.parent = parent :=
    h.mem_traces_iff ha
  obtain ⟨hpart, hparent, -⟩ := assembly?_eq_some ha
  obtain ⟨r, hr, hrtrace, -⟩ := Store.part?_eq_some hpart
  have hnamed : parent ≠ Uuid.nil := hrtrace ▸ harranged.named r hr
  have htop : ∀ q ∈ s.placements, q.trace = parent → q.parent = Uuid.nil := by
    rintro q hq rfl
    rw [isParent_of_mem harranged hq] at hparent
    exact of_decide_eq_true hparent
  have hplaces : (s.removeAssembly now a).placements =
      deleteWhere (PlacementRecord.isOf parent) s.placements := by
    refine List.filter_congr fun q hq => ?_
    have hhere : q.trace ∈ a.traces ↔ q.isOf parent := by
      rw [htraces, PlacementRecord.isOf, Bool.or_eq_true, decide_eq_true_eq, decide_eq_true_eq,
        or_comm]
      refine or_congr_left ⟨?_, fun hunder => ⟨q, hq, rfl, hunder⟩⟩
      rintro ⟨q', hq', htrace, hunder⟩
      rwa [eq_of_key_eq harranged.traces hq' hq htrace] at hunder
    by_cases hof : q.isOf parent
    · simp [hof, hhere.2 hof]
    · simp [hof, hhere.not.2 hof]
  constructor
  · rw [hplaces]
    exact h.grounded.without hnamed htop
  · intro trace
    rw [hplaces, Store.removeAssembly, live_dropParts, h.live, htraces]
    constructor
    · rintro ⟨⟨q, hq, rfl⟩, hkept⟩
      rw [not_or] at hkept
      refine ⟨q, mem_deleteWhere.2 ⟨hq, PlacementRecord.isOf_eq_false.2 ⟨?_, hkept.1⟩⟩, rfl⟩
      exact fun hunder => hkept.2 ⟨q, hq, rfl, hunder⟩
    · rintro ⟨q, hq, rfl⟩
      obtain ⟨hq, hof⟩ := mem_deleteWhere.1 hq
      obtain ⟨hunder, hhead⟩ := PlacementRecord.isOf_eq_false.1 hof
      refine ⟨⟨q, hq, rfl⟩, ?_⟩
      rintro (htrace | ⟨q', hq', htrace, hunder'⟩)
      · exact hhead htrace
      · rw [eq_of_key_eq harranged.traces hq' hq htrace] at hunder'
        exact hunder hunder'
  · intro q hq hnil r hr htrace
    rw [hplaces] at hq
    obtain ⟨r', hr', htrace', -, hamount, hunit⟩ := exists_of_mem_dropParts hr
    rw [← hamount, ← hunit]
    exact h.amounts q (mem_deleteWhere.1 hq).1 hnil r' hr' (htrace'.trans htrace)

theorem place_of_child (now : Instant) {p : Part} (hp : p ∈ a.children) :
    ∃ q ∈ Store.placementsOf now a, q.trace = p.trace ∧ q.parent = a.parent.trace := by
  obtain ⟨position, hposition, rfl⟩ := List.getElem_of_mem hp
  exact ⟨_, List.mem_cons_of_mem _ (List.mem_mapIdx.2 ⟨position, hposition, rfl⟩), rfl, rfl⟩

theorem map_trace_placementsOf : (Store.placementsOf now a).map (·.trace) = a.traces := by
  have hchildren : (a.children.mapIdx fun position child =>
      (⟨child.trace, a.parent.trace, position, now⟩ : PlacementRecord)).map (·.trace) =
      a.children.map (·.trace) :=
    List.ext_getElem (by simp) fun index h h' => by simp
  rw [Store.placementsOf, List.map_cons, hchildren]
  rfl

theorem trace_placementsOf :
    (∃ q ∈ Store.placementsOf now a, q.trace = trace) ↔ ∃ p ∈ a.parts, p.trace = trace := by
  rw [← List.mem_map, map_trace_placementsOf, Assembly.traces, List.mem_map]

theorem Drafted.live_iff (hd : Drafted s caller c.op.minted a removed) (harranged : Arranged s)
    (h : Rooted s) (hfresh : c.Fresh s) (hwritten : s.putAssembly now a removed = .ok s') :
    (∃ r ∈ s'.parts, r.trace = trace ∧ r.isLive) ↔ ∃ q ∈ s'.placements, q.trace = trace := by
  obtain ⟨-, -, -, hparts, -⟩ := Store.putAssembly_eq_ok hwritten
  rw [hparts, live_writeParts, live_dropParts, h.live, hd.placements_eq harranged h hwritten]
  simp only [List.mem_append, or_and_right, exists_or, trace_placementsOf]
  constructor
  · rintro (⟨⟨q, hq, rfl⟩, hkept⟩ | hp)
    · by_cases hunder : q.parent = a.parent.trace
      · rcases hd.child_or_removed harranged h hfresh hq hunder with ⟨p, hp, htrace⟩ | hremoved
        · exact Or.inr ⟨p, List.mem_cons_of_mem _ hp, htrace⟩
        · exact absurd hremoved hkept
      · by_cases hhead : q.trace = a.parent.trace
        · exact Or.inr ⟨a.parent, List.mem_cons_self, hhead.symm⟩
        · exact Or.inl ⟨q, mem_deleteWhere.2
            ⟨hq, PlacementRecord.isOf_eq_false.2 ⟨hunder, hhead⟩⟩, rfl⟩
    · exact Or.inr hp
  · rintro (⟨q, hq, rfl⟩ | hp)
    · obtain ⟨hq, hof⟩ := mem_deleteWhere.1 hq
      refine Or.inl ⟨⟨q, hq, rfl⟩, fun hremoved => ?_⟩
      obtain ⟨⟨q', hq', htrace, hunder⟩, -⟩ := hd.place_of_removed h hremoved
      rw [eq_of_key_eq harranged.traces hq' hq htrace] at hunder
      exact (PlacementRecord.isOf_eq_false.1 hof).1 hunder
    · exact Or.inr hp

/-- The head of a stored assembly carries no amount. -/
theorem Drafted.amounts (hd : Drafted s caller c.op.minted a removed) (harranged : Arranged s)
    (h : Rooted s) (harranged' : Arranged s') (hnamed : a.parent.trace ≠ Uuid.nil)
    (hwritten : s.putAssembly now a removed = .ok s') (hq : q ∈ s'.placements)
    (hnil : q.parent = Uuid.nil) {r : PartRecord} (hr : r ∈ s'.parts) (htrace : r.trace = q.trace) :
    r.amount = none ∧ r.amountUnit = none := by
  obtain ⟨-, -, -, hparts, -⟩ := Store.putAssembly_eq_ok hwritten
  have hplaces := hd.placements_eq harranged h hwritten
  rw [hparts] at hr
  rcases mem_writeParts hr with ⟨hr, hothers⟩ | ⟨p, hp, r', rfl⟩
  · -- It is no part of the assembly, so its place is from before.
    have hold : q ∈ s.placements := by
      rw [hplaces] at hq
      rcases List.mem_append.1 hq with hq | hq
      · exact (mem_deleteWhere.1 hq).1
      · obtain ⟨p, hp, hptrace⟩ := trace_placementsOf.1 ⟨q, hq, rfl⟩
        exact absurd (hptrace.trans htrace.symm) (hothers p hp)
    obtain ⟨r', hr', htrace', -, hamount, hunit⟩ := exists_of_mem_dropParts hr
    rw [← hamount, ← hunit]
    exact h.amounts q hold hnil r' hr' (htrace'.trans htrace)
  · rcases List.mem_cons.1 hp with rfl | hp
    · rw [PartRecord.revise, PartRecord.ofPart, hd.amount, hd.amountUnit]
      exact ⟨rfl, rfl⟩
    · -- A child stands under the head.
      obtain ⟨q', hq', htrace', hunder⟩ := place_of_child now hp
      have hsame : q' = q := eq_of_key_eq harranged'.traces
        (hplaces ▸ List.mem_append_right _ hq') hq (htrace'.trans htrace)
      rw [hsame, hnil] at hunder
      exact absurd hunder.symm hnamed

/-- What is dropped is not live afterwards. -/
theorem Drafted.not_live_of_removed (hd : Drafted s caller c.op.minted a removed)
    (harranged : Arranged s) (h : Rooted s) (hfresh : c.Fresh s)
    (hwritten : s.putAssembly now a removed = .ok s') (htrace : trace ∈ removed) :
    ¬ ∃ r ∈ s'.parts, r.trace = trace ∧ r.isLive := by
  obtain ⟨-, -, -, hparts, -⟩ := Store.putAssembly_eq_ok hwritten
  obtain ⟨⟨q, hq, hqtrace, hunder⟩, hchildren⟩ := hd.place_of_removed h htrace
  rw [hparts, live_writeParts, live_dropParts]
  rintro (⟨-, hkept⟩ | ⟨p, hp, hsame⟩)
  · exact hkept htrace
  · rcases List.mem_cons.1 hp with rfl | hp
    · -- The head stands under nothing.
      have hnil := hd.parent_of_head harranged h hfresh hq (hqtrace.trans hsame.symm)
      exact (hd.drawn hfresh List.mem_cons_self).ne_nil harranged.named (hunder.symm.trans hnil)
    · exact hchildren p hp hsame

theorem Rooted.put (harranged : Arranged s) (h : Rooted s) (harranged' : Arranged s')
    (hfresh : c.Fresh s) (hd : Drafted s caller c.op.minted a removed)
    (hwritten : s.putAssembly now a removed = .ok s') : Rooted s' := by
  have hnamed : a.parent.trace ≠ Uuid.nil :=
    (hd.drawn hfresh List.mem_cons_self).ne_nil harranged.named
  refine ⟨?_, fun trace => hd.live_iff harranged h hfresh hwritten, fun q hq hnil r hr htrace =>
    hd.amounts harranged h harranged' hnamed hwritten hq hnil hr htrace⟩
  rw [hd.placements_eq harranged h hwritten]
  refine (h.grounded.without hnamed fun q hq hhead =>
    hd.parent_of_head harranged h hfresh hq hhead).place fun q hq => ?_
  exact (PlacementRecord.isOf_eq_false.1 (mem_deleteWhere.1 hq).2).1

end

/-- In a reachable store the live parts are those that have a place, and every place is a head or
under one. -/
theorem Rooted.of_reachable (h : Reachable s) : Rooted s := by
  refine h.induct_after rooted_empty ?_
  intro s reply c hs hfresh _ ih haccepted
  have harranged := Arranged.of_reachable hs
  cases assemblyChange_of_accepted haccepted with
  | kept hparts hplacements =>
    exact ⟨hplacements ▸ ih.grounded, hplacements ▸ hparts ▸ ih.live,
      hplacements ▸ hparts ▸ ih.amounts⟩
  | removed hpresent hwritten =>
    rw [hwritten]
    exact ih.remove harranged hpresent
  | stored hdrafted hwritten =>
    exact ih.put harranged (Arranged.of_reachable (hs.call c hfresh)) hfresh hdrafted hwritten

end Footprint
