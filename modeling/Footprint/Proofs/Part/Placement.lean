import Footprint.Proofs.Exchange.ReadBack
import Footprint.Proofs.Part.Draft
import Footprint.Proofs.Part.Ownership

namespace Footprint

open Table Exchange

/-- Every part has one place at most, and one under a parent of the same owner. -/
structure Arranged (s : Store) : Prop where
  traces : (s.placements.map (·.trace)).Nodup
  named : ∀ r ∈ s.parts, r.trace ≠ Uuid.nil
  owners : ∀ q ∈ s.placements, q.parent ≠ Uuid.nil →
    ∃ operator, (q.trace, operator) ∈ s.parts.map PartRecord.owner ∧
      (q.parent, operator) ∈ s.parts.map PartRecord.owner

theorem arranged_empty : Arranged Store.empty := by
  constructor <;> simp [Store.empty]

variable {now : Instant} {caller : Uuid} {s s' : Store} {parent trace : Uuid} {p : Part}

theorem mem_placementsOf {a : Assembly} {q : PlacementRecord} (h : q ∈ Store.placementsOf now a) :
    q.parent = Uuid.nil ∨
      ∃ child ∈ a.children, q.trace = child.trace ∧ q.parent = a.parent.trace := by
  rcases List.mem_cons.1 h with rfl | h
  · exact Or.inl rfl
  · obtain ⟨position, hposition, rfl⟩ := List.mem_mapIdx.1 h
    exact Or.inr ⟨_, List.getElem_mem hposition, rfl, rfl⟩

theorem Arranged.remove {a : Assembly} (h : Arranged s) : Arranged (s.removeAssembly now a) where
  traces := h.traces.sublist (List.filter_sublist.map _)
  named r hr := by
    rcases mem_updateWhere.1 hr with ⟨hr, -⟩ | ⟨q, hq, -, rfl⟩
    · exact h.named r hr
    · exact h.named q hq
  owners q hq hparent := by
    have howners : (s.removeAssembly now a).parts.map PartRecord.owner =
        s.parts.map PartRecord.owner := owners_dropParts
    rw [howners]
    exact h.owners q (mem_deleteWhere.1 hq).1 hparent

/-- Owners stay when an assembly is stored, and rows are added for its parts only. -/
theorem owners_putAssembly {a : Assembly} {removed : List Uuid}
    (hwritten : s.putAssembly now a removed = .ok s') :
    (∀ o ∈ s.parts.map PartRecord.owner, o ∈ s'.parts.map PartRecord.owner) ∧
      (∀ r' ∈ s'.parts, (∃ r ∈ s.parts, r.owner = r'.owner) ∨
        ∃ p ∈ a.parts, r'.owner = (p.trace, p.operator)) ∧
      ∀ p ∈ a.parts, ∃ r' ∈ s'.parts, r'.trace = p.trace := by
  obtain ⟨-, -, -, hparts, -⟩ := Store.putAssembly_eq_ok hwritten
  rw [hparts]
  refine ⟨fun o ho => ?_, fun r' hr' => ?_, fun p hp => exists_writeParts hp⟩
  · rw [← owners_dropParts, List.mem_map] at ho
    obtain ⟨r, hr, rfl⟩ := ho
    obtain ⟨r', hr', howner, -⟩ := exists_of_writeParts hr
    rw [← howner]
    exact List.mem_map_of_mem hr'
  · have howner := owner_of_writeParts hr'
    rwa [owners_dropParts, List.mem_map] at howner

/-- A part that the operator brings in: a new one or one that it has. -/
def Drawn (s : Store) (operator : Uuid) (p : Part) : Prop :=
  p.operator = operator ∧
    ((p.trace ≠ Uuid.nil ∧ ∀ r ∈ s.parts, r.trace ≠ p.trace) ∨
      ∃ part, s.part? operator p.trace = .ok (some part))

theorem owner_of_drawn {a : Assembly} {removed : List Uuid}
    (hparts : (s.parts.map (·.trace)).Nodup) (hdrawn : ∀ p ∈ a.parts, Drawn s caller p)
    (hwritten : s.putAssembly now a removed = .ok s') (hp : p ∈ a.parts) :
    (p.trace, caller) ∈ s'.parts.map PartRecord.owner := by
  obtain ⟨-, horigin, hpresent⟩ := owners_putAssembly hwritten
  obtain ⟨r', hr', htrace⟩ := hpresent p hp
  have hcaller : r'.operator = caller := by
    rcases horigin r' hr' with ⟨r, hr, howner⟩ | ⟨q, hq, howner⟩
    · have hsame : r.trace = p.trace := (congrArg Prod.fst howner).trans htrace
      rcases (hdrawn p hp).2 with ⟨-, hfresh⟩ | ⟨part, hpart⟩
      · exact absurd hsame (hfresh r hr)
      · obtain ⟨q, hq, hqt, hoperator, -⟩ := Store.part?_eq_some hpart
        have hrow : r = q := eq_of_key_eq hparts hr hq (hsame.trans hqt.symm)
        rw [← hoperator, ← hrow]
        exact (congrArg Prod.snd howner).symm
    · exact (congrArg Prod.snd howner).trans (hdrawn q hq).1
  rw [← htrace, ← hcaller]
  exact List.mem_map_of_mem hr'

theorem Drawn.ne_nil (h : Drawn s caller p) (hnamed : ∀ r ∈ s.parts, r.trace ≠ Uuid.nil) :
    p.trace ≠ Uuid.nil := by
  rcases h.2 with ⟨hnil, -⟩ | ⟨part, hpart⟩
  · exact hnil
  · obtain ⟨q, hq, hqt, -⟩ := Store.part?_eq_some hpart
    rw [← hqt]
    exact hnamed q hq

theorem named_of_drawn {a : Assembly} {removed : List Uuid} (h : Arranged s)
    (hdrawn : ∀ p ∈ a.parts, Drawn s caller p) (hwritten : s.putAssembly now a removed = .ok s') :
    ∀ r' ∈ s'.parts, r'.trace ≠ Uuid.nil := by
  intro r' hr'
  rcases (owners_putAssembly hwritten).2.1 r' hr' with ⟨r, hr, howner⟩ | ⟨p, hp, howner⟩
  · have htrace : r.trace = r'.trace := congrArg Prod.fst howner
    rw [← htrace]
    exact h.named r hr
  · have htrace : r'.trace = p.trace := congrArg Prod.fst howner
    rw [htrace]
    exact (hdrawn p hp).ne_nil h.named

theorem Arranged.put {a : Assembly} {removed : List Uuid} (h : Arranged s)
    (hparts : (s.parts.map (·.trace)).Nodup) (hdrawn : ∀ p ∈ a.parts, Drawn s caller p)
    (hwritten : s.putAssembly now a removed = .ok s') : Arranged s' := by
  obtain ⟨-, -, -, -, hplacements⟩ := Store.putAssembly_eq_ok hwritten
  refine ⟨?_, named_of_drawn h hdrawn hwritten, fun q hq hparent => ?_⟩
  · refine nodup_map_of_insertAll (fun r q hclash => of_decide_eq_false hclash) ?_ hplacements
    exact h.traces.sublist ((List.filter_sublist.trans List.filter_sublist).map _)
  · rw [eq_append_of_insertAll hplacements] at hq
    rcases List.mem_append.1 hq with hq | hq
    · obtain ⟨operator, hchild, hhead⟩ :=
        h.owners q (mem_deleteWhere.1 (mem_deleteWhere.1 hq).1).1 hparent
      have hbefore := (owners_putAssembly hwritten).1
      exact ⟨operator, hbefore _ hchild, hbefore _ hhead⟩
    · rcases mem_placementsOf hq with hnil | ⟨child, hchild, htrace, hparent⟩
      · exact absurd hnil hparent
      · rw [htrace, hparent]
        exact ⟨caller,
          owner_of_drawn hparts hdrawn hwritten (List.mem_cons_of_mem _ hchild),
          owner_of_drawn hparts hdrawn hwritten List.mem_cons_self⟩

/-- What an operation gives away is nobody's trace. -/
theorem Exchange.Call.Fresh.trace_ne {c : Call} (h : c.Fresh s) (hminted : trace ∈ c.op.minted)
    {r : PartRecord} (hr : r ∈ s.parts) : r.trace ≠ trace := by
  rintro rfl
  refine (h.2 _ hminted).2 ?_
  simp only [Store.keys, List.mem_append, List.mem_map]
  exact Or.inl (Or.inl (Or.inl ⟨r, hr, rfl⟩))

theorem Drafted.drawn {c : Call} {a : Assembly} {removed : List Uuid}
    (h : Drafted s caller c.op.minted a removed) (hfresh : c.Fresh s) (hp : p ∈ a.parts) :
    Drawn s caller p := by
  have hnew (hminted : p.trace ∈ c.op.minted) :
      p.trace ≠ Uuid.nil ∧ ∀ r ∈ s.parts, r.trace ≠ p.trace :=
    ⟨(hfresh.2 _ hminted).1, fun r hr => hfresh.trace_ne hminted hr⟩
  refine ⟨h.operator p hp, ?_⟩
  rcases List.mem_cons.1 hp with rfl | hp
  · exact h.parent.imp hnew (·.owned)
  · exact (h.children p hp).imp hnew fun ⟨_, hplaceable⟩ => hplaceable.owned

theorem Arranged.of_reachable (h : Reachable s) : Arranged s := by
  refine h.induct arranged_empty ?_
  intro s s' reply c hs hfresh ih haccepted
  cases assemblyChange_of_accepted haccepted with
  | kept hparts hplacements =>
    exact ⟨hplacements ▸ ih.traces, hparts ▸ ih.named, hplacements ▸ hparts ▸ ih.owners⟩
  | removed _ hwritten =>
    rw [hwritten]
    exact ih.remove
  | stored hdrafted hwritten =>
    exact ih.put (nodup_parts hs) (fun _ hp => hdrafted.drawn hfresh hp) hwritten

/-- A child is read from a live row that has a place under the parent. -/
theorem mem_children {ps : List Part} (h : s.children parent = .ok ps) (hp : p ∈ ps) :
    ∃ r ∈ s.parts, r.isLive ∧ r.part = .ok p ∧
      ∃ q ∈ s.placements, q.trace = r.trace ∧ q.parent = parent := by
  obtain ⟨r, hr, hread⟩ := (mem_of_mapM_eq_ok h).2 p hp
  have hrow := List.mem_filter.1 (mem_of_mem_arrange hr)
  simp only [Bool.and_eq_true, List.contains_eq_mem, decide_eq_true_eq] at hrow
  obtain ⟨hr, htrace, hlive⟩ := hrow
  obtain ⟨q, hq, htrace⟩ := List.mem_map.1 htrace
  rw [List.mem_mergeSort, List.mem_filter, decide_eq_true_eq] at hq
  exact ⟨r, hr, hlive, hread, q, hq.1, htrace, hq.2⟩

theorem placement?_of_mem (h : Arranged s) {q : PlacementRecord} (hq : q ∈ s.placements) :
    s.placement? q.trace = some q.placement := by
  rw [Store.placement?, find?_of_unique hq (decide_eq_true rfl) fun r hr htrace =>
    eq_of_key_eq h.traces hr hq (of_decide_eq_true htrace)]
  rfl

theorem isParent_of_mem (h : Arranged s) {q : PlacementRecord} (hq : q ∈ s.placements) :
    s.isParent q.trace = decide (q.parent = Uuid.nil) := by
  rw [Store.isParent, placement?_of_mem h hq]
  rfl

theorem part?_of_mem (h : Reachable s) {r : PartRecord} (hr : r ∈ s.parts) (hlive : r.isLive)
    (hread : r.part = .ok p) : s.part? r.operator r.trace = .ok (some p) := by
  refine readOptional_eq_ok_some.2 ⟨r, find?_of_unique hr (by simp [hlive]) ?_, hread⟩
  intro q hq hfound
  simp only [Bool.and_eq_true, decide_eq_true_eq] at hfound
  exact eq_of_key_eq (nodup_parts h) hq hr hfound.1.1

/-- A child of an assembly is read as itself by the operator that has the assembly, and it heads no
assembly. -/
theorem child_of_assembly (hs : Reachable s) {operator : Uuid} {a : Assembly}
    (h : s.assembly? operator parent = .ok (some a)) (hp : p ∈ a.children) :
    s.part? operator p.trace = .ok (some p) ∧ s.isParent p.trace = false := by
  have harranged := Arranged.of_reachable hs
  obtain ⟨hparent, -, hchildren⟩ := assembly?_eq_some h
  obtain ⟨r, hr, hlive, hread, q, hq, hqr, hqp⟩ := mem_children hchildren hp
  obtain ⟨htrace, hoperator, -⟩ := PartRecord.part_eq_ok.1 hread
  obtain ⟨top, htop, htoptrace, htopowner, -⟩ := Store.part?_eq_some hparent
  have hnil : q.parent ≠ Uuid.nil := by
    rw [hqp, ← htoptrace]
    exact harranged.named top htop
  constructor
  · -- The child and the parent have one owner.
    obtain ⟨owner, hchild, hhead⟩ := harranged.owners q hq hnil
    obtain ⟨r', hr', howner'⟩ := List.mem_map.1 hchild
    obtain ⟨top', htop', htopowner'⟩ := List.mem_map.1 hhead
    have hrow : r' = r :=
      eq_of_key_eq (nodup_parts hs) hr' hr ((congrArg Prod.fst howner').trans hqr)
    have htoprow : top' = top := eq_of_key_eq (nodup_parts hs) htop' htop
      ((congrArg Prod.fst htopowner').trans (hqp.trans htoptrace.symm))
    have hsame : r.operator = operator := by
      rw [← hrow, ← htopowner, ← htoprow]
      exact (congrArg Prod.snd howner').trans (congrArg Prod.snd htopowner').symm
    rw [htrace, ← hsame]
    exact part?_of_mem hs hr hlive hread
  · rw [htrace, ← hqr, isParent_of_mem harranged hq]
    exact decide_eq_false hnil

end Footprint
