import Footprint.Proofs.Part.Forest
import Footprint.Proofs.Rules.Assembly

namespace Footprint

open Table Exchange

variable {caller parent trace : Uuid} {s : Store} {now : Instant} {p : Part}

/-- The traces that are given away. -/
def newTraces (ids : List Uuid) (names : List (Option Uuid)) : List Uuid :=
  ((assignTraces ids names).zip names).filterMap fun (trace, name) =>
    if name.isNone then some trace else none

theorem assignTraces_none (ids : List Uuid) (names : List (Option Uuid)) :
    assignTraces ids (none :: names) =
      ids.head?.getD Uuid.nil :: assignTraces ids.tail names := by
  cases ids <;> rfl

theorem assignTraces_some (ids : List Uuid) (name : Uuid) (names : List (Option Uuid)) :
    assignTraces ids (some name :: names) = name :: assignTraces ids names := by
  cases ids <;> rfl

theorem newTraces_none (ids : List Uuid) (names : List (Option Uuid)) :
    newTraces ids (none :: names) = ids.head?.getD Uuid.nil :: newTraces ids.tail names := by
  cases ids <;> rfl

/-- Every part gets the trace that it names, or one of those that are given away. -/
theorem forall₂_assignTraces (ids : List Uuid) (names : List (Option Uuid)) :
    List.Forall₂ (fun name trace => name = some trace ∨ name = none ∧ trace ∈ newTraces ids names)
      names (assignTraces ids names) := by
  induction names generalizing ids with
  | nil => exact .nil
  | cons name names ih =>
    cases name with
    | none =>
      rw [assignTraces_none, newTraces_none]
      refine .cons (Or.inr ⟨rfl, List.mem_cons_self⟩) ((ih ids.tail).imp fun name trace h => ?_)
      exact h.imp_right fun ⟨hnone, hmem⟩ => ⟨hnone, List.mem_cons_of_mem _ hmem⟩
    | some name =>
      rw [assignTraces_some]
      exact .cons (Or.inl rfl) (ih ids)

theorem mem_assignTraces {ids : List Uuid} {names : List (Option Uuid)}
    (h : trace ∈ assignTraces ids names) : trace ∈ newTraces ids names ∨ some trace ∈ names := by
  obtain ⟨name, hname, rfl | ⟨-, hnew⟩⟩ := (mem_of_forall₂ (forall₂_assignTraces ids names)).2 _ h
  · exact Or.inr hname
  · exact Or.inl hnew

/-- Traces that are new and named ones are told apart. -/
theorem nodup_assignTraces {ids : List Uuid} {names : List (Option Uuid)}
    (hnew : (newTraces ids names).Nodup) (hnamed : (names.filterMap id).Nodup)
    (hapart : ∀ trace ∈ newTraces ids names, some trace ∉ names) :
    (assignTraces ids names).Nodup := by
  induction names generalizing ids with
  | nil => exact List.nodup_nil
  | cons name names ih =>
    cases name with
    | none =>
      rw [newTraces_none, List.nodup_cons] at hnew
      rw [newTraces_none, List.forall_mem_cons] at hapart
      rw [assignTraces_none, List.nodup_cons]
      refine ⟨fun hmem => ?_, ih hnew.2 hnamed fun trace htrace hname =>
        hapart.2 trace htrace (List.mem_cons_of_mem _ hname)⟩
      rcases mem_assignTraces hmem with hmem | hmem
      · exact hnew.1 hmem
      · exact hapart.1 (List.mem_cons_of_mem _ hmem)
    | some name =>
      have hnew' : newTraces ids (some name :: names) = newTraces ids names := rfl
      rw [hnew'] at hnew hapart
      simp only [List.filterMap_cons, id, List.nodup_cons] at hnamed
      rw [assignTraces_some, List.nodup_cons]
      refine ⟨fun hmem => ?_, ih hnew hnamed.2 fun trace htrace hname =>
        hapart trace htrace (List.mem_cons_of_mem _ hname)⟩
      rcases mem_assignTraces hmem with hmem | hmem
      · exact hapart name hmem List.mem_cons_self
      · exact hnamed.1 (List.mem_filterMap.2 ⟨_, hmem, rfl⟩)

/-- What a part gets and what is left of the identifiers does not depend on the parts after it. -/
theorem assignTraces_cons (ids : List Uuid) (name : Option Uuid) :
    ∃ trace ids', (∀ names, assignTraces ids (name :: names) = trace :: assignTraces ids' names) ∧
      ∀ n, name = some n → trace = n := by
  cases name with
  | none =>
    refine ⟨_, _, assignTraces_none ids, fun n hn => ?_⟩
    cases hn
  | some name =>
    refine ⟨name, ids, assignTraces_some ids name, fun n hn => ?_⟩
    cases hn
    rfl

/-- A part that is named is there already. -/
theorem exists_part_of_named {slot : Slot} {d : PartDraft} {name : Uuid}
    (h : partOfDraft s caller parent slot d trace = .ok p) (hname : d.trace = some name)
    (htrace : trace = name) : ∃ r ∈ s.parts, r.trace = name := by
  obtain ⟨-, -, -, hnone | hplaceable⟩ := partOfDraft_eq_ok h
  · cases hname.symm.trans hnone
  · obtain ⟨part, hpart⟩ := hplaceable.owned
    obtain ⟨r, hr, hrtrace, -⟩ := Store.part?_eq_some hpart
    exact ⟨r, hr, hrtrace.trans htrace⟩

/-- The children get the traces assigned to them, and those that are named are parts already. -/
theorem traces_of_partsOfDrafts {index : Nat} {ids : List Uuid} {ds : List PartDraft}
    {ps : List Part}
    (h : partsOfDrafts s caller parent index ds (assignTraces ids (ds.map (·.trace))) = .ok ps) :
    ps.map (·.trace) = assignTraces ids (ds.map (·.trace)) ∧
      ∀ name, some name ∈ ds.map (·.trace) → ∃ r ∈ s.parts, r.trace = name := by
  induction ds generalizing index ids ps with
  | nil =>
    cases h
    simp [assignTraces]
  | cons d ds ih =>
    obtain ⟨trace, ids', hassigned, hname⟩ := assignTraces_cons ids d.trace
    rw [List.map_cons, hassigned] at h ⊢
    obtain ⟨p, hp, h⟩ := bind_eq_ok.1 h
    obtain ⟨rest, hrest, h⟩ := bind_eq_ok.1 h
    cases h
    obtain ⟨htraces, hknown⟩ := ih hrest
    have htrace := (partOfDraft_eq_ok hp).1
    refine ⟨by rw [List.map_cons, htrace, htraces], fun name hmem => ?_⟩
    rcases List.mem_cons.1 hmem with hhere | hmem
    · exact exists_part_of_named hp hhere.symm (hname name hhere.symm)
    · exact hknown name hmem

variable {c : Call} {a : Assembly} {removed : List Uuid}

/-- The parts of an assembly have the traces assigned to them. -/
theorem traces_of_draft {ids traces : List Uuid} {draft : AssemblyDraft} {d : PartDraft}
    {children : List Part}
    (hassigned : assignTraces ids ((d :: draft.children).map (·.trace)) = trace :: traces)
    (hpart : partOfDraft s caller trace .parent d trace = .ok p)
    (hchildren : partsOfDrafts s caller trace 0 draft.children traces = .ok children) :
    (⟨maskAmount p, children⟩ : Assembly).traces =
      assignTraces ids ((d :: draft.children).map (·.trace)) := by
  obtain ⟨trace', ids', hassigned', -⟩ := assignTraces_cons ids d.trace
  obtain ⟨rfl, rfl⟩ := List.cons.inj ((hassigned' _).symm.trans hassigned)
  rw [hassigned, ← (traces_of_partsOfDrafts hchildren).1, ← (partOfDraft_eq_ok hpart).1]
  rfl

theorem newTraces_eq_minted {ids : List Uuid} {draft : AssemblyDraft} {d : PartDraft}
    (hop : c.op = .putAssembly ids draft) (hparent : draft.parent = some d) :
    newTraces ids ((d :: draft.children).map (·.trace)) = c.op.minted := by
  rw [hop, Operation.minted, hparent]
  rfl

/-- The parts of an assembly have the traces they name, or some that the operation gives away. -/
theorem forall₂_traces_of_draft {ids traces : List Uuid} {draft : AssemblyDraft} {d : PartDraft}
    (hop : c.op = .putAssembly ids draft) (hparent : draft.parent = some d)
    (hassigned : assignTraces ids ((d :: draft.children).map (·.trace)) = trace :: traces) :
    List.Forall₂ (fun x t => x.trace = some t ∨ x.trace = none ∧ t ∈ c.op.minted)
      (d :: draft.children) (trace :: traces) := by
  rw [← hassigned, ← newTraces_eq_minted hop hparent]
  exact List.forall₂_map_left_iff.1 (forall₂_assignTraces _ _)

/-- The parts of an assembly that obeys the rules are told apart. -/
theorem nodup_traces_of_draft {ids traces : List Uuid} {draft : AssemblyDraft} {d : PartDraft}
    {children : List Part} (hfresh : c.Fresh s) (hop : c.op = .putAssembly ids draft)
    (hrules : Rules.assembly caller draft = []) (hparent : draft.parent = some d)
    (hassigned : assignTraces ids ((d :: draft.children).map (·.trace)) = trace :: traces)
    (hpart : partOfDraft s caller trace .parent d trace = .ok p)
    (hchildren : partsOfDrafts s caller trace 0 draft.children traces = .ok children) :
    (⟨maskAmount p, children⟩ : Assembly).traces.Nodup := by
  have hminted := newTraces_eq_minted hop hparent
  rw [traces_of_draft hassigned hpart hchildren]
  obtain ⟨trace', ids', hassigned', hname⟩ := assignTraces_cons ids d.trace
  obtain ⟨rfl, rfl⟩ := List.cons.inj ((hassigned' _).symm.trans hassigned)
  refine nodup_assignTraces (hminted ▸ hfresh.1) ?_ fun trace hnew hmem => ?_
  · rw [List.filterMap_map]
    exact Rules.nodup_of_assembly hrules hparent
  · have hpresent : ∃ r ∈ s.parts, r.trace = trace := by
      rcases List.mem_cons.1 hmem with hhere | hmem
      · exact exists_part_of_named hpart hhere.symm (hname trace hhere.symm)
      · exact (traces_of_partsOfDrafts hchildren).2 trace hmem
    obtain ⟨r, hr, htrace⟩ := hpresent
    exact hfresh.trace_ne (hminted ▸ hnew) hr htrace

/-- The places that the parts of the assembly had are given up, so that they are free. -/
theorem Drafted.putAssembly_eq_ok (hd : Drafted s caller c.op.minted a removed)
    (harranged : Arranged s) (h : Rooted s) (hfresh : c.Fresh s) (hnodup : a.traces.Nodup) :
    ∃ s', s.putAssembly now a removed = .ok s' := by
  have hfree : ∀ r ∈ Store.placementsOf now a,
      ∀ q ∈ deleteWhere (fun r => r.parent = a.parent.trace || r.trace = a.parent.trace)
        (s.dropParts now a.parent.operator removed).placements,
      decide (q.trace = r.trace) = false := by
    intro r hr q hq
    obtain ⟨hkept, hoff⟩ := mem_deleteWhere.1 hq
    have hq := (mem_deleteWhere.1 hkept).1
    rw [Bool.or_eq_false_iff, decide_eq_false_iff_not, decide_eq_false_iff_not] at hoff
    obtain ⟨hunder, hhead⟩ := hoff
    refine decide_eq_false fun htrace => ?_
    rcases List.mem_cons.1 hr with rfl | hr
    · exact hhead htrace
    · obtain ⟨position, hposition, rfl⟩ := List.mem_mapIdx.1 hr
      exact hunder (hd.parent_of_child harranged h hfresh (List.getElem_mem hposition) hq htrace)
  have hapart : (Store.placementsOf now a).Pairwise fun q r =>
      decide (q.trace = r.trace) = false := by
    have hplaces : ((Store.placementsOf now a).map (·.trace)).Nodup := by
      rw [map_trace_placementsOf]
      exact hnodup
    rw [List.Nodup, List.pairwise_map] at hplaces
    exact hplaces.imp decide_eq_false
  rw [Store.putAssembly, insertAll_eq_some hfree hapart]
  exact ⟨_, rfl⟩

end Footprint
