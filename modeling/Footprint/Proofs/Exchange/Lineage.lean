import Footprint.Proofs.Exchange.Totals
import Footprint.Proofs.Part.Forest

namespace Footprint

open Table Exchange

/-- Live parts and places are the same, and heads stand over parts of their own operator. -/
structure Forest (s : Store) : Prop where
  rows : (s.parts.map (·.trace)).Nodup
  places : (s.placements.map (·.trace)).Nodup
  live : ∀ trace, (∃ r ∈ s.parts, r.trace = trace ∧ r.isLive) ↔
    ∃ q ∈ s.placements, q.trace = trace
  parent : ∀ q ∈ s.placements, q.parent ≠ Uuid.nil →
    q.parent ≠ q.trace ∧
      (∃ r ∈ s.parts, ∃ head ∈ s.parts, r.trace = q.trace ∧ r.isLive ∧ head.trace = q.parent ∧
        head.isLive ∧ head.operator = r.operator) ∧
      ∃ top ∈ s.placements, top.trace = q.parent ∧ top.parent = Uuid.nil
  positions : ∀ parent, parent ≠ Uuid.nil →
    (s.placements.filter (·.parent = parent)).map (·.position) =
      List.range (s.placements.filter (·.parent = parent)).length
  amounts : ∀ q ∈ s.placements, q.parent = Uuid.nil → ∀ r ∈ s.parts, r.trace = q.trace →
    r.amount = none ∧ r.amountUnit = none

variable {now : Instant} {caller : Uuid} {s s' : Store} {a : Assembly}

theorem Forest.of_reachable (h : Reachable s) : Forest s := by
  have harranged := Arranged.of_reachable h
  have hrooted := Rooted.of_reachable h
  refine ⟨nodup_parts h, harranged.traces, hrooted.live, fun q hq hparent => ?_,
    hrooted.grounded.positions, hrooted.amounts⟩
  obtain ⟨top, htop, htrace, hnil⟩ := (hrooted.grounded.rooted q hq).resolve_left hparent
  obtain ⟨r, hr, hrtrace, hrlive⟩ := (hrooted.live _).2 ⟨q, hq, rfl⟩
  obtain ⟨head, hhead, hheadtrace, hheadlive⟩ := (hrooted.live _).2 ⟨top, htop, htrace⟩
  refine ⟨fun hself => ?_, ⟨r, hr, head, hhead, hrtrace, hrlive, hheadtrace, hheadlive, ?_⟩, top,
    htop, htrace, hnil⟩
  · have hsame : top = q := eq_of_key_eq harranged.traces htop hq (htrace.trans hself)
    exact hparent (hsame ▸ hnil)
  · obtain ⟨operator, hchild, hover⟩ := harranged.owners q hq hparent
    have howner {r : PartRecord} {trace : Uuid} (hr : r ∈ s.parts) (htrace : r.trace = trace)
        (hmem : (trace, operator) ∈ s.parts.map PartRecord.owner) : r.operator = operator := by
      obtain ⟨r', hr', howner⟩ := List.mem_map.1 hmem
      have hsame : r' = r :=
        eq_of_key_eq (nodup_parts h) hr' hr ((congrArg Prod.fst howner).trans htrace.symm)
      rw [← hsame]
      exact congrArg Prod.snd howner
    rw [howner hr hrtrace hchild, howner hhead hheadtrace hover]

/-- No row of a part is ever lost or given to another operator. -/
theorem owners_of_accepted {limits : TextLimits} {op : Operation} {reply : Reply}
    (h : Accepted limits now caller s op reply s') {o : Uuid × Uuid}
    (ho : o ∈ s.parts.map PartRecord.owner) : o ∈ s'.parts.map PartRecord.owner := by
  cases assemblyChange_of_accepted h with
  | kept hparts => rwa [hparts]
  | removed _ hwritten =>
    rw [hwritten, Store.removeAssembly, owners_dropParts]
    exact ho
  | stored _ hwritten => exact (owners_putAssembly hwritten).1 o ho

/-- A place is as before, or its part is new. -/
def Settled (s s' : Store) : Prop :=
  (∀ o ∈ s.parts.map PartRecord.owner, o ∈ s'.parts.map PartRecord.owner) ∧
    ∀ q' ∈ s'.placements, (∃ q ∈ s.placements, q.trace = q'.trace ∧ q.parent = q'.parent) ∨
      ∀ r ∈ s.parts, r.trace ≠ q'.trace

theorem Settled.refl : Settled s s :=
  ⟨fun _ ho => ho, fun q hq => Or.inl ⟨q, hq, rfl, rfl⟩⟩

theorem Settled.trans {s'' : Store} (h : Settled s s') (h' : Settled s' s'') : Settled s s'' := by
  refine ⟨fun o ho => h'.1 o (h.1 o ho), fun q'' hq'' => ?_⟩
  rcases h'.2 q'' hq'' with ⟨q', hq', htrace', hparent'⟩ | hnew
  · rw [← htrace', ← hparent']
    exact h.2 q' hq'
  · refine Or.inr fun r hr htrace => ?_
    obtain ⟨r', hr', howner⟩ := List.mem_map.1 (h.1 _ (List.mem_map_of_mem hr))
    exact hnew r' hr' ((congrArg Prod.fst howner).trans htrace)

/-- Parts that an assembly names keep their places, and the others are new. -/
theorem Drafted.settled {c : Call} {removed : List Uuid}
    (hd : Drafted s caller c.op.minted a removed) (harranged : Arranged s) (h : Rooted s)
    (hfresh : c.Fresh s) {q' : PlacementRecord} (hq' : q' ∈ Store.placementsOf now a) :
    (∃ q ∈ s.placements, q.trace = q'.trace ∧ q.parent = q'.parent) ∨
      ∀ r ∈ s.parts, r.trace ≠ q'.trace := by
  have hplaced {slot : Slot} {trace : Uuid}
      (hplaceable : Placeable s caller a.parent.trace slot trace) :
      ∃ q ∈ s.placements, q.trace = trace := by
    obtain ⟨part, hpart⟩ := hplaceable.owned
    obtain ⟨r, hr, htrace, -, hlive, -⟩ := Store.part?_eq_some hpart
    exact (h.live trace).1 ⟨r, hr, htrace, hlive⟩
  have hnew {trace : Uuid} (hminted : trace ∈ c.op.minted) : ∀ r ∈ s.parts, r.trace ≠ trace :=
    fun r hr => hfresh.trace_ne hminted hr
  rcases List.mem_cons.1 hq' with rfl | hq'
  · refine hd.parent.symm.imp (fun hplaceable => ?_) hnew
    obtain ⟨q, hq, htrace⟩ := hplaced hplaceable
    exact ⟨q, hq, htrace, hd.parent_of_head harranged h hfresh hq htrace⟩
  · obtain ⟨position, hposition, rfl⟩ := List.mem_mapIdx.1 hq'
    have hp := List.getElem_mem hposition
    refine (hd.children _ hp).symm.imp (fun ⟨index, hplaceable⟩ => ?_) hnew
    obtain ⟨q, hq, htrace⟩ := hplaced hplaceable
    exact ⟨q, hq, htrace, hd.parent_of_child harranged h hfresh hp hq htrace⟩

theorem settled_after (hs : Reachable s) (c : Call) (hfresh : c.Fresh s) :
    Settled s (c.after s) := by
  rcases c.after_eq s with hsame | ⟨reply, haccepted⟩
  · rw [hsame]
    exact .refl
  · refine ⟨fun o ho => owners_of_accepted haccepted ho, fun q' hq' => ?_⟩
    have harranged := Arranged.of_reachable hs
    have h := Rooted.of_reachable hs
    cases assemblyChange_of_accepted haccepted with
    | kept _ hplacements => exact Or.inl ⟨q', hplacements ▸ hq', rfl, rfl⟩
    | removed _ hwritten =>
      rw [hwritten] at hq'
      exact Or.inl ⟨q', (mem_deleteWhere.1 hq').1, rfl, rfl⟩
    | stored hdrafted hwritten =>
      rw [hdrafted.placements_eq harranged h hwritten] at hq'
      rcases List.mem_append.1 hq' with hq' | hq'
      · exact Or.inl ⟨q', (mem_deleteWhere.1 hq').1, rfl, rfl⟩
      · exact hdrafted.settled harranged h hfresh hq'

/-- A part that was removed does not come back. -/
theorem not_live_after (hs : Reachable s) (c : Call) (hfresh : c.Fresh s) {trace : Uuid}
    (hrow : ∃ r ∈ s.parts, r.trace = trace) (hdead : ¬ ∃ r ∈ s.parts, r.trace = trace ∧ r.isLive) :
    ¬ ∃ r ∈ (c.after s).parts, r.trace = trace ∧ r.isLive := by
  obtain ⟨r, hr, rfl⟩ := hrow
  rw [(Rooted.of_reachable hs).live] at hdead
  rw [(Rooted.of_reachable (hs.call c hfresh)).live]
  rintro ⟨q', hq', htrace⟩
  rcases (settled_after hs c hfresh).2 q' hq' with ⟨q, hq, hsame, -⟩ | hnew
  · exact hdead ⟨q, hq, hsame.trans htrace⟩
  · exact hnew r hr htrace.symm

theorem settled_of_leads (hs : Reachable s) (h : Leads s s') : Reachable s' ∧ Settled s s' := by
  induction h with
  | refl => exact ⟨hs, .refl⟩
  | tail _ hcall ih =>
    obtain ⟨c, hfresh, rfl⟩ := hcall
    exact ⟨ih.1.call c hfresh, ih.2.trans (settled_after ih.1 c hfresh)⟩

/-- Every reachable store is a forest of depth one. Whatever follows, the row of a part stays with
its operator, and as long as the part is live it was live all the time and stands where it stood. -/
theorem forest_of_depth_one (hs : Reachable s) :
    Forest s ∧ ∀ s', Leads s s' → ∀ r ∈ s.parts, ∃ r' ∈ s'.parts, r'.trace = r.trace ∧
      r'.operator = r.operator ∧
      (r'.isLive → r.isLive ∧ ∀ q ∈ s.placements, ∀ q' ∈ s'.placements, q.trace = r.trace →
        q'.trace = r.trace → q'.parent = q.parent) := by
  have hforest := Forest.of_reachable hs
  refine ⟨hforest, fun s' hleads r hr => ?_⟩
  obtain ⟨hs', howners, hplaces⟩ := settled_of_leads hs hleads
  have hforest' := Forest.of_reachable hs'
  obtain ⟨r', hr', howner⟩ := List.mem_map.1 (howners _ (List.mem_map_of_mem hr))
  have htrace : r'.trace = r.trace := congrArg Prod.fst howner
  have hbefore {q' : PlacementRecord} (hq' : q' ∈ s'.placements) (hhere : q'.trace = r.trace) :
      ∃ q ∈ s.placements, q.trace = r.trace ∧ q.parent = q'.parent := by
    rcases hplaces q' hq' with ⟨q, hq, hsame, hparent⟩ | hnew
    · exact ⟨q, hq, hsame.trans hhere, hparent⟩
    · exact absurd hhere.symm (hnew r hr)
  refine ⟨r', hr', htrace, congrArg Prod.snd howner, fun hlive => ⟨?_, ?_⟩⟩
  · obtain ⟨q', hq', hhere⟩ := (hforest'.live _).1 ⟨r', hr', htrace, hlive⟩
    obtain ⟨q, hq, hthere, -⟩ := hbefore hq' hhere
    obtain ⟨r₀, hr₀, htrace₀, hlive₀⟩ := (hforest.live _).2 ⟨q, hq, hthere⟩
    rwa [eq_of_key_eq hforest.rows hr₀ hr htrace₀] at hlive₀
  · intro q hq q' hq' hthere hhere
    obtain ⟨q₀, hq₀, hthere₀, hparent⟩ := hbefore hq' hhere
    rw [← hparent, eq_of_key_eq hforest.places hq₀ hq (hthere₀.trans hthere.symm)]

/-- Operator 1 removes its part with the components. -/
def componentRemoval : Call :=
  sampleCall ⟨1⟩ (.removeAssembly (.v4 10))

theorem after_componentRemoval : componentRemoval.after componentStore =
    componentStore.removeAssembly ⟨0, 0⟩ componentAssembly := by
  have huntraded : componentAssembly.traces.forM (requireUntraded componentStore) = .ok () := by
    decide +kernel
  have hplan : removeAssembly ⟨1⟩ (.v4 10) componentStore =
      .ok (.removeAssembly componentAssembly, ()) := by
    rw [removeAssembly, assembly_of_componentStore, ok_bind]
    simp only [huntraded, ok_bind]
  have hrun : componentRemoval.op.run componentRemoval.limits componentRemoval.now
      componentRemoval.caller componentStore =
        .ok (.done, componentStore.removeAssembly ⟨0, 0⟩ componentAssembly) := by
    rw [Operation.run, Plan.run, componentRemoval, sampleCall, Operation.plan, Operation.withReply,
      hplan]
    rfl
  rw [Call.after, hrun]

/-- The first component stands under the part and is gone with it; all rows stay with operator
1. -/
theorem forest_of_depth_one_component :
    Forest componentStore ∧
      (∃ q ∈ componentStore.placements, q.trace = .v4 11 ∧ q.parent = .v4 10 ∧ q.position = 0) ∧
      (componentRemoval.after componentStore).placements = [] ∧
      ∀ r ∈ componentStore.parts, ∃ r' ∈ (componentRemoval.after componentStore).parts,
        r'.trace = r.trace ∧ r'.operator = r.operator := by
  have hforest := forest_of_depth_one reachable_componentStore
  have hleads : Leads componentStore (componentRemoval.after componentStore) :=
    Leads.call .refl componentRemoval (by decide +kernel)
  refine ⟨hforest.1, by decide +kernel, ?_, fun r hr => ?_⟩
  · rw [after_componentRemoval]
    decide +kernel
  obtain ⟨r', hr', htrace, hoperator, -⟩ := hforest.2 _ hleads r hr
  exact ⟨r', hr', htrace, hoperator⟩

end Footprint
