import Footprint.Proofs.Part.Moves

namespace Footprint

open Table Exchange

/-- The part as its columns keep it. -/
def Part.stored (p : Part) : Part :=
  { p with amount := p.amount.map storedNumber }

def Assembly.stored (a : Assembly) : Assembly :=
  ⟨a.parent.stored, a.children.map (·.stored)⟩

/-- The part is the submitted one as a part of the caller, under the trace that it names or under a
new one. -/
structure PartDraft.Becomes (c : Call) (d : PartDraft) (p : Part) : Prop where
  operator : p.operator = c.caller
  trace : d.trace = some p.trace ∨ d.trace = none ∧ p.trace ∈ c.op.minted
  plant : d.plant = some p.plant
  name : p.name = d.name
  supportName : p.supportName = d.supportName
  terminal : p.terminal = d.terminal

/-- Whether a trace is of no part of the assembly and of none that its head had before. -/
def Store.isApart (s : Store) (a : Assembly) (trace : Uuid) : Bool :=
  !(a.traces ++ s.childTraces a.parent.trace).contains trace

/-- The assembly that is answered to a draft and the store that is left. -/
structure AssemblyPut (s : Store) (c : Call) (draft : AssemblyDraft) (a : Assembly) (s' : Store) :
    Prop where
  parent : ∃ d, draft.parent = some d ∧ d.Becomes c a.parent
  masked : a.parent.amount = none ∧ a.parent.amountUnit = none
  children : List.Forall₂ (fun d p => d.Becomes c p ∧ p.amount = d.amount ∧
    p.amountUnit = d.amountUnit) draft.children a.children
  told_apart : a.traces.Nodup
  reads : s'.assembly? c.caller a.parent.trace = .ok (some a.stored)
  dropped : ∀ trace ∈ s.childTraces a.parent.trace, trace ∉ a.traces →
    (¬ ∃ r ∈ s'.parts, r.trace = trace ∧ r.isLive) ∧ (∀ q ∈ s'.placements, q.trace ≠ trace) ∧
      ∀ r ∈ s'.figures, r.trace ≠ trace
  kept : ∀ trace ∈ a.traces,
    (s'.figures.filter fun r => r.trace = trace) = s.figures.filter fun r => r.trace = trace
  trades : s'.trades = s.trades
  statuses : s'.statuses = s.statuses
  parts_apart : (s'.parts.filter fun r => s.isApart a r.trace) =
    s.parts.filter fun r => s.isApart a r.trace
  placements_apart : (s'.placements.filter fun q => s.isApart a q.trace) =
    s.placements.filter fun q => s.isApart a q.trace
  figures_apart : (s'.figures.filter fun r => s.isApart a r.trace) =
    s.figures.filter fun r => s.isApart a r.trace

variable {s s' : Store} {c : Call} {caller trace : Uuid} {draft : AssemblyDraft} {d : PartDraft}
variable {a : Assembly} {p : Part} {ids removed : List Uuid} {now : Instant}

/-- The parts that are stored are the submitted ones. -/
theorem assemblyOf_of_parts {traces : List Uuid} {children : List Part}
    (hrules : Rules.assembly caller draft = []) (hparent : draft.parent = some d)
    (hassigned : assignTraces ids ((d :: draft.children).map (·.trace)) = trace :: traces)
    (hpart : partOfDraft s caller trace .parent d trace = .ok p)
    (hchildren : partsOfDrafts s caller trace 0 draft.children traces = .ok children) :
    (⟨maskAmount p, children⟩ : Assembly) = assemblyOf caller d draft.children trace traces := by
  obtain ⟨hhead, hobeys⟩ := List.forall_mem_cons.1 (Rules.obeys_of_assembly hrules hparent)
  obtain ⟨trace', ids', hassigned', hname⟩ := assignTraces_cons ids d.trace
  obtain ⟨rfl, rfl⟩ := List.cons.inj ((hassigned' _).symm.trans hassigned)
  rw [partOfDraft_eq hhead.plant hname] at hpart
  rw [partsOfDrafts_eq fun x hx => (hobeys x hx).plant] at hchildren
  obtain ⟨-, -, ⟨⟩⟩ := bind_eq_ok.1 hpart
  obtain ⟨-, -, ⟨⟩⟩ := bind_eq_ok.1 hchildren
  rfl

theorem becomes_asPart (hobeys : d.Obeys c.caller)
    (htrace : d.trace = some trace ∨ d.trace = none ∧ trace ∈ c.op.minted) :
    d.Becomes c (d.asPart c.caller trace) := by
  obtain ⟨plant, hplant⟩ := hobeys.plant
  exact ⟨rfl, htrace, by simp [PartDraft.asPart, hplant], rfl, rfl, rfl⟩

theorem PartDraft.Becomes.mask (h : d.Becomes c p) : d.Becomes c (maskAmount p) :=
  ⟨h.operator, h.trace, h.plant, h.name, h.supportName, h.terminal⟩

theorem forall₂_childrenOf {ds : List PartDraft} {traces : List Uuid}
    (hobeys : ∀ d ∈ ds, d.Obeys c.caller)
    (h : List.Forall₂ (fun d t => d.trace = some t ∨ d.trace = none ∧ t ∈ c.op.minted) ds traces) :
    List.Forall₂ (fun d p => d.Becomes c p ∧ p.amount = d.amount ∧ p.amountUnit = d.amountUnit)
      ds (childrenOf c.caller ds traces) := by
  induction h with
  | nil => exact .nil
  | cons htrace _ ih =>
    obtain ⟨hhere, hobeys⟩ := List.forall_mem_cons.1 hobeys
    exact .cons ⟨becomes_asPart hhere htrace, rfl, rfl⟩ (ih hobeys)

/-- The row that a part of the assembly is written to. -/
theorem livePart_of_written (hs : Reachable s) (hdrawn : ∀ p ∈ a.parts, Drawn s caller p)
    (hnodup : a.traces.Nodup) (hwritten : s.putAssembly now a removed = .ok s') (hp : p ∈ a.parts) :
    s'.LivePart p.stored := by
  obtain ⟨-, -, -, hparts, -⟩ := Store.putAssembly_eq_ok hwritten
  obtain ⟨r, hr, howner⟩ := List.mem_map.1 (owner_of_drawn (nodup_parts hs) hdrawn hwritten hp)
  obtain ⟨htrace, hoperator⟩ := Prod.mk.inj howner
  refine ⟨r, hr, ?_⟩
  rw [hparts] at hr
  rcases mem_writeParts hr with ⟨-, hothers⟩ | ⟨q, hq, r', rfl⟩
  · exact absurd htrace.symm (hothers p hp)
  · obtain rfl : q = p := eq_of_key_eq hnodup hq hp htrace
    refine ⟨rfl, PartRecord.part_eq_ok.2 ⟨rfl, ?_, rfl, rfl, rfl, rfl, rfl, rfl⟩⟩
    exact ((hdrawn q hp).1.trans hoperator.symm)

theorem filter_placementsOf (hnamed : a.parent.trace ≠ Uuid.nil) :
    ((Store.placementsOf now a).filter fun q => q.parent = a.parent.trace) =
      a.children.mapIdx fun position child => ⟨child.trace, a.parent.trace, position, now⟩ := by
  rw [Store.placementsOf, List.filter_cons_of_neg (by simpa using hnamed.symm)]
  refine List.filter_eq_self.2 fun q hq => ?_
  obtain ⟨position, hposition, rfl⟩ := List.mem_mapIdx.1 hq
  exact decide_eq_true rfl

namespace Drafted

variable (hd : Drafted s caller c.op.minted a removed) (harranged : Arranged s) (h : Rooted s)
variable (hfresh : c.Fresh s)

include hd harranged h hfresh

/-- The children that are read are the new ones in their order. -/
theorem childTraces_eq (hwritten : s.putAssembly now a removed = .ok s') :
    s'.childTraces a.parent.trace = a.children.map (·.trace) := by
  have hnamed : a.parent.trace ≠ Uuid.nil :=
    (hd.drawn hfresh List.mem_cons_self).ne_nil harranged.named
  have hnone : (deleteWhere (PlacementRecord.isOf a.parent.trace) s.placements).filter
      (fun q => q.parent = a.parent.trace) = [] := by
    refine List.filter_eq_nil_iff.2 fun q hq hunder => ?_
    exact (PlacementRecord.isOf_eq_false.1 (mem_deleteWhere.1 hq).2).1 (of_decide_eq_true hunder)
  have hsorted : (a.children.mapIdx fun position child =>
      (⟨child.trace, a.parent.trace, position, now⟩ : PlacementRecord)).Pairwise
        fun q r => q.position < r.position := by
    rw [← List.pairwise_map (f := PlacementRecord.position), positions_of_children]
    exact List.pairwise_lt_range
  rw [Store.childTraces, hd.placements_eq harranged h hwritten, List.filter_append, hnone,
    List.nil_append, filter_placementsOf hnamed,
    ← eq_mergeSort_of_perm PlacementRecord.position (by simp) (.refl _) hsorted]
  exact (List.cons.inj map_trace_placementsOf).2

/-- What is dropped is what stood under the head and has no place in the assembly. -/
theorem mem_removed_iff :
    trace ∈ removed ↔ trace ∈ s.childTraces a.parent.trace ∧ trace ∉ a.traces := by
  rw [mem_childTraces]
  constructor
  · intro hremoved
    obtain ⟨⟨q, hq, htrace, hunder⟩, hchildren⟩ := hd.place_of_removed h hremoved
    refine ⟨⟨q, hq, htrace, hunder⟩, fun hmem => ?_⟩
    obtain ⟨p, hp, hptrace⟩ := List.mem_map.1 hmem
    rcases List.mem_cons.1 hp with rfl | hp
    · have hnil := hd.parent_of_head harranged h hfresh hq (htrace.trans hptrace.symm)
      exact (hd.drawn hfresh List.mem_cons_self).ne_nil harranged.named (hunder.symm.trans hnil)
    · exact hchildren p hp hptrace
  · rintro ⟨⟨q, hq, rfl, hunder⟩, hother⟩
    refine (hd.child_or_removed harranged h hfresh hq hunder).resolve_left ?_
    rintro ⟨p, hp, htrace⟩
    exact hother (List.mem_map.2 ⟨p, List.mem_cons_of_mem _ hp, htrace⟩)

end Drafted

theorem isApart_eq_false :
    s.isApart a trace = false ↔ trace ∈ a.traces ∨ trace ∈ s.childTraces a.parent.trace := by
  simp [Store.isApart, or_iff_not_imp_left]

theorem filter_parts_isApart
    (hremoved : ∀ trace ∈ removed, trace ∈ s.childTraces a.parent.trace)
    (hwritten : s.putAssembly now a removed = .ok s') :
    (s'.parts.filter fun r => s.isApart a r.trace) =
      s.parts.filter fun r => s.isApart a r.trace := by
  obtain ⟨-, -, -, hparts, -⟩ := Store.putAssembly_eq_ok hwritten
  rw [hparts, filter_writeParts]
  · refine filter_updateWhere_eq fun r _ hselected => ?_
    have hnot := isApart_eq_false.2 (Or.inr (hremoved _ (List.contains_iff_mem.1 hselected)))
    exact ⟨hnot, hnot⟩
  · intro p r htrace
    rw [PartRecord.revise, PartRecord.ofPart, htrace]
  · intro p hp
    have hnot : s.isApart a p.trace = false := isApart_eq_false.2 (Or.inl (List.mem_map_of_mem hp))
    exact ⟨hnot, fun r _ htrace => htrace ▸ hnot⟩

theorem filter_placements_isApart (hd : Drafted s caller c.op.minted a removed)
    (harranged : Arranged s) (h : Rooted s) (hwritten : s.putAssembly now a removed = .ok s') :
    (s'.placements.filter fun q => s.isApart a q.trace) =
      s.placements.filter fun q => s.isApart a q.trace := by
  rw [hd.placements_eq harranged h hwritten, filter_append_eq, filter_deleteWhere_eq]
  · intro q hq hof
    refine isApart_eq_false.2 ?_
    rcases Bool.or_eq_true_iff.1 hof with hunder | hhead
    · exact Or.inr (mem_childTraces.2 ⟨q, hq, rfl, of_decide_eq_true hunder⟩)
    · exact Or.inl (List.mem_map.2 ⟨a.parent, List.mem_cons_self, (of_decide_eq_true hhead).symm⟩)
  · intro q hq
    obtain ⟨p, hp, htrace⟩ := trace_placementsOf.1 ⟨q, hq, rfl⟩
    exact isApart_eq_false.2 (Or.inl (List.mem_map.2 ⟨p, hp, htrace⟩))

theorem filter_figures_isApart
    (hremoved : ∀ trace ∈ removed, trace ∈ s.childTraces a.parent.trace)
    (hwritten : s.putAssembly now a removed = .ok s') :
    (s'.figures.filter fun r => s.isApart a r.trace) =
      s.figures.filter fun r => s.isApart a r.trace := by
  obtain ⟨-, -, hfigures, -⟩ := Store.putAssembly_eq_ok hwritten
  rw [hfigures]
  exact filter_deleteWhere_eq fun r _ hselected =>
    isApart_eq_false.2 (Or.inr (hremoved _ (List.contains_iff_mem.1 hselected)))

theorem figures_of_kept (hkept : trace ∉ removed)
    (hwritten : s.putAssembly now a removed = .ok s') :
    (s'.figures.filter fun r => r.trace = trace) = s.figures.filter fun r => r.trace = trace := by
  obtain ⟨-, -, hfigures, -⟩ := Store.putAssembly_eq_ok hwritten
  rw [hfigures]
  refine filter_deleteWhere_eq fun r _ hselected => decide_eq_false ?_
  rintro rfl
  exact hkept (List.contains_iff_mem.1 hselected)

theorem gone_of_removed (hs : Reachable s) (hs' : Reachable s') (hfresh : c.Fresh s)
    (hd : Drafted s caller c.op.minted a removed) (hwritten : s.putAssembly now a removed = .ok s')
    (hremoved : trace ∈ removed) :
    (¬ ∃ r ∈ s'.parts, r.trace = trace ∧ r.isLive) ∧ (∀ q ∈ s'.placements, q.trace ≠ trace) ∧
      ∀ r ∈ s'.figures, r.trace ≠ trace := by
  obtain ⟨-, -, hfigures, -⟩ := Store.putAssembly_eq_ok hwritten
  have hdead := hd.not_live_of_removed (Arranged.of_reachable hs) (Rooted.of_reachable hs) hfresh
    hwritten hremoved
  refine ⟨hdead, fun q hq htrace => hdead ?_, fun r hr htrace => ?_⟩
  · exact ((Rooted.of_reachable hs').live trace).2 ⟨q, hq, htrace⟩
  · rw [hfigures, mem_deleteWhere, htrace] at hr
    simp [hremoved] at hr

theorem reads_of_written (hs : Reachable s) (hs' : Reachable s') (hfresh : c.Fresh s)
    (hd : Drafted s c.caller c.op.minted a removed) (hnodup : a.traces.Nodup)
    (hwritten : s.putAssembly now a removed = .ok s') :
    s'.assembly? c.caller a.parent.trace = .ok (some a.stored) := by
  have harranged := Arranged.of_reachable hs
  have hrooted := Rooted.of_reachable hs
  have hlive {p : Part} (hp : p ∈ a.parts) : s'.LivePart p.stored :=
    livePart_of_written hs (fun p hp => hd.drawn hfresh hp) hnodup hwritten hp
  have hplace : (⟨a.parent.trace, Uuid.nil, 0, now⟩ : PlacementRecord) ∈ s'.placements := by
    rw [hd.placements_eq harranged hrooted hwritten]
    exact List.mem_append_right _ List.mem_cons_self
  have hparent : s'.isParent a.parent.trace :=
    (isParent_of_mem (Arranged.of_reachable hs') hplace).trans (decide_eq_true rfl)
  refine (assembly?_eq_some_iff hs').2
    ⟨⟨hlive List.mem_cons_self, rfl, hd.operator a.parent List.mem_cons_self⟩, hparent, ?_, ?_⟩
  · rw [hd.childTraces_eq harranged hrooted hfresh hwritten, Assembly.stored, List.map_map]
    rfl
  · intro p hp
    obtain ⟨q, hq, rfl⟩ := List.mem_map.1 hp
    exact hlive (List.mem_cons_of_mem _ hq)

/-- In a reachable store a call that is answered with an assembly has stored the submitted one: its
parts are the submitted ones in their order, owned by the caller, under the traces that they name or
under new ones, and the head has no amount. It is read as it was answered, but for the sign of a
zero amount. Children that the head had and that are left out are not live, and their places and
figures are gone; figures of parts of the assembly stay. No trade and no status changes, and no row
of a part that is neither in the assembly nor was a child of its head. -/
theorem assembly_put_exact (hs : Reachable s) (hfresh : c.Fresh s)
    (hop : c.op = .putAssembly ids draft) (hserved : c.served s = (.ok (.assembly a), s')) :
    AssemblyPut s c draft a s' := by
  have harranged := Arranged.of_reachable hs
  have hrooted := Rooted.of_reachable hs
  have hs' : Reachable s' := reachable_of_served hs hfresh hserved
  have haccepted := accepted_of_run (run_of_served hserved)
  rw [hop] at haccepted
  cases haccepted with
  | @putAssembly _ _ d trace traces parent children existing _ hrules hparent hassigned hpart
      hchildren hexisting _ hwritten =>
    have hd := drafted_of_parts hparent hassigned hpart hchildren hexisting
    rw [← hop] at hd
    have hnodup := nodup_traces_of_draft hfresh hop hrules hparent hassigned hpart hchildren
    have hsubmitted := assemblyOf_of_parts hrules hparent hassigned hpart hchildren
    obtain ⟨hhead, hobeys⟩ := List.forall_mem_cons.1 (Rules.obeys_of_assembly hrules hparent)
    obtain ⟨hheadTrace, htraces⟩ :=
      List.forall₂_cons.1 (forall₂_traces_of_draft hop hparent hassigned)
    generalize hremoved : droppedTraces existing children = removed at hd hwritten
    generalize ha : (⟨maskAmount parent, children⟩ : Assembly) = a
      at hd hnodup hwritten hsubmitted ⊢
    have hmem {t : Uuid} : t ∈ removed ↔ t ∈ s.childTraces a.parent.trace ∧ t ∉ a.traces :=
      hd.mem_removed_iff harranged hrooted hfresh
    obtain ⟨htrades, hstatuses, -⟩ := Store.putAssembly_eq_ok hwritten
    constructor
    case parent =>
      rw [hsubmitted]
      exact ⟨d, hparent, (becomes_asPart hhead hheadTrace).mask⟩
    case masked => exact ⟨hd.amount, hd.amountUnit⟩
    case children =>
      rw [hsubmitted]
      exact forall₂_childrenOf hobeys htraces
    case told_apart => exact hnodup
    case reads => exact reads_of_written hs hs' hfresh hd hnodup hwritten
    case dropped =>
      intro t hchild hother
      exact gone_of_removed hs hs' hfresh hd hwritten (hmem.2 ⟨hchild, hother⟩)
    case kept =>
      intro t ht
      exact figures_of_kept (fun hremoved => (hmem.1 hremoved).2 ht) hwritten
    case trades => exact htrades
    case statuses => exact hstatuses
    case parts_apart => exact filter_parts_isApart (fun _ hr => (hmem.1 hr).1) hwritten
    case placements_apart => exact filter_placements_isApart hd harranged hrooted hwritten
    case figures_apart => exact filter_figures_isApart (fun _ hr => (hmem.1 hr).1) hwritten

theorem exists_served_of_succeeds (hop : c.op = .putAssembly ids draft) (h : c.Succeeds s) :
    ∃ a s', c.served s = (.ok (.assembly a), s') := by
  obtain ⟨reply, hreply⟩ := succeeds_iff_served.1 h
  have hserved : c.served s = (.ok reply, (c.served s).2) := Prod.ext hreply rfl
  have haccepted := accepted_of_run (run_of_served hserved)
  rw [hop] at haccepted
  cases haccepted with
  | putAssembly => exact ⟨_, _, hserved⟩

/-- Part 11 gives way to the new part 13. -/
theorem assembly_put_exact_pair :
    ∃ a s', replacement.served pairStore = (.ok (.assembly a), s') ∧
      a.traces = [.v4 10, .v4 13, .v4 12] ∧
      AssemblyPut pairStore replacement replacementDraft a s' := by
  have hfresh : replacement.Fresh pairStore := by decide +kernel
  obtain ⟨a, s', hserved⟩ := exists_served_of_succeeds rfl
    (legal_replacement.succeeds (c := replacement) reachable_pairStore hfresh rfl)
  have hput := assembly_put_exact reachable_pairStore hfresh rfl hserved
  have hminted : replacement.op.minted = [.v4 13] := by decide +kernel
  refine ⟨a, s', hserved, ?_, hput⟩
  obtain ⟨top, children⟩ := a
  obtain ⟨d, ⟨⟩, hhead⟩ := hput.parent
  obtain ⟨first, second, hnew, hold, rfl⟩ : ∃ first second,
      (pairPart none (some (-0.0))).Becomes replacement first ∧
      (pairPart (some (.v4 12)) none).Becomes replacement second ∧ children = [first, second] := by
    cases hput.children with
    | cons hnew hrest =>
      cases hrest with
      | cons hold hnil =>
        cases hnil
        exact ⟨_, _, hnew.1, hold.1, rfl⟩
  have hnewTrace := hnew.trace.resolve_left nofun
  rw [hminted, List.mem_singleton] at hnewTrace
  have hheadTrace : some (.v4 10) = some top.trace := hhead.trace.resolve_right nofun
  have holdTrace : some (.v4 12) = some second.trace := hold.trace.resolve_right nofun
  simp only [Assembly.traces, Assembly.parts, List.map_cons, List.map_nil, hnewTrace.2,
    ← Option.some.inj hheadTrace, ← Option.some.inj holdTrace]

end Footprint
