import Footprint.Proofs.Exchange.Canonical
import Footprint.Proofs.Exchange.Isolation
import Footprint.Proofs.Exchange.Served
import Footprint.Proofs.Part.Ordered
import Footprint.Proofs.Part.Storable

namespace Footprint

open Table Exchange

/-- The trace that is named for the head. -/
def AssemblyDraft.head (draft : AssemblyDraft) : Option Uuid :=
  draft.parent.bind (·.trace)

def namedSlotsFrom : Nat → List PartDraft → List (Slot × Uuid)
  | _, [] => []
  | index, d :: ds => (d.trace.map (Slot.child index, ·)).toList ++ namedSlotsFrom (index + 1) ds

/-- The traces that are named and their slots, the head first. -/
def AssemblyDraft.namedSlots (draft : AssemblyDraft) : List (Slot × Uuid) :=
  (draft.head.map (Slot.parent, ·)).toList ++ namedSlotsFrom 0 draft.children

/-- The traces under the head that no child names, in the order of their places. -/
def AssemblyDraft.omitted (s : Store) (draft : AssemblyDraft) : List Uuid :=
  ((draft.head.map s.childTraces).getD []).filter fun trace =>
    draft.children.all (·.trace ≠ some trace)

/-- A live part of the operator in the place that the slot asks for. -/
def Store.Admits (s : Store) (operator : Uuid) (head : Option Uuid) : Slot × Uuid → Prop
  | (.parent, trace) => s.holds operator trace ∧ s.Heads trace
  | (.child _, trace) => s.holds operator trace ∧ ∃ top, head = some top ∧ trace ∈ s.childTraces top

/-- Some live trade is for the part or is answered with it. -/
def Store.Traded (s : Store) (trace : Uuid) : Prop :=
  ∃ t ∈ s.trades, t.isLive ∧ (t.requesterPart = trace ∨ t.supplierPart = some trace)

instance (s : Store) (trace : Uuid) : Decidable (s.Traded trace) :=
  inferInstanceAs (Decidable (∃ t ∈ s.trades, _))

/-- An assembly obeys the rules, its parts are new or in their place, and what it leaves out is in
no live trade. -/
structure LegalMove (s : Store) (operator : Uuid) (draft : AssemblyDraft) : Prop where
  rules : Rules.assembly operator draft = []
  parent : ∀ trace, draft.head = some trace → s.holds operator trace ∧ s.Heads trace
  children : ∀ child ∈ draft.children, ∀ trace, child.trace = some trace →
    s.holds operator trace ∧ ∃ top, draft.head = some top ∧ trace ∈ s.childTraces top
  omitted : ∀ top, draft.head = some top → ∀ trace ∈ s.childTraces top,
    (∀ child ∈ draft.children, child.trace ≠ some trace) → ¬ s.Traded trace

/-- Why an assembly is refused: for all the rules it breaks, for the first part that is named and
out of place, or for the first part that is left out and traded. -/
inductive MoveRefused (s : Store) (operator : Uuid) (draft : AssemblyDraft) : Error → Prop
  | rules (broken : Rules.assembly operator draft ≠ []) :
      MoveRefused s operator draft (.invalid (Rules.assembly operator draft))
  | missing {before slot trace after} (rules : Rules.assembly operator draft = [])
      (named : draft.namedSlots = before ++ (slot, trace) :: after)
      (earlier : ∀ x ∈ before, s.Admits operator draft.head x)
      (hidden : s.holds operator trace = false) :
      MoveRefused s operator draft (.partNotFound trace)
  | misplaced {before slot trace after} (rules : Rules.assembly operator draft = [])
      (named : draft.namedSlots = before ++ (slot, trace) :: after)
      (earlier : ∀ x ∈ before, s.Admits operator draft.head x)
      (held : s.holds operator trace) (place : ¬ s.Admits operator draft.head (slot, trace)) :
      MoveRefused s operator draft (.invalid [.otherAssembly trace])
  | traded {before trace after} (rules : Rules.assembly operator draft = [])
      (named : ∀ x ∈ draft.namedSlots, s.Admits operator draft.head x)
      (omitted : draft.omitted s = before ++ trace :: after)
      (earlier : ∀ t ∈ before, ¬ s.Traded t) (traded : s.Traded trace) :
      MoveRefused s operator draft (.partInUse trace)

variable {s : Store} {c : Call} {caller parent trace : Uuid} {head : Option Uuid} {slot : Slot}
variable {draft : AssemblyDraft} {d : PartDraft} {ds : List PartDraft} {index : Nat}
variable {ids : List Uuid}

theorem slot_of_namedSlotsFrom (h : (slot, trace) ∈ namedSlotsFrom index ds) :
    (∃ i, slot = .child i) ∧ ∃ d ∈ ds, d.trace = some trace := by
  induction ds generalizing index with
  | nil => cases h
  | cons d ds ih =>
    rw [namedSlotsFrom, List.mem_append, Option.mem_toList, Option.map_eq_some_iff] at h
    rcases h with ⟨_, hname, heq⟩ | h
    · obtain ⟨rfl, rfl⟩ := Prod.mk.inj heq
      exact ⟨⟨index, rfl⟩, d, List.mem_cons_self, hname⟩
    · obtain ⟨hslot, child, hchild, hname⟩ := ih h
      exact ⟨hslot, child, List.mem_cons_of_mem _ hchild, hname⟩

theorem exists_mem_namedSlotsFrom (hd : d ∈ ds) (hname : d.trace = some trace) :
    ∃ i, (Slot.child i, trace) ∈ namedSlotsFrom index ds := by
  induction ds generalizing index with
  | nil => cases hd
  | cons first ds ih =>
    rw [namedSlotsFrom]
    rcases List.mem_cons.1 hd with rfl | hd
    · exact ⟨index, List.mem_append_left _ (by simp [hname])⟩
    · obtain ⟨i, hmem⟩ := ih hd
      exact ⟨i, List.mem_append_right _ hmem⟩

theorem forall_namedSlots_iff : (∀ x ∈ draft.namedSlots, s.Admits caller draft.head x) ↔
    (∀ trace, draft.head = some trace → s.holds caller trace ∧ s.Heads trace) ∧
      ∀ child ∈ draft.children, ∀ trace, child.trace = some trace →
        s.holds caller trace ∧ ∃ top, draft.head = some top ∧ trace ∈ s.childTraces top := by
  simp only [AssemblyDraft.namedSlots, List.forall_mem_append, Option.mem_toList,
    Option.map_eq_some_iff, forall_exists_index, and_imp]
  refine and_congr ⟨fun h trace hname => h _ trace hname rfl, ?_⟩
    ⟨fun h child hchild trace hname => ?_, fun h x hx => ?_⟩
  · rintro h _ trace hname rfl
    exact h trace hname
  · obtain ⟨i, hmem⟩ := exists_mem_namedSlotsFrom hchild hname
    exact h _ hmem
  · obtain ⟨slot, trace⟩ := x
    obtain ⟨⟨i, rfl⟩, child, hchild, hname⟩ := slot_of_namedSlotsFrom hx
    exact h child hchild trace hname

/-- The parent that children are checked against is the head that is named, or a new one. -/
def Store.HeadIs (s : Store) (head : Option Uuid) (parent : Uuid) : Prop :=
  head = some parent ∨ head = none ∧ ∀ q ∈ s.placements, q.parent ≠ parent

theorem Store.HeadIs.mem_childTraces_iff (h : s.HeadIs head parent) :
    trace ∈ s.childTraces parent ↔ ∃ top, head = some top ∧ trace ∈ s.childTraces top := by
  rcases h with rfl | ⟨rfl, hnone⟩
  · simp
  · simp only [reduceCtorEq, false_and, exists_false, iff_false, mem_childTraces]
    rintro ⟨q, hq, -, hunder⟩
    exact hnone q hq hunder

theorem keepsPlace_parent {q : PlacementRecord} :
    keepsPlace parent q.placement .parent ↔ q.parent = Uuid.nil :=
  ⟨of_decide_eq_true, decide_eq_true⟩

theorem keepsPlace_child {q : PlacementRecord} :
    keepsPlace parent q.placement (.child index) ↔ q.parent = parent :=
  ⟨of_decide_eq_true, decide_eq_true⟩

/-- A live part has a place. -/
theorem exists_place_of_holds (hs : Reachable s) (hholds : s.holds caller trace) :
    ∃ q ∈ s.placements, q.trace = trace := by
  obtain ⟨r, hr, htrace, hlive, -⟩ := exists_part_of_holds hs hholds
  exact ((Rooted.of_reachable hs).live trace).1 ⟨r, hr, htrace, hlive⟩

theorem placeable_iff_kept (hs : Reachable s) :
    Placeable s caller parent slot trace ↔ s.holds caller trace ∧
      ∃ q ∈ s.placements, q.trace = trace ∧ keepsPlace parent q.placement slot := by
  have harranged := Arranged.of_reachable hs
  constructor
  · rintro ⟨⟨part, hpart⟩, hkeeps⟩
    have hholds := Store.holds_of_part? hpart
    obtain ⟨q, hq, rfl⟩ := exists_place_of_holds hs hholds
    exact ⟨hholds, q, hq, rfl, hkeeps _ (placement?_of_mem harranged hq)⟩
  · rintro ⟨hholds, q, hq, rfl, hkeeps⟩
    obtain ⟨-, -, -, -, part, hpart, -⟩ := exists_part_of_holds hs hholds
    refine ⟨⟨part, hpart⟩, fun place hplace => ?_⟩
    rw [placement?_of_mem harranged hq] at hplace
    cases hplace
    exact hkeeps

theorem placeable_iff (hs : Reachable s) (hhead : s.HeadIs head parent) :
    Placeable s caller parent slot trace ↔ s.Admits caller head (slot, trace) := by
  rw [placeable_iff_kept hs]
  cases slot with
  | parent => simp only [keepsPlace_parent, Store.Admits, Store.Heads]
  | child i =>
    rw [Store.Admits, ← hhead.mem_childTraces_iff, mem_childTraces]
    simp only [keepsPlace_child]

/-- How a named part that is not admitted is refused. -/
theorem checkNamed_eq_error (hs : Reachable s) (hhead : s.HeadIs head parent) {e : Error}
    (h : checkNamed s caller parent slot trace = .error e) :
    ¬ s.Admits caller head (slot, trace) ∧
      (s.holds caller trace = false ∧ e = .partNotFound trace ∨
        s.holds caller trace ∧ e = .invalid [.otherAssembly trace]) := by
  refine ⟨fun hadmits => ?_, ?_⟩
  · rw [checkNamed_eq_ok.2 ((placeable_iff hs hhead).2 hadmits)] at h
    cases h
  · cases hholds : s.holds caller trace with
    | false =>
      rw [checkNamed, part?_of_hidden hholds] at h
      cases h
      exact Or.inl ⟨rfl, rfl⟩
    | true =>
      obtain ⟨-, -, -, -, part, hpart, -⟩ := exists_part_of_holds hs hholds
      rw [checkNamed, hpart, ok_bind] at h
      dsimp only at h
      split at h
      · cases h
      · split at h
        · cases h
        · cases h
          exact Or.inr ⟨rfl, rfl⟩

/-- The part that a submitted one describes, under the trace that it gets. -/
def PartDraft.asPart (operator : Uuid) (d : PartDraft) (trace : Uuid) : Part where
  trace := trace
  operator := operator
  plant := d.plant.getD Uuid.nil
  name := d.name
  supportName := d.supportName
  terminal := d.terminal
  amount := d.amount
  amountUnit := d.amountUnit

def childrenOf (operator : Uuid) (ds : List PartDraft) (traces : List Uuid) : List Part :=
  (ds.zip traces).map fun x => x.1.asPart operator x.2

theorem partOfDraft_eq (hplant : ∃ plant, d.plant = some plant)
    (hname : ∀ name, d.trace = some name → trace = name) :
    partOfDraft s caller parent slot d trace =
      (d.trace.map (slot, ·)).toList.forM (fun x => checkNamed s caller parent x.1 x.2) >>=
        fun _ => .ok (d.asPart caller trace) := by
  obtain ⟨plant, hplant⟩ := hplant
  cases htrace : d.trace with
  | none => simp [partOfDraft, PartDraft.asPart, htrace, hplant, pure, Except.pure, ok_bind]
  | some name =>
    obtain rfl := hname name htrace
    simp [partOfDraft, PartDraft.asPart, htrace, hplant]

/-- Children are checked in order, and they can be stored when all checks are passed. -/
theorem partsOfDrafts_eq (hplants : ∀ d ∈ ds, ∃ plant, d.plant = some plant) :
    partsOfDrafts s caller parent index ds (assignTraces ids (ds.map (·.trace))) =
      (namedSlotsFrom index ds).forM (fun x => checkNamed s caller parent x.1 x.2) >>=
        fun _ => .ok (childrenOf caller ds (assignTraces ids (ds.map (·.trace)))) := by
  induction ds generalizing index ids with
  | nil => rfl
  | cons d ds ih =>
    obtain ⟨hplant, hplants⟩ := List.forall_mem_cons.1 hplants
    obtain ⟨trace, ids', hassigned, hname⟩ := assignTraces_cons ids d.trace
    rw [List.map_cons, hassigned, partsOfDrafts, partOfDraft_eq hplant hname, ih hplants,
      namedSlotsFrom, List.forM_eq_forM, List.forM_append]
    simp only [bind_assoc, ok_bind, childrenOf, List.zip_cons_cons, List.map_cons]

/-- The assembly that a draft describes when its parts get the traces. -/
def assemblyOf (operator : Uuid) (d : PartDraft) (ds : List PartDraft) (trace : Uuid)
    (traces : List Uuid) : Assembly :=
  ⟨maskAmount (d.asPart operator trace), childrenOf operator ds traces⟩

theorem putAssembly_eq {traces : List Uuid} (hrules : Rules.assembly caller draft = [])
    (hparent : draft.parent = some d)
    (hassigned : assignTraces ids ((d :: draft.children).map (·.trace)) = trace :: traces) :
    Exchange.putAssembly ids caller draft s =
      draft.namedSlots.forM (fun x => checkNamed s caller trace x.1 x.2) >>= fun _ =>
        s.assembly? caller trace >>= fun existing =>
          let a := assemblyOf caller d draft.children trace traces
          (droppedTraces existing a.children).forM (requireUntraded s) >>= fun _ =>
            .ok (.putAssembly a (droppedTraces existing a.children), a) := by
  obtain ⟨hhead, hchildren⟩ := List.forall_mem_cons.1 (Rules.obeys_of_assembly hrules hparent)
  obtain ⟨trace', ids', hassigned', hname⟩ := assignTraces_cons ids d.trace
  obtain ⟨rfl, rfl⟩ := List.cons.inj ((hassigned' _).symm.trans hassigned)
  have hnamed : draft.namedSlots =
      (d.trace.map (Slot.parent, ·)).toList ++ namedSlotsFrom 0 draft.children := by
    rw [AssemblyDraft.namedSlots, AssemblyDraft.head, hparent, Option.bind_some]
  rw [Exchange.putAssembly, refuse_eq_ok_iff.2 hrules, ok_bind, hparent]
  simp only [hassigned]
  rw [partOfDraft_eq hhead.plant hname, partsOfDrafts_eq fun x hx => (hchildren x hx).plant, hnamed,
    List.forM_eq_forM, List.forM_append]
  simp only [bind_assoc, ok_bind, assemblyOf]

theorem map_trace_childrenOf {traces : List Uuid} (hlength : ds.length = traces.length) :
    (childrenOf caller ds traces).map (·.trace) = traces := by
  rw [childrenOf, List.map_map]
  exact List.map_snd_zip hlength.ge

section

variable {traces : List Uuid} (hs : Reachable s) (hfresh : c.Fresh s)
variable (hop : c.op = .putAssembly ids draft) (hparent : draft.parent = some d)
variable (hassigned : assignTraces ids ((d :: draft.children).map (·.trace)) = trace :: traces)
include hs hfresh hop hparent hassigned

theorem headIs_of_assigned : s.HeadIs draft.head trace := by
  obtain ⟨hhead, -⟩ := List.forall₂_cons.1 (forall₂_traces_of_draft hop hparent hassigned)
  rw [AssemblyDraft.head, hparent, Option.bind_some]
  exact hhead.imp_right fun ⟨hnone, hminted⟩ =>
    ⟨hnone, fun _ hq => ((Rooted.of_reachable hs).not_minted hfresh hminted hq).2⟩

/-- A part that has a place is among the new children when one of them names it. -/
theorem mem_children_iff_named {name : Uuid} (hplaced : ∃ q ∈ s.placements, q.trace = name) :
    name ∈ (childrenOf c.caller draft.children traces).map (·.trace) ↔
      ∃ child ∈ draft.children, child.trace = some name := by
  obtain ⟨-, hall⟩ := List.forall₂_cons.1 (forall₂_traces_of_draft hop hparent hassigned)
  obtain ⟨hdrafts, htraces⟩ := mem_of_forall₂ hall
  obtain ⟨q, hq, rfl⟩ := hplaced
  rw [map_trace_childrenOf hall.length_eq]
  constructor
  · intro hmem
    obtain ⟨child, hchild, hname | ⟨-, hminted⟩⟩ := htraces _ hmem
    · exact ⟨child, hchild, hname⟩
    · exact absurd rfl ((Rooted.of_reachable hs).not_minted hfresh hminted hq).1
  · rintro ⟨child, hchild, hname⟩
    obtain ⟨t, ht, hsome | ⟨hnone, -⟩⟩ := hdrafts child hchild
    · rwa [Option.some.inj (hname.symm.trans hsome)]
    · cases hname.symm.trans hnone

/-- What is dropped is what the draft leaves out. -/
theorem droppedTraces_eq {existing : Option Assembly}
    (hnamed : ∀ x ∈ draft.namedSlots, s.Admits c.caller draft.head x)
    (hexisting : s.assembly? c.caller trace = .ok existing) :
    droppedTraces existing (childrenOf c.caller draft.children traces) = draft.omitted s := by
  have hhead : draft.head = d.trace := by rw [AssemblyDraft.head, hparent, Option.bind_some]
  obtain ⟨hassign, -⟩ := List.forall₂_cons.1 (forall₂_traces_of_draft hop hparent hassigned)
  rcases hassign with hname | ⟨hnone, hminted⟩
  · -- The head heads an assembly already.
    have htop := hhead.trans hname
    obtain ⟨hholds, hheads⟩ := (forall_namedSlots_iff.1 hnamed).1 trace htop
    obtain ⟨-, -, -, -, part, hpart, -⟩ := exists_part_of_holds hs hholds
    obtain ⟨before, rfl⟩ := exists_of_assembly? hexisting hpart
      ((isParent_iff_heads (Arranged.of_reachable hs)).2 hheads)
    rw [droppedTraces, AssemblyDraft.omitted, htop, Option.map_some, Option.getD_some,
      map_trace_children hs (assembly?_eq_some hexisting).2.2]
    refine List.filter_congr fun name hname => ?_
    obtain ⟨q, hq, hqtrace, -⟩ := mem_childTraces.1 hname
    rw [Bool.eq_iff_iff, Bool.not_eq_true', List.contains_eq_mem, decide_eq_false_iff_not,
      mem_children_iff_named hs hfresh hop hparent hassigned ⟨q, hq, hqtrace⟩]
    simp
  · -- The head is new.
    have hhidden : s.holds c.caller trace = false := by
      rw [Store.holds, List.any_eq_false]
      intro r hr hfound
      simp only [Bool.and_eq_true, decide_eq_true_eq] at hfound
      exact hfresh.trace_ne hminted hr hfound.1.1
    rw [Store.assembly?, part?_of_hidden hhidden, ok_bind] at hexisting
    cases hexisting
    rw [AssemblyDraft.omitted, hhead, hnone]
    rfl

end

theorem mem_omitted_iff : trace ∈ draft.omitted s ↔
    (∃ top, draft.head = some top ∧ trace ∈ s.childTraces top) ∧
      ∀ child ∈ draft.children, child.trace ≠ some trace := by
  rw [AssemblyDraft.omitted, List.mem_filter, List.all_eq_true]
  simp only [decide_eq_true_eq]
  cases draft.head <;> simp

theorem not_legal_of_moveRefused {e : Error} (h : MoveRefused s caller draft e) :
    ¬ LegalMove s caller draft := by
  intro hlegal
  have hadmits := forall_namedSlots_iff.2 ⟨hlegal.parent, hlegal.children⟩
  cases h with
  | rules hbroken => exact hbroken hlegal.rules
  | @missing before slot trace after _ hnamed _ hhidden =>
    have hadmits := hadmits (slot, trace) (by simp [hnamed])
    cases slot <;> simp [Store.Admits, hhidden] at hadmits
  | misplaced _ hnamed _ _ hplace => exact hplace (hadmits _ (by simp [hnamed]))
  | @traded before trace after _ _ homitted _ htraded =>
    obtain ⟨⟨top, hhead, hchild⟩, hunnamed⟩ :=
      mem_omitted_iff.1 (homitted ▸ by simp : trace ∈ draft.omitted s)
    exact hlegal.omitted top hhead trace hchild hunnamed htraded

theorem requireUntraded_eq_ok_iff : requireUntraded s trace = .ok () ↔ ¬ s.Traded trace := by
  rw [requireUntraded_eq_ok, ← Bool.not_eq_true, Store.isTraded_iff, Store.Traded]

theorem requireUntraded_eq_error {e : Error} (h : requireUntraded s trace = .error e) :
    s.Traded trace ∧ e = .partInUse trace := by
  rw [requireUntraded] at h
  split at h
  · rename_i htraded
    cases h
    exact ⟨Store.isTraded_iff.1 htraded, rfl⟩
  · cases h

/-- When the checks of the named parts fail, it is the first one out of place that is told. -/
theorem moveRefused_of_named (hs : Reachable s) (hhead : s.HeadIs draft.head parent)
    (hrules : Rules.assembly caller draft = []) {e : Error}
    (h : draft.namedSlots.forM (fun x => checkNamed s caller parent x.1 x.2) = .error e) :
    MoveRefused s caller draft e := by
  obtain ⟨before, ⟨slot, name⟩, after, hsplit, hbefore, herror⟩ := forM_eq_error_iff.1 h
  have hearlier : ∀ x ∈ before, s.Admits caller draft.head x :=
    fun x hx => (placeable_iff hs hhead).1 (checkNamed_eq_ok.1 (hbefore x hx))
  obtain ⟨hplace, ⟨hhidden, rfl⟩ | ⟨hheld, rfl⟩⟩ := checkNamed_eq_error hs hhead herror
  · exact .missing hrules hsplit hearlier hhidden
  · exact .misplaced hrules hsplit hearlier hheld hplace

theorem moveRefused_of_omitted (hrules : Rules.assembly caller draft = [])
    (hnamed : ∀ x ∈ draft.namedSlots, s.Admits caller draft.head x) {e : Error}
    (h : (draft.omitted s).forM (requireUntraded s) = .error e) :
    MoveRefused s caller draft e := by
  obtain ⟨before, name, after, hsplit, hbefore, herror⟩ := forM_eq_error_iff.1 h
  obtain ⟨htraded, rfl⟩ := requireUntraded_eq_error herror
  exact .traded hrules hnamed hsplit
    (fun t ht => requireUntraded_eq_ok_iff.1 (hbefore t ht)) htraded

/-- An assembly is refused for one of the reasons, or it is a legal move and can be stored. -/
theorem putAssembly_cases (hs : Reachable s) (hfresh : c.Fresh s)
    (hop : c.op = .putAssembly ids draft) :
    (∃ e, Exchange.putAssembly ids c.caller draft s = .error e ∧ MoveRefused s c.caller draft e) ∨
      (∃ result, Exchange.putAssembly ids c.caller draft s = .ok result) ∧
        LegalMove s c.caller draft := by
  by_cases hrules : Rules.assembly c.caller draft = []
  case neg =>
    refine Or.inl ⟨_, bind_eq_error.2 (Or.inl ?_), .rules hrules⟩
    exact if_neg fun h => hrules (List.isEmpty_iff.1 h)
  obtain ⟨d, hparent, -⟩ := Rules.assembly_eq_nil_iff.1 hrules
  obtain ⟨trace, ids', hassigned, -⟩ := assignTraces_cons ids d.trace
  have hassigned : assignTraces ids ((d :: draft.children).map (·.trace)) = trace :: _ :=
    hassigned _
  have hhead := headIs_of_assigned hs hfresh hop hparent hassigned
  rw [putAssembly_eq hrules hparent hassigned]
  cases hchecks : draft.namedSlots.forM fun x => checkNamed s c.caller trace x.1 x.2 with
  | error e => exact Or.inl ⟨e, rfl, moveRefused_of_named hs hhead hrules hchecks⟩
  | ok =>
    have hnamed : ∀ x ∈ draft.namedSlots, s.Admits c.caller draft.head x := fun x hx =>
      (placeable_iff hs hhead).1 (checkNamed_eq_ok.1 (forM_eq_ok_iff.1 hchecks x hx))
    obtain ⟨existing, hexisting⟩ := (Coherent.of_reachable hs).exists_assembly? c.caller trace
    have hdropped := droppedTraces_eq hs hfresh hop hparent hassigned hnamed hexisting
    simp only [ok_bind, hexisting, assemblyOf, hdropped]
    cases huntraded : (draft.omitted s).forM (requireUntraded s) with
    | error e => exact Or.inl ⟨e, rfl, moveRefused_of_omitted hrules hnamed huntraded⟩
    | ok =>
      obtain ⟨hheads, hchildren⟩ := forall_namedSlots_iff.1 hnamed
      refine Or.inr ⟨⟨_, rfl⟩, hrules, hheads, hchildren, fun top htop name hname hunnamed => ?_⟩
      exact requireUntraded_eq_ok_iff.1 (forM_eq_ok_iff.1 huntraded name
        (mem_omitted_iff.2 ⟨⟨top, htop, hname⟩, hunnamed⟩))

theorem served_putAssembly_cases (hs : Reachable s) (hfresh : c.Fresh s)
    (hop : c.op = .putAssembly ids draft) :
    (∃ e, c.served s = (.error e, s) ∧ MoveRefused s c.caller draft e) ∨
      c.Succeeds s ∧ LegalMove s c.caller draft := by
  have hplan : c.op.plan c.limits c.now c.caller =
      Operation.withReply .assembly (Exchange.putAssembly ids c.caller draft) := by
    rw [hop]
    rfl
  rcases putAssembly_cases hs hfresh hop with ⟨e, herror, hrefused⟩ | ⟨⟨result, hok⟩, hlegal⟩
  · exact Or.inl ⟨e, served_of_plan_error hplan herror, hrefused⟩
  · obtain ⟨s', -, hserved⟩ := exists_served_of_planned hplan hs hfresh hok
    exact Or.inr ⟨succeeds_of_ok hserved, hlegal⟩

theorem LegalMove.succeeds (h : LegalMove s c.caller draft) (hs : Reachable s) (hfresh : c.Fresh s)
    (hop : c.op = .putAssembly ids draft) : c.Succeeds s := by
  rcases served_putAssembly_cases hs hfresh hop with ⟨e, -, hrefused⟩ | ⟨hsucceeds, -⟩
  · exact absurd h (not_legal_of_moveRefused hrefused)
  · exact hsucceeds

/-- In a reachable store an assembly is stored if and only if it obeys the rules, the head that it
names heads an assembly of the caller, every child that it names stands under that head, and no
child that it leaves out is in a live trade. So there can be no named child under a new head. An
assembly that is refused changes nothing, and the error is that of the rules, else that of the first
part that is named and not admitted, else that of the first part that is left out and traded. -/
theorem legal_moves_accepted (hs : Reachable s) (hfresh : c.Fresh s)
    (hop : c.op = .putAssembly ids draft) :
    (c.Succeeds s ↔ LegalMove s c.caller draft) ∧
      (draft.head = none → (∃ child ∈ draft.children, child.trace.isSome) → ¬ c.Succeeds s) ∧
      (¬ c.Succeeds s → ∃ e, c.served s = (.error e, s) ∧ MoveRefused s c.caller draft e) := by
  have hiff : c.Succeeds s ↔ LegalMove s c.caller draft := by
    refine ⟨fun hsucceeds => ?_, fun hlegal => hlegal.succeeds hs hfresh hop⟩
    rcases served_putAssembly_cases hs hfresh hop with ⟨e, herror, -⟩ | ⟨-, hlegal⟩
    · exact absurd hsucceeds (not_succeeds_of_error herror)
    · exact hlegal
  refine ⟨hiff, ?_, fun hfails => ?_⟩
  · rintro hnew ⟨child, hchild, hnamed⟩ hsucceeds
    obtain ⟨name, hname⟩ := Option.isSome_iff_exists.1 hnamed
    obtain ⟨-, top, htop, -⟩ := (hiff.1 hsucceeds).children child hchild name hname
    cases hnew.symm.trans htop
  · exact (served_putAssembly_cases hs hfresh hop).resolve_right fun h => hfails h.1

def pairPart (trace : Option Uuid) (amount : Option Float) : PartDraft where
  trace := trace
  operator := ⟨1⟩
  plant := some ⟨3⟩
  name := "part"
  supportName := none
  terminal := true
  amount := amount
  amountUnit := some .kilogram

/-- Operator 1 has its part 10 over 11 and 12, the last with figures. -/
def pairCalls : List Call :=
  [ sampleCall ⟨1⟩ (.putAssembly [.v4 10, .v4 11, .v4 12]
      ⟨some (pairPart none none), [pairPart none (some 1.5), pairPart none none]⟩),
    sampleCall ⟨1⟩ (.putFigures (.v4 40) (sampleFigures (.v4 12))) ]

def pairStore : Store :=
  runAll pairCalls Store.empty

theorem reachable_pairStore : Reachable pairStore :=
  Reachable.empty.calls (by decide +kernel)

/-- A new part takes the place of 11, ahead of 12. -/
def replacementDraft : AssemblyDraft :=
  ⟨some (pairPart (some (.v4 10)) (some 2)),
    [pairPart none (some (-0.0)), pairPart (some (.v4 12)) none]⟩

def replacement : Call :=
  sampleCall ⟨1⟩ (.putAssembly [.v4 13] replacementDraft)

/-- A new head is to have 11, which stands under 10. -/
def transferDraft : AssemblyDraft :=
  ⟨some (pairPart none none), [pairPart (some (.v4 11)) none]⟩

def transfer : Call :=
  sampleCall ⟨1⟩ (.putAssembly [.v4 13] transferDraft)

theorem legal_replacement : LegalMove pairStore ⟨1⟩ replacementDraft where
  rules := by decide +kernel
  parent := by
    rintro _ ⟨⟩
    decide +kernel
  children := by
    intro child hchild trace hname
    rcases List.mem_pair.1 hchild with rfl | rfl <;> cases hname
    exact ⟨by decide +kernel, _, rfl, mem_childTraces.2 (by decide +kernel)⟩
  omitted := by
    rintro top _ trace _ _ ⟨t, ht, -⟩
    have htrades : pairStore.trades = [] := by decide +kernel
    rw [htrades] at ht
    cases ht

theorem legal_moves_accepted_pair :
    replacement.Succeeds pairStore ∧ ¬ transfer.Succeeds pairStore ∧
      ∃ e, transfer.served pairStore = (.error e, pairStore) ∧
        MoveRefused pairStore ⟨1⟩ transferDraft e := by
  obtain ⟨hiff, -⟩ := legal_moves_accepted reachable_pairStore (c := replacement)
    (by decide +kernel) rfl
  obtain ⟨-, hnew, hrefused⟩ := legal_moves_accepted reachable_pairStore (c := transfer)
    (by decide +kernel) rfl
  have hfails := hnew rfl ⟨_, List.mem_singleton_self _, rfl⟩
  exact ⟨hiff.2 legal_replacement, hfails, hrefused hfails⟩

end Footprint
