import Footprint.Proofs.Exchange.Reachable
import Mathlib.Data.List.Zip

namespace Footprint

open Exchange

/-- A live part of the operator that may take the slot. -/
structure Placeable (s : Store) (operator parent : Uuid) (slot : Slot) (trace : Uuid) : Prop where
  owned : ∃ part, s.part? operator trace = .ok (some part)
  keeps : ∀ place, s.placement? trace = some place → keepsPlace parent place slot

/-- An assembly that is to be stored and the traces that are to be dropped for it. -/
structure Drafted (s : Store) (caller : Uuid) (minted : List Uuid) (a : Assembly)
    (removed : List Uuid) : Prop where
  operator : ∀ p ∈ a.parts, p.operator = caller
  parent : a.parent.trace ∈ minted ∨ Placeable s caller a.parent.trace .parent a.parent.trace
  children : ∀ p ∈ a.children, p.trace ∈ minted ∨
    ∃ index, Placeable s caller a.parent.trace (.child index) p.trace
  amount : a.parent.amount = none
  amountUnit : a.parent.amountUnit = none
  dropped : ∃ existing, s.assembly? caller a.parent.trace = .ok existing ∧
    removed = droppedTraces existing a.children

/-- What an accepted operation makes of parts and places. -/
inductive AssemblyChange (now : Instant) (caller : Uuid) (s : Store) (op : Operation) (s' : Store) :
    Prop
  | kept (parts : s'.parts = s.parts) (placements : s'.placements = s.placements)
  | removed {parent : Uuid} {a : Assembly} (present : s.assembly? caller parent = .ok (some a))
      (written : s' = s.removeAssembly now a)
  | stored {a : Assembly} {removed : List Uuid} (drafted : Drafted s caller op.minted a removed)
      (written : s.putAssembly now a removed = .ok s')
      (stores : ∃ ids draft, op = .putAssembly ids draft)

variable {limits : TextLimits} {now : Instant} {caller : Uuid} {s s' : Store} {op : Operation}
variable {reply : Reply} {parent trace : Uuid} {slot : Slot} {d : PartDraft} {p : Part}

theorem checkNamed_eq_ok :
    checkNamed s caller parent slot trace = .ok () ↔ Placeable s caller parent slot trace := by
  constructor
  · intro h
    obtain ⟨part, hpart, h⟩ := bind_eq_ok.1 h
    cases part with
    | none => cases h
    | some part =>
      refine ⟨⟨part, hpart⟩, fun place hplace => ?_⟩
      simp only [hplace] at h
      split at h
      · assumption
      · exact absurd h refuseWith_ne_ok
  · rintro ⟨⟨part, hpart⟩, hkeeps⟩
    refine bind_eq_ok.2 ⟨some part, hpart, ?_⟩
    cases hplace : s.placement? trace with
    | none => rfl
    | some place => exact if_pos (hkeeps place hplace)

theorem partOfDraft_eq_ok (h : partOfDraft s caller parent slot d trace = .ok p) :
    p.trace = trace ∧ p.operator = caller ∧ p.terminal = d.terminal ∧
      (d.trace = none ∨ Placeable s caller parent slot trace) := by
  rw [partOfDraft] at h
  cases htrace : d.trace with
  | none =>
    simp only [htrace, Option.isSome_none, Bool.false_eq_true, if_false] at h
    split at h
    · exact absurd h refuseWith_ne_ok
    · cases h
      exact ⟨rfl, rfl, rfl, Or.inl rfl⟩
  | some _ =>
    simp only [htrace, Option.isSome_some, if_true] at h
    obtain ⟨⟨⟩, hnamed, h⟩ := bind_eq_ok.1 h
    split at h
    · exact absurd h refuseWith_ne_ok
    · cases h
      exact ⟨rfl, rfl, rfl, Or.inr (checkNamed_eq_ok.1 hnamed)⟩

theorem draft_of_partsOfDrafts {index : Nat} {ds : List PartDraft} {traces : List Uuid}
    {ps : List Part} (h : partsOfDrafts s caller parent index ds traces = .ok ps) (hp : p ∈ ps) :
    ∃ d trace index, (d, trace) ∈ ds.zip traces ∧
      partOfDraft s caller parent (.child index) d trace = .ok p := by
  induction ds generalizing index traces ps with
  | nil =>
    cases h
    cases hp
  | cons d ds ih =>
    cases traces with
    | nil =>
      cases h
      cases hp
    | cons trace traces =>
      obtain ⟨q, hq, h⟩ := bind_eq_ok.1 h
      obtain ⟨qs, hqs, h⟩ := bind_eq_ok.1 h
      cases h
      rcases List.mem_cons.1 hp with rfl | hp
      · exact ⟨d, trace, _, by simp, hq⟩
      · obtain ⟨d', trace', index', hmem, hpart⟩ := ih hqs hp
        exact ⟨d', trace', index', List.mem_cons_of_mem _ hmem, hpart⟩

/-- A part that comes without a trace gets one of those that the operation gives away. -/
theorem mem_minted {ids : List Uuid} {draft : AssemblyDraft} (hparent : draft.parent = some d)
    {child : PartDraft}
    (hzip : (child, trace) ∈ (d :: draft.children).zip
      (assignTraces ids ((d :: draft.children).map (·.trace))))
    (hnew : child.trace = none) : trace ∈ (Operation.putAssembly ids draft).minted := by
  have hnamed : (trace, child.trace) ∈
      (assignTraces ids ((d :: draft.children).map (·.trace))).zip
        ((d :: draft.children).map (·.trace)) := by
    rw [List.zip_map_right, List.mem_map]
    refine ⟨(trace, child), ?_, rfl⟩
    rw [← List.zip_swap]
    exact List.mem_map_of_mem hzip
  rw [Operation.minted, hparent, List.mem_filterMap]
  exact ⟨_, hnamed, by simp [hnew]⟩

/-- The parts of a submitted assembly make one that may be stored. -/
theorem drafted_of_parts {ids : List Uuid} {draft : AssemblyDraft} {traces : List Uuid}
    {children : List Part} {existing : Option Assembly} (hparent : draft.parent = some d)
    (hassigned : assignTraces ids ((d :: draft.children).map (·.trace)) = trace :: traces)
    (hpart : partOfDraft s caller trace .parent d trace = .ok p)
    (hchildren : partsOfDrafts s caller trace 0 draft.children traces = .ok children)
    (hexisting : s.assembly? caller trace = .ok existing) :
    Drafted s caller (Operation.putAssembly ids draft).minted ⟨maskAmount p, children⟩
      (droppedTraces existing children) := by
  have hdrawn {child : PartDraft} {trace' : Uuid} {slot : Slot} {p : Part}
      (hzip : (child, trace') ∈ (d :: draft.children).zip (trace :: traces))
      (hp : partOfDraft s caller trace slot child trace' = .ok p) :
      p.operator = caller ∧ (p.trace ∈ (Operation.putAssembly ids draft).minted ∨
        Placeable s caller trace slot p.trace) := by
    obtain ⟨rfl, hoperator, -, hnew | hplaceable⟩ := partOfDraft_eq_ok hp
    · exact ⟨hoperator, Or.inl (mem_minted hparent (hassigned ▸ hzip) hnew)⟩
    · exact ⟨hoperator, Or.inr hplaceable⟩
  have hhead := hdrawn List.mem_cons_self hpart
  have hchild {p : Part} (hp : p ∈ children) : p.operator = caller ∧
      (p.trace ∈ (Operation.putAssembly ids draft).minted ∨
        ∃ index, Placeable s caller trace (.child index) p.trace) := by
    obtain ⟨child, trace', index, hzip, hp⟩ := draft_of_partsOfDrafts hchildren hp
    obtain ⟨hoperator, hsource⟩ := hdrawn (List.mem_cons_of_mem _ hzip) hp
    exact ⟨hoperator, hsource.imp_right fun hplaceable => ⟨index, hplaceable⟩⟩
  obtain ⟨rfl, -⟩ := partOfDraft_eq_ok hpart
  refine ⟨?_, hhead.2, fun p hp => (hchild hp).2, rfl, rfl, existing, hexisting, rfl⟩
  intro p hp
  rcases List.mem_cons.1 hp with rfl | hp
  · exact hhead.1
  · exact (hchild hp).1

/-- The assembly that is stored is one of drawn parts. -/
theorem drafted_of_accepted {ids : List Uuid} {draft : AssemblyDraft}
    (h : Accepted limits now caller s (.putAssembly ids draft) reply s') :
    ∃ a removed, Drafted s caller (Operation.putAssembly ids draft).minted a removed ∧
      s.putAssembly now a removed = .ok s' := by
  cases h with
  | putAssembly _ hparent hassigned hpart hchildren hexisting _ hwritten =>
    exact ⟨_, _, drafted_of_parts hparent hassigned hpart hchildren hexisting, hwritten⟩

/-- An assembly is stored only of parts that are new or that the caller has already, each in a slot
that is open to it. An operation on anything else leaves parts and places alone. -/
theorem assemblyChange_of_accepted (h : Accepted limits now caller s op reply s') :
    AssemblyChange now caller s op s' := by
  have haccepted := h
  cases h with
  | putAssembly =>
    obtain ⟨a, removed, hdrafted, hwritten⟩ := drafted_of_accepted haccepted
    exact .stored hdrafted hwritten ⟨_, _, rfl⟩
  | removeAssembly hpresent => exact .removed hpresent rfl
  | reviseFigures _ _ _ _ _ hwritten =>
    obtain ⟨figures, -, rfl⟩ := Store.reviseFigures_eq_ok hwritten
    exact .kept rfl rfl
  | reviseRequest _ _ _ _ _ _ _ _ hwritten =>
    obtain ⟨-, rfl⟩ := Store.reviseWith_eq_ok.1 hwritten
    exact .kept rfl rfl
  | answer _ _ _ _ _ _ hwritten =>
    obtain ⟨-, rfl⟩ := Store.reviseWith_eq_ok.1 hwritten
    exact .kept rfl rfl
  | cancel _ _ _ _ _ hwritten =>
    obtain ⟨-, rfl⟩ := Store.endRequest_eq_ok.1 hwritten
    exact .kept rfl rfl
  | reject _ _ _ _ _ hwritten =>
    obtain ⟨-, rfl⟩ := Store.endRequest_eq_ok.1 hwritten
    exact .kept rfl rfl
  | _ => exact .kept rfl rfl

theorem assembly?_eq_some {operator : Uuid} {a : Assembly}
    (h : s.assembly? operator parent = .ok (some a)) :
    s.part? operator parent = .ok (some a.parent) ∧ s.isParent parent ∧
      s.children parent = .ok a.children := by
  obtain ⟨o, hpart, h⟩ := bind_eq_ok.1 h
  cases o with
  | none => cases h
  | some p =>
    dsimp only at h
    split at h
    · obtain ⟨children, hchildren, h⟩ := bind_eq_ok.1 h
      cases h
      exact ⟨hpart, ‹_›, hchildren⟩
    · cases h

/-- A parent of the operator is not passed over when its assembly is read. -/
theorem exists_of_assembly? {operator : Uuid} {existing : Option Assembly}
    (h : s.assembly? operator parent = .ok existing)
    (hpart : s.part? operator parent = .ok (some p)) (hparent : s.isParent parent) :
    ∃ a, existing = some a := by
  rw [Store.assembly?, hpart, ok_bind] at h
  simp only [hparent, if_true] at h
  obtain ⟨children, -, h⟩ := bind_eq_ok.1 h
  cases h
  exact ⟨_, rfl⟩

end Footprint
