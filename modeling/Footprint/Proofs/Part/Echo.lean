import Footprint.Body.Basic
import Footprint.Proofs.Exchange.Final
import Footprint.Proofs.Part.Put
import Footprint.Proofs.Store.Readings

namespace Footprint

open Table Enumerated Exchange

/-- The part as a draft that names its trace. -/
def Part.draft (p : Part) : PartDraft where
  trace := some p.trace
  operator := p.operator
  plant := some p.plant
  name := p.name
  supportName := p.supportName
  terminal := p.terminal
  amount := p.amount
  amountUnit := p.amountUnit

def Assembly.draft (a : Assembly) : AssemblyDraft :=
  ⟨some a.parent.draft, a.children.map (·.draft)⟩

/-- A row with a part that the rules admit, and with the amount as a column keeps it. -/
structure PartRecord.Lawful (r : PartRecord) : Prop where
  name : Text.isBlankText r.name = false ∧ r.name.length ≤ Violation.nameBound
  supportName : ∀ text, r.supportName = some text → text.length ≤ Violation.nameBound
  amount : ∀ x ∈ r.amount, Rules.Admits x
  stored : r.amount.map storedNumber = r.amount

variable {s s' : Store} {operator caller trace : Uuid} {a : Assembly} {p q : Part} {r : PartRecord}
variable {d : PartDraft} {ids removed : List Uuid} {now : Instant}

theorem PartBody.draft_ofPart (p : Part) : (PartBody.ofPart p).draft = .ok p.draft := by
  have hunit : readOptionalLiteral "amountRequiredUnit" (p.amountUnit.map literal) =
      .ok p.amountUnit := readOptionalLiteral_eq_ok.2 rfl
  rw [PartBody.draft, PartBody.ofPart, hunit]
  rfl

theorem AssemblyBody.draft_ofAssembly (a : Assembly) :
    (AssemblyBody.ofAssembly a).draft = .ok a.draft := by
  have hchildren : (a.children.map PartBody.ofPart).mapM PartBody.draft =
      .ok (a.children.map (·.draft)) := by
    rw [mapM_eq_ok_iff, List.forall₂_map_left_iff, List.forall₂_map_right_iff, List.forall₂_same]
    exact fun p _ => PartBody.draft_ofPart p
  rw [AssemblyBody.draft, AssemblyBody.ofAssembly]
  simp only [readOptional, PartBody.draft_ofPart, Except.map, ok_bind, hchildren]
  rfl

/-- A part that is stored comes from a draft, with its amount or without one. -/
theorem exists_draft_of_mem {ds : List PartDraft} {traces : List Uuid}
    (hp : p ∈ (assemblyOf caller d ds trace traces).parts) :
    ∃ x ∈ d :: ds, p.name = x.name ∧ p.supportName = x.supportName ∧
      ∀ y ∈ p.amount, y ∈ x.amount := by
  rcases List.mem_cons.1 hp with rfl | hp
  · exact ⟨d, List.mem_cons_self, rfl, rfl, nofun⟩
  · obtain ⟨⟨x, t⟩, hzip, rfl⟩ := List.mem_map.1 hp
    exact ⟨x, List.mem_cons_of_mem _ (List.of_mem_zip hzip).1, rfl, rfl, fun _ => id⟩

theorem lawful_revise (hobeys : d.Obeys operator) (hname : p.name = d.name)
    (hsupport : p.supportName = d.supportName) (hamount : ∀ y ∈ p.amount, y ∈ d.amount) :
    (PartRecord.revise now p r).Lawful where
  name := by
    rw [PartRecord.revise, PartRecord.ofPart, hname]
    exact hobeys.name
  supportName := by
    rw [PartRecord.revise, PartRecord.ofPart, hsupport]
    exact hobeys.supportName
  amount := by
    intro x hx
    obtain ⟨y, hy, rfl⟩ := Option.map_eq_some_iff.1 hx
    exact (hobeys.amount y (hamount y hy)).stored
  stored := map_storedNumber_stored p.amount

theorem lawful_of_reachable (h : Reachable s) : ∀ r ∈ s.parts, r.Lawful := by
  refine h.induct (P := fun s => ∀ r ∈ s.parts, r.Lawful) nofun ?_
  intro s s' reply c hs _ ih haccepted
  have hdropped {author : Uuid} {removed : List Uuid} {r : PartRecord}
      (hr : r ∈ (s.dropParts c.now author removed).parts) : r.Lawful := by
    rcases mem_updateWhere.1 hr with ⟨hr, -⟩ | ⟨q, hq, -, rfl⟩
    · exact ih r hr
    · exact ⟨(ih q hq).name, (ih q hq).supportName, (ih q hq).amount, (ih q hq).stored⟩
  cases assemblyChange_of_accepted haccepted with
  | kept hparts _ => rwa [hparts]
  | removed _ hwritten =>
    rw [hwritten]
    exact fun r => hdropped
  | stored _ _ hstores =>
    obtain ⟨ids, draft, hop⟩ := hstores
    rw [hop] at haccepted
    cases haccepted with
    | putAssembly hrules hparent hassigned hpart hchildren _ _ hwritten =>
      have hobeys := Rules.obeys_of_assembly hrules hparent
      rw [assemblyOf_of_parts hrules hparent hassigned hpart hchildren] at hwritten
      obtain ⟨-, -, -, hparts, -⟩ := Store.putAssembly_eq_ok hwritten
      intro r hr
      rw [hparts] at hr
      rcases mem_writeParts hr with ⟨hr, -⟩ | ⟨p, hp, q, rfl⟩
      · exact hdropped hr
      · obtain ⟨x, hx, hname, hsupport, hamount⟩ := exists_draft_of_mem hp
        exact lawful_revise (hobeys x hx) hname hsupport hamount

theorem stored_of_livePart (hs : Reachable s) (h : s.LivePart p) : p.stored = p := by
  obtain ⟨r, hr, -, hread⟩ := h
  have hstored := (lawful_of_reachable hs r hr).stored
  rw [← (PartRecord.part_eq_ok.1 hread).2.2.2.2.2.2.1] at hstored
  rw [Part.stored, hstored]

theorem obeys_of_livePart (hs : Reachable s) (h : s.LivePart p) : p.draft.Obeys p.operator := by
  obtain ⟨r, hr, -, hread⟩ := h
  obtain ⟨hname, hsupport, hamount, -⟩ := lawful_of_reachable hs r hr
  obtain ⟨-, -, -, hpname, hpsupport, -, hpamount, -⟩ := PartRecord.part_eq_ok.1 hread
  constructor
  · rfl
  · exact ⟨p.plant, rfl⟩
  · rwa [Part.draft, hpname]
  · rwa [Part.draft, hpsupport]
  · rwa [Part.draft, hpamount]

section

variable (hs : Reachable s) (h : s.assembly? operator trace = .ok (some a))
include hs h

theorem livePart_of_assembly (hp : p ∈ a.parts) : s.LivePart p ∧ p.operator = operator := by
  obtain ⟨⟨hlive, -, hoperator⟩, -, -, hchildren⟩ := (assembly?_eq_some_iff hs).1 h
  rcases List.mem_cons.1 hp with rfl | hp
  · exact ⟨hlive, hoperator⟩
  · exact ⟨hchildren p hp, (trace_of_part? (child_of_assembly hs h hp).1).2⟩

/-- The head stands under nothing. -/
theorem heads_of_assembly : s.Heads trace :=
  (isParent_iff_heads (Arranged.of_reachable hs)).1 (assembly?_eq_some h).2.1

theorem not_mem_childTraces : trace ∉ s.childTraces trace := by
  intro hmem
  have harranged := Arranged.of_reachable hs
  obtain ⟨q, hq, hqtrace, hunder⟩ := mem_childTraces.1 hmem
  obtain ⟨top, htop, htoptrace, hnil⟩ := heads_of_assembly hs h
  obtain rfl := eq_of_key_eq harranged.traces hq htop (hqtrace.trans htoptrace.symm)
  obtain ⟨r, hr, hrtrace, -⟩ := Store.part?_eq_some (assembly?_eq_some h).1
  exact harranged.named r hr (hrtrace.trans (hunder.symm.trans hnil))

theorem nodup_traces_of_assembly : a.traces.Nodup := by
  obtain ⟨⟨-, hhead, -⟩, -, htraces, -⟩ := (assembly?_eq_some_iff hs).1 h
  rw [Assembly.traces, Assembly.parts, List.map_cons, htraces, hhead, List.nodup_cons]
  exact ⟨not_mem_childTraces hs h, nodup_childTraces (Arranged.of_reachable hs) trace⟩

theorem masked_of_assembly : maskAmount a.parent = a.parent := by
  obtain ⟨r, hr, -, hread⟩ := (livePart_of_assembly hs h List.mem_cons_self).1
  obtain ⟨⟨-, hhead, -⟩, -⟩ := (assembly?_eq_some_iff hs).1 h
  obtain ⟨top, htop, htoptrace, hnil⟩ := heads_of_assembly hs h
  obtain ⟨hrtrace, -, -, -, -, -, hamount, hunit⟩ := PartRecord.part_eq_ok.1 hread
  obtain ⟨hnone, hnone'⟩ := (Rooted.of_reachable hs).amounts top htop hnil r hr
    (hrtrace.symm.trans (hhead.trans htoptrace.symm))
  rw [hnone'] at hunit
  rw [maskAmount]
  ext1 <;> try rfl
  · exact (hamount.trans hnone).symm
  · exact (Option.map_eq_none_iff.1 hunit.symm).symm

/-- Its parts have the places that they would be given. -/
theorem place_of_assembly_iff {place : Placement} :
    (∃ q ∈ s.placements, q.isOf a.parent.trace ∧ q.placement = place) ↔
      place = ⟨a.parent.trace, Uuid.nil⟩ ∨ ∃ p ∈ a.children, place = ⟨p.trace, a.parent.trace⟩ := by
  obtain ⟨⟨-, hhead, -⟩, -, htraces, -⟩ := (assembly?_eq_some_iff hs).1 h
  obtain ⟨top, htop, htoptrace, hnil⟩ := heads_of_assembly hs h
  constructor
  · rintro ⟨q, hq, hof, rfl⟩
    rcases Bool.or_eq_true_iff.1 hof with hunder | hself
    · have hunder : q.parent = a.parent.trace := of_decide_eq_true hunder
      have hmem : q.trace ∈ a.children.map (·.trace) := by
        rw [htraces, ← hhead]
        exact mem_childTraces.2 ⟨q, hq, rfl, hunder⟩
      obtain ⟨p, hp, hptrace⟩ := List.mem_map.1 hmem
      exact Or.inr ⟨p, hp, by rw [PlacementRecord.placement, hptrace, hunder]⟩
    · have hself : q.trace = a.parent.trace := of_decide_eq_true hself
      obtain rfl := eq_of_key_eq (Arranged.of_reachable hs).traces hq htop
        (hself.trans (hhead.trans htoptrace.symm))
      exact Or.inl (by rw [PlacementRecord.placement, hself, hnil])
  · rintro (rfl | ⟨p, hp, rfl⟩)
    · exact ⟨top, htop, by simp [PlacementRecord.isOf, htoptrace, hhead],
        by rw [PlacementRecord.placement, htoptrace, hnil, hhead]⟩
    · have hmem : p.trace ∈ s.childTraces trace := by
        rw [← htraces]
        exact List.mem_map_of_mem hp
      obtain ⟨q, hq, hqtrace, hunder⟩ := mem_childTraces.1 hmem
      exact ⟨q, hq, by simp [PlacementRecord.isOf, hunder, hhead],
        by rw [PlacementRecord.placement, hqtrace, hunder, hhead]⟩

/-- It is a legal move to leave all as it is. -/
theorem legal_draft : LegalMove s operator a.draft := by
  have hobeys {p : Part} (hp : p ∈ a.parts) : p.draft.Obeys operator := by
    obtain ⟨hlive, rfl⟩ := livePart_of_assembly hs h hp
    exact obeys_of_livePart hs hlive
  have hholds {p : Part} (hp : p ∈ a.parts) : s.holds operator p.trace :=
    holds_of_assembly hs h p.trace (List.mem_map_of_mem hp)
  obtain ⟨⟨-, hhead, -⟩, -, htraces, -⟩ := (assembly?_eq_some_iff hs).1 h
  constructor
  case rules =>
    refine Rules.assembly_eq_nil_iff.2 ⟨a.parent.draft, rfl, ?_, ?_⟩
    · have hdrafts : a.parent.draft :: a.draft.children = a.parts.map (·.draft) := rfl
      rw [hdrafts, List.forall_mem_map]
      exact fun p hp => hobeys hp
    · have hnamed : (a.parent.draft :: a.draft.children).filterMap (·.trace) = a.traces := by
        have hdrafts : a.parent.draft :: a.draft.children = a.parts.map (·.draft) := rfl
        rw [hdrafts, List.filterMap_map]
        exact congrFun List.filterMap_eq_map' a.parts
      rw [hnamed]
      exact nodup_traces_of_assembly hs h
  case parent =>
    rintro _ ⟨⟩
    exact ⟨hholds List.mem_cons_self, hhead ▸ heads_of_assembly hs h⟩
  case children =>
    intro child hchild name hname
    obtain ⟨p, hp, rfl⟩ := List.mem_map.1 hchild
    obtain rfl := Option.some.inj hname
    refine ⟨hholds (List.mem_cons_of_mem _ hp), _, rfl, ?_⟩
    rw [hhead, ← htraces]
    exact List.mem_map_of_mem hp
  case omitted =>
    rintro top ⟨⟩ name hname hunnamed
    rw [hhead, ← htraces] at hname
    obtain ⟨p, hp, rfl⟩ := List.mem_map.1 hname
    exact absurd rfl (hunnamed p.draft (List.mem_map_of_mem hp))

end

theorem assignTraces_named (ids traces : List Uuid) :
    assignTraces ids (traces.map some) = traces := by
  induction traces with
  | nil => rfl
  | cons trace traces ih => rw [List.map_cons, assignTraces_some, ih]

theorem newTraces_named (ids traces : List Uuid) : newTraces ids (traces.map some) = [] := by
  rw [newTraces, List.filterMap_eq_nil_iff]
  rintro ⟨trace, name⟩ hmem
  obtain ⟨t, -, rfl⟩ := List.mem_map.1 (List.of_mem_zip hmem).2
  rfl

theorem map_trace_draft (a : Assembly) :
    (a.parent.draft :: a.draft.children).map (·.trace) = a.traces.map some := by
  have hdrafts : a.parent.draft :: a.draft.children = a.parts.map (·.draft) := rfl
  rw [hdrafts, Assembly.traces, List.map_map, List.map_map]
  rfl

theorem minted_of_draft {c : Call} (hop : c.op = .putAssembly ids a.draft) : c.op.minted = [] := by
  rw [← newTraces_eq_minted hop rfl, map_trace_draft, newTraces_named]

/-- The parts of the draft are those of the assembly. -/
theorem assemblyOf_draft (hs : Reachable s) (h : s.assembly? operator trace = .ok (some a)) :
    assemblyOf operator a.parent.draft a.draft.children a.parent.trace (a.children.map (·.trace)) =
      a := by
  have hpart {p : Part} (hp : p ∈ a.parts) : p.draft.asPart operator p.trace = p := by
    obtain ⟨-, rfl⟩ := livePart_of_assembly hs h hp
    rfl
  have hchildren : childrenOf operator a.draft.children (a.children.map (·.trace)) =
      a.children := by
    rw [childrenOf, Assembly.draft, List.zip_map', List.map_map]
    exact (List.map_congr_left fun p hp => hpart (List.mem_cons_of_mem _ hp)).trans (List.map_id _)
  rw [assemblyOf, hchildren, hpart List.mem_cons_self, masked_of_assembly hs h]

/-- It is planned to store the assembly and to drop nothing. -/
theorem putAssembly_draft (hs : Reachable s) (h : s.assembly? operator trace = .ok (some a))
    (ids : List Uuid) :
    Exchange.putAssembly ids operator a.draft s = .ok (.putAssembly a [], a) := by
  have hlegal := legal_draft hs h
  have hassigned : assignTraces ids ((a.parent.draft :: a.draft.children).map (·.trace)) =
      a.parent.trace :: a.children.map (·.trace) := by
    rw [map_trace_draft, assignTraces_named]
    rfl
  have hchecks : a.draft.namedSlots.forM
      (fun x => checkNamed s operator a.parent.trace x.1 x.2) = .ok () := by
    have hadmits := forall_namedSlots_iff.2 ⟨hlegal.parent, hlegal.children⟩
    refine forM_eq_ok_iff.2 fun x hx => checkNamed_eq_ok.2 ?_
    exact (placeable_iff hs (Or.inl rfl)).2 (hadmits x hx)
  have hpresent : s.assembly? operator a.parent.trace = .ok (some a) := by
    rwa [((assembly?_eq_some_iff hs).1 h).1.2.1]
  have hdropped : droppedTraces (some a) a.children = [] := by
    refine List.filter_eq_nil_iff.2 fun name hname => ?_
    simpa using hname
  rw [putAssembly_eq hlegal.rules rfl hassigned, hchecks, ok_bind, hpresent, ok_bind]
  simp only [assemblyOf_draft hs h, hdropped]
  rfl

theorem drafted_of_assembly (hs : Reachable s) (h : s.assembly? operator trace = .ok (some a))
    (minted : List Uuid) : Drafted s operator minted a [] := by
  have hlegal := legal_draft hs h
  obtain ⟨⟨-, hhead, -⟩, -⟩ := (assembly?_eq_some_iff hs).1 h
  have hplaceable {slot : Slot} {name : Uuid}
      (hadmits : s.Admits operator a.draft.head (slot, name)) :
      Placeable s operator a.parent.trace slot name :=
    (placeable_iff hs (Or.inl rfl)).2 hadmits
  have hmasked := masked_of_assembly hs h
  constructor
  case operator => exact fun p hp => (livePart_of_assembly hs h hp).2
  case parent => exact Or.inr (hplaceable (hlegal.parent _ rfl))
  case children =>
    intro p hp
    exact Or.inr ⟨0, hplaceable (hlegal.children p.draft (List.mem_map_of_mem hp) _ rfl)⟩
  case amount => rw [← hmasked, maskAmount]
  case amountUnit => rw [← hmasked, maskAmount]
  case dropped =>
    refine ⟨some a, hhead ▸ h, (List.filter_eq_nil_iff.2 fun name hname => ?_).symm⟩
    simpa using hname

theorem place_placementsOf_iff {place : Placement} :
    (∃ q ∈ Store.placementsOf now a, q.placement = place) ↔
      place = ⟨a.parent.trace, Uuid.nil⟩ ∨ ∃ p ∈ a.children, place = ⟨p.trace, a.parent.trace⟩ := by
  simp only [Store.placementsOf, List.mem_cons, or_and_right, exists_or, exists_eq_left]
  refine or_congr eq_comm ⟨?_, ?_⟩
  · rintro ⟨q, hq, rfl⟩
    obtain ⟨position, hposition, rfl⟩ := List.mem_mapIdx.1 hq
    exact ⟨_, List.getElem_mem hposition, rfl⟩
  · rintro ⟨p, hp, rfl⟩
    obtain ⟨position, hposition, rfl⟩ := List.getElem_of_mem hp
    exact ⟨_, List.mem_mapIdx.2 ⟨position, hposition, rfl⟩, rfl⟩

section

variable {c : Call} (hs : Reachable s) (h : s.assembly? operator trace = .ok (some a))
variable (hwritten : s.putAssembly now a [] = .ok s')
include hs h hwritten

theorem livePart_iff_of_echo (hs' : Reachable s') (hfresh : c.Fresh s) :
    s'.LivePart p ↔ s.LivePart p := by
  have hd := drafted_of_assembly hs h c.op.minted
  have hlive {q : Part} (hq : q ∈ a.parts) : s.LivePart q := (livePart_of_assembly hs h hq).1
  -- Parts of the assembly are written as they were.
  have hlive' {q : Part} (hq : q ∈ a.parts) : s'.LivePart q := by
    rw [← stored_of_livePart hs (hlive hq)]
    exact livePart_of_written hs (fun p hp => hd.drawn hfresh hp) (nodup_traces_of_assembly hs h)
      hwritten hq
  have hparts : s'.parts = a.parts.foldl (Store.writePart now) s.parts := by
    obtain ⟨-, -, -, hparts, -⟩ := Store.putAssembly_eq_ok hwritten
    rw [hparts]
    congr 1
    exact (List.map_congr_left fun r _ => by simp).trans (List.map_id _)
  by_cases hmem : ∃ q ∈ a.parts, q.trace = p.trace
  · obtain ⟨q, hq, htrace⟩ := hmem
    constructor
    · intro hp
      rw [← (hlive' hq).eq hp hs' htrace]
      exact hlive hq
    · intro hp
      rw [← (hlive hq).eq hp hs htrace]
      exact hlive' hq
  · have hothers {r : PartRecord} (hread : r.part = .ok p) : ∀ q ∈ a.parts, q.trace ≠ r.trace :=
      fun q hq htrace => hmem ⟨q, hq, htrace.trans (PartRecord.part_eq_ok.1 hread).1.symm⟩
    constructor
    · rintro ⟨r, hr, hrlive, hread⟩
      rw [hparts] at hr
      rcases mem_writeParts hr with ⟨hr, -⟩ | ⟨q, hq, r', rfl⟩
      · exact ⟨r, hr, hrlive, hread⟩
      · exact absurd rfl (hothers hread q hq)
    · rintro ⟨r, hr, hrlive, hread⟩
      exact ⟨r, hparts ▸ mem_writeParts_of_ne hr (hothers hread), hrlive, hread⟩

theorem places_of_echo (place : Placement) :
    (∃ q ∈ s'.placements, q.placement = place) ↔ ∃ q ∈ s.placements, q.placement = place := by
  rw [(drafted_of_assembly hs h []).placements_eq (Arranged.of_reachable hs)
    (Rooted.of_reachable hs) hwritten]
  simp only [List.mem_append, or_and_right, exists_or, place_placementsOf_iff,
    ← place_of_assembly_iff hs h, mem_deleteWhere]
  constructor
  · rintro (⟨q, ⟨hq, -⟩, rfl⟩ | ⟨q, hq, -, rfl⟩) <;> exact ⟨q, hq, rfl⟩
  · rintro ⟨q, hq, rfl⟩
    by_cases hof : q.isOf a.parent.trace
    · exact Or.inr ⟨q, hq, hof, rfl⟩
    · exact Or.inl ⟨q, ⟨hq, by simpa using hof⟩, rfl⟩

theorem childTraces_of_echo (hfresh : c.Fresh s) {parent : Uuid} (hparent : parent ≠ Uuid.nil) :
    s'.childTraces parent = s.childTraces parent := by
  have harranged := Arranged.of_reachable hs
  have hrooted := Rooted.of_reachable hs
  have hd := drafted_of_assembly hs h c.op.minted
  obtain ⟨⟨-, hhead, -⟩, -, htraces, -⟩ := (assembly?_eq_some_iff hs).1 h
  by_cases hhere : parent = a.parent.trace
  · rw [hhere, hd.childTraces_eq harranged hrooted hfresh hwritten, htraces, hhead]
  · obtain ⟨top, htop, htoptrace, hnil⟩ := heads_of_assembly hs h
    have hsame : (s'.placements.filter fun q => q.parent = parent) =
        s.placements.filter fun q => q.parent = parent := by
      rw [hd.placements_eq harranged hrooted hwritten, filter_append_eq, filter_deleteWhere_eq]
      · intro q hq hof
        refine decide_eq_false ?_
        rcases Bool.or_eq_true_iff.1 hof with hunder | hself
        · rw [of_decide_eq_true hunder]
          exact Ne.symm hhere
        · rw [eq_of_key_eq harranged.traces hq htop
            ((of_decide_eq_true hself).trans (hhead.trans htoptrace.symm)), hnil]
          exact hparent.symm
      · intro q hq
        refine decide_eq_false ?_
        rcases mem_placementsOf hq with hnil | ⟨-, -, -, hunder⟩
        · rw [hnil]
          exact hparent.symm
        · rw [hunder]
          exact Ne.symm hhere
    rw [Store.childTraces, hsame, Store.childTraces]

theorem sameLookups_of_echo (hs' : Reachable s') (hfresh : c.Fresh s) : SameLookups s s' := by
  obtain ⟨htrades, hstatuses, hfigures, -⟩ := Store.putAssembly_eq_ok hwritten
  have hplaces := placement?_eq_of_mem (Arranged.of_reachable hs) (Arranged.of_reachable hs')
    (places_of_echo hs h hwritten)
  have hlive (p : Part) : s'.LivePart p ↔ s.LivePart p :=
    livePart_iff_of_echo hs h hwritten hs' hfresh
  constructor
  case part => exact part?_eq_of_livePart hs hs' hlive
  case placement => exact hplaces
  case assembly =>
    exact assembly?_eq_of_livePart hs hs' hlive hplaces fun parent =>
      childTraces_of_echo hs h hwritten hfresh
  case figures =>
    rw [hfigures]
    exact List.filter_eq_self.2 fun r _ => by simp
  case trade => funext id; rw [Store.trade?, htrades, Store.trade?]
  case request => funext trace; rw [Store.requestFor?, htrades, Store.requestFor?]
  case answered =>
    funext trace
    rw [Store.tradesAnsweredWith, htrades, Store.tradesAnsweredWith]
  case status => funext trade; rw [Store.statusOf?, hstatuses, Store.statusOf?]
  case side =>
    funext operator side
    rw [Store.sideStatuses, hstatuses, Store.sideStatuses]

end

theorem served_of_echo {c : Call} (hs : Reachable s)
    (h : s.assembly? c.caller trace = .ok (some a)) (hop : c.op = .putAssembly ids a.draft) :
    c.op.minted = [] ∧ ∃ s', c.served s = (.ok (.assembly a), s') ∧ SameLookups s s' ∧
      s'.trades = s.trades ∧ s'.statuses = s.statuses := by
  have hminted := minted_of_draft hop
  have hfresh : c.Fresh s := by
    rw [Call.Fresh, hminted]
    exact ⟨List.nodup_nil, nofun⟩
  have hplan : c.op.plan c.limits c.now c.caller s = .ok (.putAssembly a [], .assembly a) := by
    rw [hop]
    exact Operation.withReply_eq_ok.2 ⟨a, putAssembly_draft hs h ids, rfl⟩
  obtain ⟨s', happly, hserved⟩ := exists_served_of_plan hs hfresh hplan
  have hwritten : s.putAssembly c.now a [] = .ok s' := happly
  have hs' : Reachable s' := reachable_of_served hs hfresh hserved
  obtain ⟨htrades, hstatuses, -⟩ := Store.putAssembly_eq_ok hwritten
  exact ⟨hminted, s', hserved, sameLookups_of_echo hs h hwritten hs' hfresh, htrades, hstatuses⟩

/-- In a reachable store an assembly that an operator reads can be sent back: its body is decoded,
and submitting it gives no trace away and is answered with the same assembly. Figures, trades and
statuses are kept to the row, and all that is read of the store is as before. -/
theorem echo_changes_nothing (hs : Reachable s) (h : s.assembly? operator trace = .ok (some a)) :
    ∃ draft, (AssemblyBody.ofAssembly a).draft = .ok draft ∧
      ∀ c : Call, c.caller = operator → (∃ ids, c.op = .putAssembly ids draft) →
        c.op.minted = [] ∧ ∃ s', c.served s = (.ok (.assembly a), s') ∧
          SameLookups s s' ∧ SameReadings s s' ∧
          s'.figures = s.figures ∧ s'.trades = s.trades ∧ s'.statuses = s.statuses := by
  refine ⟨a.draft, AssemblyBody.draft_ofAssembly a, ?_⟩
  rintro c rfl ⟨ids, hop⟩
  obtain ⟨hminted, s', hserved, hsame, htrades, hstatuses⟩ := served_of_echo hs h hop
  exact ⟨hminted, s', hserved, hsame, hsame.readings, hsame.figures, htrades, hstatuses⟩

theorem echo_changes_nothing_pair :
    ∃ a draft, pairStore.assembly? ⟨1⟩ (.v4 10) = .ok (some a) ∧ a.children.length = 2 ∧
      (AssemblyBody.ofAssembly a).draft = .ok draft ∧
      ∃ s', (sampleCall ⟨1⟩ (.putAssembly [] draft)).served pairStore = (.ok (.assembly a), s') ∧
        SameReadings pairStore s' := by
  have hhead : pairStore.HasPart ⟨1⟩ (.v4 10) true := by decide +kernel
  obtain ⟨part, hpart, -⟩ := hhead.exists_part reachable_pairStore
  obtain ⟨o, ho⟩ := (Coherent.of_reachable reachable_pairStore).exists_assembly? ⟨1⟩ (.v4 10)
  obtain ⟨a, rfl⟩ := exists_of_assembly? ho hpart (by decide +kernel)
  have hlength : a.children.length = 2 := by
    have htraces := ((assembly?_eq_some_iff reachable_pairStore).1 ho).2.2.1
    have hplaces : (pairStore.placements.filter fun q => q.parent = .v4 10).length = 2 := by
      decide +kernel
    rw [← hplaces, ← List.length_map (f := (·.trace)), htraces, Store.childTraces, List.length_map,
      List.length_mergeSort]
  obtain ⟨draft, hdraft, hechoes⟩ := echo_changes_nothing reachable_pairStore ho
  obtain ⟨-, s', hserved, -, hsame, -⟩ := hechoes (sampleCall ⟨1⟩ (.putAssembly [] draft)) rfl
    ⟨[], rfl⟩
  exact ⟨a, draft, ho, hlength, hdraft, s', hserved, hsame⟩

end Footprint
