import Footprint.Proofs.Listing.Walk
import Footprint.Proofs.Trade.Listing
import Mathlib.Data.Nat.Basic

namespace Footprint

open Table Exchange

/-- The live statuses of an operator on one side, by identifier. -/
def Store.sideRows (s : Store) (operator : Uuid) (side : Side) : List StatusRecord :=
  (s.sideStatuses operator side).mergeSort fun r t => r.id ≤ t.id

/-- The statuses that lie at or after the cursor at the time of the fetch. -/
def Exchange.Visit.ahead (operator : Uuid) (side : Side) (v : Visit) : List StatusRecord :=
  (v.store.sideStatuses operator side).filter fun r => v.after.all (· ≤ r.id)

/-- A page shows statuses as they were at the time of the fetch, as many as its limit allows, and
names a next one exactly when more were left. -/
structure Exchange.Visit.Fits (limits : ListingLimits) (operator : Uuid) (side : Side)
    (v : Visit) : Prop where
  shown : ∀ status ∈ v.page.statuses, ∃ r ∈ v.ahead operator side, r.status = .ok status
  size : ∃ size, pageSize limits v.limit = .ok size ∧
    v.page.statuses.length = min size (v.ahead operator side).length ∧
    (v.page.next.isSome ↔ size < (v.ahead operator side).length)

variable {s : Store} {limits : ListingLimits} {operator : Uuid} {side : Side}
variable {rows : List StatusRecord} {full rest statuses : List Status} {turns : List Turn}

theorem StatusRecord.id_of_status {r : StatusRecord} {status : Status}
    (h : r.status = .ok status) : status.id = r.id :=
  (status_eq_ok.1 h).2.2.2.1

theorem mapM_status_take (h : rows.mapM (·.status) = .ok statuses) (n : Nat) :
    (rows.take n).mapM (·.status) = .ok (statuses.take n) :=
  mapM_eq_ok_iff.2 (List.forall₂_take n (mapM_eq_ok_iff.1 h))

theorem map_id_of_mapM_status (h : rows.mapM (·.status) = .ok statuses) :
    statuses.map (·.id) = rows.map (·.id) := by
  rw [← List.forall₂_eq_eq_eq, List.forall₂_map_left_iff, List.forall₂_map_right_iff]
  exact (mapM_eq_ok_iff.1 h).flip.imp fun _ _ hread => StatusRecord.id_of_status hread

theorem mapM_status_filter (h : rows.mapM (·.status) = .ok statuses) (p : Uuid → Bool) :
    (rows.filter (p ·.id)).mapM (·.status) = .ok (statuses.filter (p ·.id)) := by
  refine mapM_eq_ok_iff.2 (List.rel_filter (fun r status hread => ?_) (mapM_eq_ok_iff.1 h))
  simp only [StatusRecord.id_of_status hread]

theorem Uuid.toNat_injective : Function.Injective fun id : Uuid => id.code.toNat :=
  fun _ _ h => Uuid.le_antisymm (Nat.le_of_eq h) (Nat.le_of_eq h.symm)

theorem perm_sideRows : (s.sideRows operator side).Perm (s.sideStatuses operator side) :=
  List.mergeSort_perm _ _

theorem sideRows_sorted (hs : s.Paired) (operator : Uuid) (side : Side) :
    (s.sideRows operator side).Pairwise fun r t => r.id < t.id := by
  have hids : ((s.sideStatuses operator side).map (·.id)).Nodup :=
    hs.statuses.sublist (List.filter_sublist.map _)
  have hkeys := hids.map Uuid.toNat_injective
  rw [List.map_map] at hkeys
  exact pairwise_mergeSort_of_nodup (fun r : StatusRecord => r.id.code.toNat)
    (fun _ _ => decide_eq_true_iff) hkeys

/-- The rows that a page may show, in the order it shows them. -/
theorem mergeSort_admitted (hs : s.Paired) (after : Option Uuid) (limit : Nat) :
    ((s.sideStatuses operator side).filter
        (Store.StatusQuery.admits ⟨operator, side, none, after, limit⟩)).mergeSort
          (fun r t => r.id ≤ t.id) =
      (s.sideRows operator side).filter fun r => after.all (· ≤ r.id) := by
  have hadmits : Store.StatusQuery.admits ⟨operator, side, none, after, limit⟩ =
      fun r => after.all (· ≤ r.id) := by
    funext r
    simp [Store.StatusQuery.admits]
  rw [hadmits]
  exact (eq_mergeSort_of_perm (fun r : StatusRecord => r.id.code.toNat)
    (fun _ _ => decide_eq_true_iff) (perm_sideRows.filter _)
    ((sideRows_sorted hs operator side).filter _)).symm

theorem exists_reading (hs : Reachable s) (operator : Uuid) (side : Side) :
    ∃ full, (s.sideRows operator side).mapM (·.status) = .ok full := by
  refine exists_mapM_eq_ok fun r hr => ?_
  obtain ⟨hr, -, hlive⟩ := mem_sideStatuses.1 (perm_sideRows.mem_iff.1 hr)
  exact exists_status_of_live hs hr hlive

/-- A page is cut out of all statuses of the side. -/
theorem page_eq (hs : s.Paired) (hread : (s.sideRows operator side).mapM (·.status) = .ok full)
    (after : Option Uuid) (limit : Nat) :
    s.page ⟨operator, side, none, after, limit⟩ =
      .ok (firstPage (full.filter fun status => after.all (· ≤ status.id)) limit) := by
  have hfrom := mapM_status_filter hread fun id => after.all (· ≤ id)
  rw [Store.page, mergeSort_admitted hs, mapM_status_take hfrom (limit + 1), ok_bind, firstPage,
    List.take_take, Nat.min_eq_left (Nat.le_succ limit),
    List.getElem?_take_of_lt (Nat.lt_succ_self limit)]

theorem Exchange.StartsAt.filter_eq (hsorted : full.Pairwise fun a b => a.id < b.id)
    {after : Option Uuid} (h : StartsAt full after rest) :
    (full.filter fun status => after.all (· ≤ status.id)) = rest := by
  cases h with
  | first => exact List.filter_eq_self.2 fun _ _ => rfl
  | @later before status rest split =>
    rw [split, List.pairwise_append] at hsorted
    obtain ⟨-, hrest, hbefore⟩ := hsorted
    rw [split, List.filter_append]
    have hnone : before.filter (fun a => (some status.id).all (· ≤ a.id)) = [] := by
      refine List.filter_eq_nil_iff.2 fun a ha => ?_
      have hlt := hbefore a ha status (by simp)
      simp only [Option.all_some, decide_eq_true_eq, Uuid.le_iff]
      simp only [Uuid.lt_iff] at hlt
      omega
    have hall : (status :: rest).filter (fun a => (some status.id).all (· ≤ a.id)) =
        status :: rest := by
      refine List.filter_eq_self.2 fun a ha => ?_
      simp only [Option.all_some, decide_eq_true_eq]
      rcases List.mem_cons.1 ha with rfl | ha
      · exact Nat.le_refl _
      · exact Nat.le_of_lt ((List.pairwise_cons.1 hrest).1 a ha)
    rw [hnone, hall, List.nil_append]

theorem reading_sorted (hs : s.Paired)
    (hread : (s.sideRows operator side).mapM (·.status) = .ok full) :
    full.Pairwise fun a b => a.id < b.id := by
  have hsorted := List.pairwise_map.2 (sideRows_sorted hs operator side)
  rw [← map_id_of_mapM_status hread] at hsorted
  exact List.pairwise_map.1 hsorted

theorem page_of_startsAt (hs : s.Paired)
    (hread : (s.sideRows operator side).mapM (·.status) = .ok full) {after : Option Uuid}
    (hstart : StartsAt full after rest) (limit : Nat) :
    s.page ⟨operator, side, none, after, limit⟩ = .ok (firstPage rest limit) := by
  rw [page_eq hs hread, hstart.filter_eq (reading_sorted hs hread)]

theorem serves_side (hs : s.Paired)
    (hread : (s.sideRows operator side).mapM (·.status) = .ok full) :
    Serves s limits operator (some side) full := by
  intro after rest limit size hstart hsize
  rw [listStatuses_side rfl, hsize, ok_bind]
  exact page_of_startsAt hs hread hstart size

/-- The identifiers that a page lists from its cursor on. -/
def Exchange.Visit.sideIds (operator : Uuid) (side : Side) (v : Visit) : List Uuid :=
  ((v.store.sideRows operator side).map (·.id)).filter fun id => v.after.all (· ≤ id)

variable {v : Visit}

theorem mem_sideIds {id : Uuid} :
    id ∈ v.sideIds operator side ↔ ∃ r ∈ v.ahead operator side, r.id = id := by
  simp only [Visit.sideIds, Visit.ahead, List.mem_filter, List.mem_map, perm_sideRows.mem_iff]
  constructor
  · rintro ⟨⟨r, hr, rfl⟩, hafter⟩
    exact ⟨r, ⟨hr, hafter⟩, rfl⟩
  · rintro ⟨r, ⟨hr, hafter⟩, rfl⟩
    exact ⟨⟨r, hr, rfl⟩, hafter⟩

theorem cut_side (hs : v.store.Paired)
    (hread : (v.store.sideRows operator side).mapM (·.status) = .ok full) {size : Nat}
    (hpage : v.page = firstPage (full.filter fun status => v.after.all (· ≤ status.id)) size) :
    Cut (fun id => id.code.toNat) (Visit.sideIds operator side) v := by
  have hids : v.sideIds operator side =
      (full.filter fun status => v.after.all (· ≤ status.id)).map (·.id) := by
    rw [Visit.sideIds, ← map_id_of_mapM_status hread, List.filter_map]
    rfl
  refine ⟨?_, fun c hc x hx => ?_, ?_⟩
  · rw [hids]
    exact List.pairwise_map.2 ((reading_sorted hs hread).filter _)
  · have hle := (List.mem_filter.1 hx).2
    rw [hc] at hle
    exact of_decide_eq_true hle
  · rw [hids, Visit.ids, hpage]
    exact map_id_eq_append _ size

theorem fits_side (hread : (v.store.sideRows operator side).mapM (·.status) = .ok full)
    {size : Nat} (hsize : pageSize limits v.limit = .ok size)
    (hpage : v.page = firstPage (full.filter fun status => v.after.all (· ≤ status.id)) size) :
    v.Fits limits operator side := by
  have hfrom := mapM_status_filter hread fun id => v.after.all (· ≤ id)
  have hahead : ((v.store.sideRows operator side).filter fun r => v.after.all (· ≤ r.id)).Perm
      (v.ahead operator side) := perm_sideRows.filter _
  refine ⟨fun status hstatus => ?_, size, hsize, ?_⟩
  · rw [hpage] at hstatus
    obtain ⟨r, hr, hread⟩ := (mem_of_mapM_eq_ok hfrom).2 status (List.mem_of_mem_take hstatus)
    exact ⟨r, hahead.mem_iff.1 hr, hread⟩
  · have hlength := (mapM_eq_ok_iff.1 hfrom).length_eq.symm.trans hahead.length_eq
    simp [hpage, firstPage, hlength]

theorem chain_of_side_walk (hs : Reachable s) (hlimits : limits.Proper) (operator : Uuid)
    (side : Side)
    (hsizes : ∀ turn ∈ turns, turn.limit ≠ some 0)
    (hfresh : freshAlong s (turns.flatMap (·.calls))) :
    ∃ visits, walk limits operator (some side) s none turns = .ok visits ∧
      Chain (Cut (fun id => id.code.toNat) (Visit.sideIds operator side)) none visits ∧
      ∀ v ∈ visits, v.Fits limits operator side := by
  obtain ⟨visits, hwalk, hchain⟩ := exists_walk limits operator (some side) none
    (P := fun v => Cut (fun id => id.code.toNat) (Visit.sideIds operator side) v ∧
      v.Fits limits operator side) hs hfresh rfl fun s' after turn hturn hs' _ => by
    obtain ⟨size, hsize, -⟩ := exists_pageSize hlimits (hsizes turn hturn)
    obtain ⟨full, hread⟩ := exists_reading hs' operator side
    have hpaired := Store.Paired.of_reachable hs'
    refine ⟨firstPage (full.filter fun status => after.all (· ≤ status.id)) size, ?_,
      cut_side hpaired hread rfl, fits_side hread hsize rfl⟩
    rw [listStatuses_side rfl, hsize]
    exact page_eq hpaired hread after size
  exact ⟨visits, hwalk, hchain.imp fun _ => And.left, fun v hv => (hchain.forall_mem v hv).2⟩

theorem side_walk_unchanged (hs : Reachable s) (hlimits : limits.Proper)
    (hsizes : ∀ turn ∈ turns, turn.limit ≠ some 0) (hcalls : ∀ turn ∈ turns, turn.calls = [])
    (hlength : s.statusCount operator side < turns.length) :
    ∃ visits, walk limits operator (some side) s none turns = .ok visits ∧ Ended visits ∧
      (visits.flatMap (·.page.statuses)).length = s.statusCount operator side ∧
      (s.sideRows operator side).mapM (·.status) = .ok (visits.flatMap (·.page.statuses)) := by
  obtain ⟨full, hread⟩ := exists_reading hs operator side
  have hcount : full.length = s.statusCount operator side :=
    (mapM_eq_ok_iff.1 hread).length_eq.symm.trans perm_sideRows.length_eq
  obtain ⟨visits, hwalk, -, hended, rfl⟩ := exists_walk_unchanged
    (serves_side (.of_reachable hs) hread) hlimits turns hcalls hsizes .first (hcount ▸ hlength)
  exact ⟨visits, hwalk, hended, hcount, hread⟩

/-- The identifiers over a whole walk through one side ascend, whatever the operators do between two
fetches. Every page shows what is there, as much as its limit allows, and tells whether more is
left. A walk that comes to its end has returned every status once that was listed at each fetch.
When nothing changes, the walk comes to its end and returns all that is listed. -/
theorem side_walk (hs : Reachable s) (hlimits : limits.Proper) (operator : Uuid) (side : Side)
    (turns : List Turn) (hsizes : ∀ turn ∈ turns, turn.limit ≠ some 0)
    (hfresh : freshAlong s (turns.flatMap (·.calls))) :
    ∃ visits, walk limits operator (some side) s none turns = .ok visits ∧
      (visits.flatMap Visit.ids).Pairwise (· < ·) ∧
      (∀ v ∈ visits, v.Fits limits operator side) ∧
      (Ended visits → ∀ id, (∀ v ∈ visits, ∃ r ∈ v.store.sideStatuses operator side, r.id = id) →
        (visits.flatMap Visit.ids).count id = 1) ∧
      ((∀ turn ∈ turns, turn.calls = []) → s.statusCount operator side < turns.length →
        Ended visits ∧
        (visits.flatMap (·.page.statuses)).length = s.statusCount operator side ∧
        ∃ rows : List StatusRecord, rows.Perm (s.sideStatuses operator side) ∧
          rows.Pairwise (fun r t => r.id < t.id) ∧
          rows.mapM (·.status) = .ok (visits.flatMap (·.page.statuses))) := by
  obtain ⟨visits, hwalk, hchain, hfits⟩ :=
    chain_of_side_walk hs hlimits operator side hsizes hfresh
  refine ⟨visits, hwalk, hchain.sorted, hfits, fun hended id hid => ?_, fun hcalls hlength => ?_⟩
  · refine List.count_eq_one_of_mem hchain.nodup (hchain.mem_of_ended hended (by simp) ?_)
    intro v hv hcursor
    obtain ⟨r, hr, rfl⟩ := hid v hv
    refine mem_sideIds.2 ⟨r, List.mem_filter.2 ⟨hr, ?_⟩, rfl⟩
    exact (Option.all_eq_true _ _).2 fun c hc => decide_eq_true (hcursor c hc)
  · obtain ⟨same, hsame, hended, hcount, hread⟩ :=
      side_walk_unchanged hs hlimits hsizes hcalls hlength
    rw [hwalk, Except.ok.injEq] at hsame
    subst hsame
    exact ⟨hended, hcount, _, perm_sideRows, sideRows_sorted (.of_reachable hs) _ _, hread⟩

def threeComponents : AssemblyDraft :=
  let part := (sampleDraft ⟨1⟩ false).parent
  ⟨part, part.toList ++ part.toList ++ part.toList⟩

def askingAt (seconds : Int) (trade status part : Uuid) : Call :=
  { sampleCall ⟨1⟩ (.putRequest trade status ⟨none, ⟨1⟩, ⟨2⟩, part, none, "2024-04-01"⟩) with
    now := ⟨seconds, 0⟩ }

/-- Operator 1 asks operator 2 for the figures of three components, one second after the other. -/
def threeCalls : List Call :=
  [ sampleCall ⟨1⟩ (.putAssembly [.v4 10, .v4 11, .v4 12, .v4 13] threeComponents),
    askingAt 1 (.v4 30) (.v4 31) (.v4 11),
    askingAt 2 (.v4 32) (.v4 33) (.v4 12),
    askingAt 3 (.v4 34) (.v4 35) (.v4 13) ]

def threeRequests : Store :=
  runAll threeCalls Store.empty

theorem reachable_threeRequests : Reachable threeRequests :=
  Reachable.empty.calls (by decide +kernel)

/-- The trade of the second request is deleted. -/
def secondDeletion : Call :=
  sampleCall ⟨1⟩ (.deleteTrade (.v4 32))

/-- Four pages of one status show all three, also with a deletion before the second page none is
shown twice. -/
theorem side_walk_three :
    (∃ visits, walk ⟨1, 1⟩ ⟨1⟩ (some .request) threeRequests none
        (List.replicate 4 ⟨[], none⟩) = .ok visits ∧ Ended visits ∧
      (visits.flatMap (·.page.statuses)).length = 3 ∧
      ∀ id ∈ [(.v4 31 : Uuid), .v4 33, .v4 35], id ∈ visits.flatMap Visit.ids) ∧
    ∃ visits, walk ⟨1, 1⟩ ⟨1⟩ (some .request) threeRequests none
        [⟨[], none⟩, ⟨[secondDeletion], some 2⟩] = .ok visits ∧
      (visits.flatMap Visit.ids).Pairwise (· < ·) := by
  have hlimits : ListingLimits.Proper ⟨1, 1⟩ := ⟨by decide, by decide⟩
  constructor
  · obtain ⟨visits, hwalk, -, -, -, hunchanged⟩ := side_walk reachable_threeRequests hlimits ⟨1⟩
      .request (List.replicate 4 ⟨[], none⟩) (by simp) (by decide +kernel)
    obtain ⟨hended, hlength, rows, hperm, -, hread⟩ := hunchanged (by simp) (by decide +kernel)
    have hcount : threeRequests.statusCount ⟨1⟩ .request = 3 := by decide +kernel
    refine ⟨visits, hwalk, hended, hlength.trans hcount, fun id hid => ?_⟩
    have hlisted : ∀ id ∈ [(.v4 31 : Uuid), .v4 33, .v4 35],
        ∃ r ∈ threeRequests.sideStatuses ⟨1⟩ .request, r.id = id := by decide +kernel
    obtain ⟨r, hr, rfl⟩ := hlisted id hid
    obtain ⟨status, hstatus, hid⟩ := (mem_of_mapM_eq_ok hread).1 r (hperm.mem_iff.2 hr)
    rw [← StatusRecord.id_of_status hid]
    have hmem := List.mem_map_of_mem (f := (·.id)) hstatus
    rw [List.map_flatMap] at hmem
    exact hmem
  · obtain ⟨visits, hwalk, hsorted, -⟩ := side_walk reachable_threeRequests hlimits ⟨1⟩ .request
      [⟨[], none⟩, ⟨[secondDeletion], some 2⟩] (by simp) (by decide +kernel)
    exact ⟨visits, hwalk, hsorted⟩

end Footprint
