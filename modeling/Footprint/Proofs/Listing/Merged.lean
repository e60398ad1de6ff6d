import Footprint.Proofs.Listing.Side
import Mathlib.Data.Int.Order.Basic
import Mathlib.Data.List.Perm.Basic
import Mathlib.Data.Prod.Lex

namespace Footprint

open Table Exchange

/-- The live statuses of an operator on either side. -/
def Store.bothStatuses (s : Store) (operator : Uuid) : List StatusRecord :=
  s.statuses.filter fun r => (r.requester = operator || r.supplier = operator) && r.isLive

/-- Requested later, or at the same time and with the lesser identifier. -/
def StatusRecord.Precedes (r t : StatusRecord) : Prop :=
  (r.requestedAt ≠ t.requestedAt ∧ t.requestedAt.le r.requestedAt) ∨
    (r.requestedAt = t.requestedAt ∧ r.id < t.id)

instance (r t : StatusRecord) : Decidable (r.Precedes t) :=
  inferInstanceAs (Decidable (_ ∨ _))

/-- The loop over the pages of one side comes to its end with these statuses. -/
inductive Exchange.Drains (s : Store) (operator : Uuid) (side : Side) (size : Nat) :
    Option Uuid → List Status → Prop
  | last {after page} (read : s.page ⟨operator, side, none, after, size⟩ = .ok page)
      (stops : page.next = none) : Drains s operator side size after page.statuses
  | more {after page next rest} (read : s.page ⟨operator, side, none, after, size⟩ = .ok page)
      (goes : page.next = some next) (drains : Drains s operator side size (some next) rest) :
      Drains s operator side size after (page.statuses ++ rest)

/-- Where a status stands among those of both sides. -/
def place (requestedAt : Instant) (id : Uuid) : ℤ ×ₗ ℤ ×ₗ ℕ :=
  toLex (-requestedAt.seconds, toLex (-(requestedAt.nanos : ℤ), id.code.toNat))

def StatusRecord.place (r : StatusRecord) : ℤ ×ₗ ℤ ×ₗ ℕ :=
  Footprint.place r.requestedAt r.id

def Status.place (status : Status) : ℤ ×ₗ ℤ ×ₗ ℕ :=
  Footprint.place status.requestedAt status.id

/-- The live statuses of an operator on either side, the newest first. -/
def Store.mergedRows (s : Store) (operator : Uuid) : List StatusRecord :=
  (s.bothStatuses operator).mergeSort fun r t => r.place ≤ t.place

variable {s : Store} {limits : ListingLimits} {operator : Uuid} {side : Side}
variable {rows : List StatusRecord} {full all rest : List Status} {after : Option Uuid} {size : Nat}

theorem place_lt {a b : Instant} {i j : Uuid} :
    place a i < place b j ↔ (a ≠ b ∧ b.le a) ∨ (a = b ∧ i < j) := by
  simp only [place, Prod.Lex.toLex_lt_toLex, Instant.le_iff, Instant.ext_iff, Uuid.lt_iff, ne_eq]
  omega

theorem place_injective {a b : Instant} {i j : Uuid} (h : place a i = place b j) : i = j := by
  simp only [place, toLex_inj, Prod.mk.injEq] at h
  exact Uuid.toNat_injective h.2.2

theorem newestFirst_iff {a b : Status} : newestFirst a b = true ↔ a.place ≤ b.place := by
  simp only [newestFirst, Status.place, place, Prod.Lex.toLex_le_toLex]
  split
  · simp_all [Uuid.le_iff]
  · rename_i hne
    simp only [Instant.le_iff, Instant.ext_iff] at hne ⊢
    omega

theorem StatusRecord.precedes_iff {r t : StatusRecord} : r.Precedes t ↔ r.place < t.place :=
  place_lt.symm

theorem StatusRecord.place_of_status {r : StatusRecord} {status : Status}
    (h : r.status = .ok status) : status.place = r.place := by
  rw [Status.place, (status_eq_ok.1 h).2.2.2.2.2.2.2.2.2.2, id_of_status h]
  rfl

theorem joinPages_of_startsAt (hs : s.Paired)
    (hread : (s.sideRows operator side).mapM (·.status) = .ok full) (hsize : 1 ≤ size)
    {fuel : Nat} (hstart : StartsAt full after rest) (hfuel : rest.length < fuel) :
    joinPages s operator side size fuel after = .ok rest ∧
      Drains s operator side size after rest := by
  induction fuel generalizing after rest with
  | zero => cases hfuel
  | succ fuel ih =>
    have hpage := page_of_startsAt hs hread hstart size
    cases hnext : rest[size]? with
    | none =>
      have hstops : (firstPage rest size).next = none := by rw [firstPage, hnext]; rfl
      have hall : (firstPage rest size).statuses = rest :=
        List.take_of_length_le (List.getElem?_eq_none_iff.1 hnext)
      have hdrains := Drains.last hpage hstops
      rw [hall] at hdrains
      refine ⟨?_, hdrains⟩
      simp only [joinPages, hpage, ok_bind, hstops, hall]
    | some status =>
      have hgoes : (firstPage rest size).next = some status.id := by rw [firstPage, hnext]; rfl
      have hlt := (List.getElem?_eq_some_iff.1 hnext).1
      obtain ⟨hjoin, hdrains⟩ := ih (hstart.drop hnext) (by rw [List.length_drop]; omega)
      have hall : (firstPage rest size).statuses ++ rest.drop size = rest :=
        List.take_append_drop size rest
      have hdrains := Drains.more hpage hgoes hdrains
      rw [hall] at hdrains
      refine ⟨?_, hdrains⟩
      simp only [joinPages, hpage, ok_bind, hgoes, hjoin, hall]

theorem sideInPages_eq (hs : s.Paired)
    (hread : (s.sideRows operator side).mapM (·.status) = .ok full) (hsize : 1 ≤ size) :
    sideInPages s operator side size = .ok full ∧ Drains s operator side size none full := by
  have hcount : full.length = s.statusCount operator side :=
    (mapM_eq_ok_iff.1 hread).length_eq.symm.trans perm_sideRows.length_eq
  exact joinPages_of_startsAt hs hread hsize .first (hcount ▸ Nat.lt_succ_self _)

theorem sides_differ (hs : Reachable s) : ∀ r ∈ s.statuses, r.requester ≠ r.supplier := by
  intro r hr
  obtain ⟨t, hp⟩ := (Store.Paired.of_reachable hs).exists_trade hr
  have hbelongs := (Store.Paired.of_reachable hs).belongs _ hp
  rw [hbelongs.requester, hbelongs.supplier]
  exact parties_differ hs t (Store.fst_mem_of_pairs hp)

theorem perm_bothStatuses (hs : Reachable s) :
    (s.bothStatuses operator).Perm
      (s.sideStatuses operator .request ++ s.sideStatuses operator .response) := by
  have hrequest : (s.bothStatuses operator).filter (fun r => r.requester = operator) =
      s.sideStatuses operator .request := by
    rw [Store.bothStatuses, List.filter_filter, Store.sideStatuses]
    refine List.filter_congr fun r _ => ?_
    by_cases h : r.requester = operator <;> simp [h, StatusRecord.operatorOn]
  have hresponse : (s.bothStatuses operator).filter (fun r => !(r.requester = operator)) =
      s.sideStatuses operator .response := by
    rw [Store.bothStatuses, List.filter_filter, Store.sideStatuses]
    refine List.filter_congr fun r hr => Bool.eq_iff_iff.2 ?_
    have hne : r.requester = operator → r.supplier ≠ operator :=
      fun h h' => sides_differ hs r hr (h.trans h'.symm)
    simp only [Bool.and_eq_true, Bool.or_eq_true, Bool.not_eq_true', decide_eq_true_eq,
      decide_eq_false_iff_not]
    simp only [StatusRecord.operatorOn]
    tauto
  have hperm := List.filter_append_perm (fun r => r.requester = operator) (s.bothStatuses operator)
  rw [hrequest, hresponse] at hperm
  exact hperm.symm

/-- Whatever the size of the pages, the two drained sides are merged to the one list that the rows
of both sides are read as. -/
theorem merged_eq (hs : Reachable s) (hperm : rows.Perm (s.bothStatuses operator))
    (hsorted : rows.Pairwise fun r t => r.place < t.place)
    (hread : rows.mapM (·.status) = .ok all) (hsize : 1 ≤ size) :
    merged s operator size = .ok all := by
  have hpaired := Store.Paired.of_reachable hs
  obtain ⟨requests, hrequests⟩ := exists_reading hs operator .request
  obtain ⟨responses, hresponses⟩ := exists_reading hs operator .response
  have hrows : (s.sideRows operator .request ++ s.sideRows operator .response).Perm rows :=
    (perm_sideRows.append perm_sideRows).trans ((perm_bothStatuses hs).symm.trans hperm.symm)
  -- The two sides are read as a permutation of what the rows are read as.
  have hsame : (requests ++ responses).Perm all := by
    have hboth := List.rel_append (mapM_eq_ok_iff.1 hrequests) (mapM_eq_ok_iff.1 hresponses)
    obtain ⟨read, hread', hperm'⟩ := List.perm_comp_forall₂ hrows.symm hboth
    rw [← mapM_eq_ok_iff, hread, Except.ok.injEq] at hread'
    exact hread' ▸ hperm'.symm
  have hall : all.Pairwise fun a b => a.place < b.place := by
    have hplaces : all.map (·.place) = rows.map (·.place) := by
      rw [← List.forall₂_eq_eq_eq, List.forall₂_map_left_iff, List.forall₂_map_right_iff]
      exact (mapM_eq_ok_iff.1 hread).flip.imp fun _ _ h => StatusRecord.place_of_status h
    rw [← List.pairwise_map, hplaces, List.pairwise_map]
    exact hsorted
  rw [merged, (sideInPages_eq hpaired hrequests hsize).1, ok_bind,
    (sideInPages_eq hpaired hresponses hsize).1, ok_bind]
  exact congrArg Except.ok
    (eq_mergeSort_of_perm Status.place (fun _ _ => newestFirst_iff) hsame.symm hall).symm

theorem perm_mergedRows : (s.mergedRows operator).Perm (s.bothStatuses operator) :=
  List.mergeSort_perm _ _

theorem mergedRows_sorted (hs : s.Paired) :
    (s.mergedRows operator).Pairwise fun r t => r.place < t.place := by
  refine pairwise_mergeSort_of_nodup StatusRecord.place (fun _ _ => decide_eq_true_iff) ?_
  have hids : ((s.bothStatuses operator).map (·.id)).Nodup :=
    hs.statuses.sublist (List.filter_sublist.map _)
  exact List.pairwise_map.2 ((List.pairwise_map.1 hids).imp fun hne h => hne (place_injective h))

theorem eq_mergedRows (hperm : rows.Perm (s.bothStatuses operator))
    (hsorted : rows.Pairwise StatusRecord.Precedes) : rows = s.mergedRows operator :=
  eq_mergeSort_of_perm StatusRecord.place (fun _ _ => decide_eq_true_iff) hperm
    (hsorted.imp StatusRecord.precedes_iff.1)

/-- Statuses that came in one after the other. -/
theorem mergedRows_eq_reverse
    (hsorted : (s.bothStatuses operator).reverse.Pairwise StatusRecord.Precedes) :
    s.mergedRows operator = (s.bothStatuses operator).reverse :=
  (eq_mergedRows (List.reverse_perm _) hsorted).symm

theorem exists_merged_reading (hs : Reachable s) (operator : Uuid) :
    ∃ all, (s.mergedRows operator).mapM (·.status) = .ok all := by
  refine exists_mapM_eq_ok fun r hr => ?_
  obtain ⟨hr, hlive⟩ := List.mem_filter.1 (perm_mergedRows.mem_iff.1 hr)
  rw [Bool.and_eq_true] at hlive
  exact exists_status_of_live hs hr hlive.2

theorem nodup_merged (hs : s.Paired) (hread : (s.mergedRows operator).mapM (·.status) = .ok all) :
    (all.map (·.id)).Nodup := by
  rw [map_id_of_mapM_status hread, (perm_mergedRows.map _).nodup_iff]
  exact hs.statuses.sublist (List.filter_sublist.map _)

/-- A page that both sides are listed on is cut out of the one list. -/
theorem listStatuses_merged (hs : Reachable s) (hlimits : limits.Proper)
    (hread : (s.mergedRows operator).mapM (·.status) = .ok all) {limit : Option Nat}
    (hsize : pageSize limits limit = .ok size) (after : Option Uuid) :
    listStatuses s limits operator ⟨none, none, after, limit⟩ = .ok (pageFrom all after size) := by
  have hpos : 1 ≤ limits.maxLimit := hlimits.default_pos.trans hlimits.default_le
  have hall := merged_eq hs perm_mergedRows (mergedRows_sorted (.of_reachable hs)) hread hpos
  simp only [listStatuses, hsize, ok_bind, hall, Option.all_none, List.filter_true]

theorem pageFrom_of_startsAt (hids : (all.map (·.id)).Nodup) (hstart : StartsAt all after rest)
    (limit : Nat) : pageFrom all after limit = firstPage rest limit := by
  cases hstart with
  | first => rfl
  | @later before status rest split =>
    have hindex : all.findIdx (fun a => a.id = status.id) = before.length := by
      rw [split, List.map_append, List.nodup_append] at hids
      have hno : ∀ a ∈ before, ¬ a.id = status.id := fun a ha =>
        hids.2.2 _ (List.mem_map_of_mem ha) _ (by simp)
      rw [split, List.findIdx_append, List.findIdx_eq_length_of_false (by simpa using hno)]
      simp [List.findIdx_cons]
    simp only [pageFrom, hindex]
    rw [split, List.drop_left]
    rfl

theorem serves_merged (hs : Reachable s) (hlimits : limits.Proper)
    (hread : (s.mergedRows operator).mapM (·.status) = .ok all) :
    Serves s limits operator none all := by
  intro after rest limit size hstart hsize
  rw [listStatuses_merged hs hlimits hread hsize,
    pageFrom_of_startsAt (nodup_merged (.of_reachable hs) hread) hstart]

theorem Exchange.StartsAt.ne_nil (h : StartsAt all after rest) (hall : all ≠ []) : rest ≠ [] := by
  cases h with
  | first => exact hall
  | later => exact List.cons_ne_nil _ _

/-- Every page but the last is full, and the last one is not empty unless nothing is listed. -/
theorem length_of_shows {limit : Option Nat} (hsize : pageSize limits limit = .ok size) {v : Visit}
    (hshows : v.Shows limits all) (hlimit : v.limit = limit) :
    v.page.statuses.length ≤ size ∧ (v.page.next ≠ none → v.page.statuses.length = size) ∧
      (all ≠ [] → v.page.statuses ≠ []) := by
  obtain ⟨rest, size', hstart, hsize', hpos, hpage⟩ := hshows
  rw [hlimit, hsize, Except.ok.injEq] at hsize'
  subst hsize'
  rw [hpage, firstPage]
  refine ⟨List.length_take_le _ _, fun hnext => ?_, fun hall hnil => ?_⟩
  · have hlt : size < rest.length := by simpa using hnext
    exact List.length_take_of_le hlt.le
  · rcases List.take_eq_nil_iff.1 hnil with hzero | hrest
    · omega
    · exact hstart.ne_nil hall hrest

/-- The walk through both sides fetches page after page of one list, which holds every live status
of the operator once, the newest first. -/
theorem merged_listing (hs : Reachable s) (operator : Uuid) :
    ∃ (rows : List StatusRecord) (all : List Status),
      rows.Perm (s.bothStatuses operator) ∧ rows.Pairwise StatusRecord.Precedes ∧
      rows.mapM (·.status) = .ok all ∧
      ∀ limits : ListingLimits, limits.Proper →
        (∀ side, ∃ statuses, Drains s operator side limits.maxLimit none statuses ∧
          sideInPages s operator side limits.maxLimit = .ok statuses) ∧
        ∀ limit, limit ≠ some 0 → ∃ size, pageSize limits limit = .ok size ∧ 1 ≤ size ∧
          size ≤ limits.maxLimit ∧
          ∀ fetches, all.length < fetches → ∃ front last,
            walk limits operator none s none (List.replicate fetches ⟨[], limit⟩) =
              .ok (front ++ [last]) ∧
            last.page.next = none ∧
            (front ++ [last]).flatMap (·.page.statuses) = all ∧
            (∀ v ∈ front, v.page.statuses.length = size) ∧
            last.page.statuses.length ≤ size ∧ (all ≠ [] → last.page.statuses ≠ []) := by
  obtain ⟨all, hread⟩ := exists_merged_reading hs operator
  have hpaired := Store.Paired.of_reachable hs
  refine ⟨s.mergedRows operator, all, perm_mergedRows,
    (mergedRows_sorted hpaired).imp StatusRecord.precedes_iff.2, hread,
    fun limits hlimits => ⟨fun side => ?_, fun limit hlimit => ?_⟩⟩
  · obtain ⟨full, hfull⟩ := exists_reading hs operator side
    have hpos : 1 ≤ limits.maxLimit := hlimits.default_pos.trans hlimits.default_le
    obtain ⟨hjoin, hdrains⟩ := sideInPages_eq hpaired hfull hpos
    exact ⟨full, hdrains, hjoin⟩
  · obtain ⟨size, hsize, hpos, hle⟩ := exists_pageSize hlimits hlimit
    refine ⟨size, hsize, hpos, hle, fun fetches hfetches => ?_⟩
    obtain ⟨visits, hwalk, hchain, hended, hall⟩ := exists_walk_unchanged
      (serves_merged hs hlimits hread) hlimits (List.replicate fetches ⟨[], limit⟩)
      (by simp) (by simp [hlimit]) .first (by simpa using hfetches)
    obtain ⟨front, last, rfl, hstops, hfront⟩ := hchain.exists_last hended
    have hpages : ∀ v ∈ front ++ [last], v.page.statuses.length ≤ size ∧
        (v.page.next ≠ none → v.page.statuses.length = size) ∧
        (all ≠ [] → v.page.statuses ≠ []) := by
      intro v hv
      obtain ⟨turn, hturn, hv'⟩ := limit_of_walk hwalk v hv
      rw [List.eq_of_mem_replicate hturn] at hv'
      exact length_of_shows hsize (hchain.forall_mem v hv) hv'
    have hlast := hpages last (by simp)
    exact ⟨front, last, hwalk, hstops, hall,
      fun v hv => (hpages v (by simp [hv])).2.1 (hfront v hv), hlast.1, hlast.2.2⟩

/-- Pages of two show the three requests, the last one first. -/
theorem merged_listing_three :
    ∃ (rows : List StatusRecord) (all : List Status),
      rows.map (·.id) = [.v4 35, .v4 33, .v4 31] ∧ rows.mapM (·.status) = .ok all ∧
      ∃ front last, walk ⟨2, 2⟩ ⟨1⟩ none threeRequests none (List.replicate 4 ⟨[], none⟩) =
          .ok (front ++ [last]) ∧
        (front ++ [last]).flatMap (·.page.statuses) = all ∧
        ∀ v ∈ front, v.page.statuses.length = 2 := by
  obtain ⟨rows, all, hperm, hsorted, hread, hpages⟩ := merged_listing reachable_threeRequests ⟨1⟩
  have hids : rows.map (·.id) = [.v4 35, .v4 33, .v4 31] := by
    rw [eq_mergedRows hperm hsorted, mergedRows_eq_reverse (by decide +kernel)]
    decide +kernel
  have hlength : all.length = 3 := by
    rw [← (mapM_eq_ok_iff.1 hread).length_eq, ← List.length_map (f := (·.id)), hids]
    rfl
  obtain ⟨size, hsize, -, -, hwalks⟩ := (hpages ⟨2, 2⟩ ⟨by decide, by decide⟩).2 none (by simp)
  cases hsize
  obtain ⟨front, last, hwalk, -, hall, hfront, -⟩ := hwalks 4 (by omega)
  exact ⟨rows, all, hids, hread, front, last, hwalk, hall, hfront⟩

end Footprint
