import Footprint.Proofs.Listing.Merged
import Mathlib.Data.List.TakeWhile

namespace Footprint

open Exchange

/-- A live status with this identifier has the operator on one of its sides. -/
def Store.Lists (s : Store) (operator id : Uuid) : Prop :=
  ∃ r ∈ s.bothStatuses operator, r.id = id

/-- The first status stands before the second, listed or not. -/
def Store.Precedes (s : Store) (id other : Uuid) : Prop :=
  ∃ r ∈ s.statuses, ∃ q ∈ s.statuses, r.id = id ∧ q.id = other ∧ r.Precedes q

/-- The time at which a status was requested. -/
def Store.requestedAt (s : Store) (id : Uuid) : Instant :=
  ((s.statuses.find? (·.id = id)).map (·.requestedAt)).getD default

/-- The identifiers that a page lists from its cursor on. -/
def Exchange.Visit.mergedIds (operator : Uuid) (v : Visit) : List Uuid :=
  let ids := (v.store.mergedRows operator).map (·.id)
  match v.after with
  | some c => ids.dropWhile (· ≠ c)
  | none => ids

variable {s s' : Store} {limits : ListingLimits} {operator c x : Uuid} {after : Option Uuid}
variable {turns : List Turn} {visits : List Visit} {v : Visit} {all : List Status} {size : Nat}
variable {r : StatusRecord}

/-- A status stays in the store, with its identifier and the time of its request. -/
def Keeps (s s' : Store) : Prop :=
  ∀ r ∈ s.statuses, ∃ r' ∈ s'.statuses, r'.id = r.id ∧ r'.requestedAt = r.requestedAt

theorem Keeps.refl : Keeps s s :=
  fun r hr => ⟨r, hr, rfl, rfl⟩

theorem Keeps.trans {s'' : Store} (h : Keeps s s') (h' : Keeps s' s'') : Keeps s s'' := by
  intro r hr
  obtain ⟨r', hr', hid, htime⟩ := h r hr
  obtain ⟨r'', hr'', hid', htime'⟩ := h' r' hr'
  exact ⟨r'', hr'', hid'.trans hid, htime'.trans htime⟩

theorem keeps_after (hs : Reachable s) (c : Call) : Keeps s (c.after s) := by
  rcases c.after_eq s with hsame | ⟨reply, haccepted⟩
  · rw [hsame]
    exact .refl
  · intro r hr
    have hpaired := Store.Paired.of_reachable hs
    obtain ⟨t, hp⟩ := hpaired.exists_trade hr
    obtain ⟨p', hp', hmove⟩ := (evolves_of_accepted hpaired haccepted).next hpaired hp
    exact ⟨p'.2, Store.snd_mem_of_pairs hp', (hmove.keeps (hpaired.belongs _ hp)).2.1,
      hmove.requestedAt⟩

theorem keeps_of_leads (hs : Reachable s) (h : Leads s s') : Reachable s' ∧ Keeps s s' := by
  induction h with
  | refl => exact ⟨hs, .refl⟩
  | tail _ hcall ih =>
    obtain ⟨c, hfresh, rfl⟩ := hcall
    exact ⟨ih.1.call c hfresh, ih.2.trans (keeps_after ih.1 c)⟩

theorem requestedAt_of_mem (hs : s.Paired) (hr : r ∈ s.statuses) :
    s.requestedAt r.id = r.requestedAt := by
  have hfind : s.statuses.find? (·.id = r.id) = some r :=
    Table.find?_of_unique hr (by simp) fun q hq hid =>
      Table.eq_of_key_eq hs.statuses hq hr (of_decide_eq_true hid)
  rw [Store.requestedAt, hfind]
  rfl

/-- Also a later store tells where a row stands. -/
theorem place_of_leads (hs : Reachable s) (h : Leads s s') (hr : r ∈ s.statuses) :
    place (s'.requestedAt r.id) r.id = r.place := by
  obtain ⟨hs', hkeeps⟩ := keeps_of_leads hs h
  obtain ⟨r', hr', hid, htime⟩ := hkeeps r hr
  rw [← hid, requestedAt_of_mem (.of_reachable hs') hr', htime, hid]
  rfl

section

variable {κ : Type} [LinearOrder κ] {key : Uuid → κ} {ids : List Uuid}

theorem mem_dropWhile_of_sorted (hsorted : ids.Pairwise fun x y => key x < key y) (hc : c ∈ ids) :
    x ∈ ids.dropWhile (· ≠ c) ↔ x ∈ ids ∧ key c ≤ key x := by
  induction ids with
  | nil => cases hc
  | cons a ids ih =>
    obtain ⟨hbelow, hids⟩ := List.pairwise_cons.1 hsorted
    by_cases ha : a = c
    · subst ha
      simp only [ne_eq, not_true, decide_false, Bool.false_eq_true, not_false_eq_true,
        List.dropWhile_cons_of_neg, List.mem_cons]
      constructor
      · rintro (rfl | hx)
        · exact ⟨Or.inl rfl, le_rfl⟩
        · exact ⟨Or.inr hx, (hbelow x hx).le⟩
      · exact And.left
    · have hrest := (List.mem_cons.1 hc).resolve_left (Ne.symm ha)
      rw [List.dropWhile_cons_of_pos (by simpa using ha), ih hids hrest, List.mem_cons]
      constructor
      · exact fun ⟨hx, hle⟩ => ⟨Or.inr hx, hle⟩
      · rintro ⟨rfl | hx, hle⟩
        · exact absurd (hbelow c hrest) hle.not_gt
        · exact ⟨hx, hle⟩

theorem dropWhile_eq_nil (hc : c ∉ ids) : ids.dropWhile (· ≠ c) = [] :=
  List.dropWhile_eq_nil_iff.2 fun _ hx => decide_eq_true fun heq => hc (heq ▸ hx)

end

/-- The statuses from a cursor on; none when it is not among them. -/
def fromCursor (all : List Status) : Option Uuid → List Status
  | some c => all.dropWhile (·.id ≠ c)
  | none => all

theorem pageFrom_eq (all : List Status) (after : Option Uuid) (size : Nat) :
    pageFrom all after size = firstPage (fromCursor all after) size := by
  cases after with
  | none => rfl
  | some c =>
    have hindex : (all.dropWhile (·.id ≠ c)) = all.drop (all.findIdx (·.id = c)) := by
      rw [List.dropWhile_eq_drop_findIdx_not]
      simp
    simp only [fromCursor, hindex]
    rfl

theorem pageFrom_of_gone (hgone : c ∉ all.map (·.id)) (size : Nat) :
    pageFrom all (some c) size = ⟨[], none⟩ := by
  have hnone : fromCursor all (some c) = [] := by
    rw [← List.map_eq_nil_iff (f := (·.id)), fromCursor]
    exact List.dropWhile_map.symm.trans (dropWhile_eq_nil hgone)
  rw [pageFrom_eq, hnone, firstPage, List.take_nil, List.getElem?_nil, Option.map_none]

theorem lists_iff : s.Lists operator x ↔ x ∈ (s.mergedRows operator).map (·.id) := by
  simp [Store.Lists, perm_mergedRows.mem_iff]

/-- The page is cut out of the statuses of both sides, whose rows stand in the order of the key. -/
structure Merges (key : Uuid → ℤ ×ₗ ℤ ×ₗ ℕ) (operator : Uuid) (v : Visit) : Prop where
  paired : v.store.Paired
  place : ∀ r ∈ v.store.statuses, key r.id = r.place
  page : ∃ all size, (v.store.mergedRows operator).mapM (·.status) = .ok all ∧
    v.page = pageFrom all v.after size

namespace Merges

variable {key : Uuid → ℤ ×ₗ ℤ ×ₗ ℕ}

theorem exists_page (h : Merges key operator v) :
    ∃ statuses size, v.mergedIds operator = statuses.map (·.id) ∧
      v.page = firstPage statuses size := by
  obtain ⟨all, size, hread, hpage⟩ := h.page
  rw [pageFrom_eq] at hpage
  refine ⟨_, size, ?_, hpage⟩
  rw [Visit.mergedIds, ← map_id_of_mapM_status hread]
  cases v.after with
  | none => rfl
  | some c => exact List.dropWhile_map

/-- The page of a cursor that is gone is empty and ends the walk. -/
theorem of_gone (h : Merges key operator v) (hc : c ∈ v.after)
    (hgone : ¬ v.store.Lists operator c) : v.mergedIds operator = [] ∧ v.page = ⟨[], none⟩ := by
  have hmissing : c ∉ (v.store.mergedRows operator).map (·.id) := mt lists_iff.2 hgone
  obtain ⟨all, size, hread, hpage⟩ := h.page
  constructor
  · rw [Visit.mergedIds, hc]
    exact dropWhile_eq_nil hmissing
  · rw [hpage, hc]
    exact pageFrom_of_gone (map_id_of_mapM_status hread ▸ hmissing) size

theorem ids_sorted (h : Merges key operator v) :
    ((v.store.mergedRows operator).map (·.id)).Pairwise fun x y => key x < key y := by
  refine List.pairwise_map.2 ((mergedRows_sorted h.paired).imp_of_mem fun hr ht hlt => ?_)
  have hmem {r : StatusRecord} (hr : r ∈ v.store.mergedRows operator) : r ∈ v.store.statuses :=
    List.mem_of_mem_filter (perm_mergedRows.mem_iff.1 hr)
  rw [h.place _ (hmem hr), h.place _ (hmem ht)]
  exact hlt

theorem mem_mergedIds (h : Merges key operator v)
    (hcursor : ∀ c ∈ v.after, v.store.Lists operator c) :
    x ∈ v.mergedIds operator ↔ v.store.Lists operator x ∧ ∀ c ∈ v.after, key c ≤ key x := by
  rw [lists_iff, Visit.mergedIds]
  cases hafter : v.after with
  | none => simp
  | some c =>
    have hc := lists_iff.1 (hcursor c hafter)
    simpa using mem_dropWhile_of_sorted h.ids_sorted hc

theorem cut (h : Merges key operator v) : Cut key (Visit.mergedIds operator) v := by
  refine ⟨?_, fun c hc x hx => ?_, ?_⟩
  · rw [Visit.mergedIds]
    split
    · exact h.ids_sorted.sublist (List.dropWhile_sublist _)
    · exact h.ids_sorted
  · by_cases hlists : v.store.Lists operator c
    · have hcursor : ∀ d ∈ v.after, v.store.Lists operator d := by
        rw [hc]
        simpa using hlists
      exact ((h.mem_mergedIds hcursor).1 hx).2 c hc
    · rw [(h.of_gone hc hlists).1] at hx
      cases hx
  · obtain ⟨statuses, size, hids, hpage⟩ := h.exists_page
    rw [hids, Visit.ids, hpage]
    exact map_id_eq_append statuses size

theorem mem_of_next (h : Merges key operator v) {next : Uuid} (hnext : next ∈ v.page.next) :
    next ∈ (v.store.mergedRows operator).map (·.id) := by
  have hmem := h.cut.next_mem hnext
  rw [Visit.mergedIds] at hmem
  split at hmem
  · exact (List.dropWhile_sublist _).subset hmem
  · exact hmem

theorem precedes_iff (h : Merges key operator v) (hx : ∃ r ∈ v.store.statuses, r.id = x)
    (hc : ∃ r ∈ v.store.statuses, r.id = c) : v.store.Precedes x c ↔ key x < key c := by
  constructor
  · rintro ⟨r, hr, q, hq, rfl, rfl, hprecedes⟩
    rw [h.place r hr, h.place q hq]
    exact StatusRecord.precedes_iff.1 hprecedes
  · obtain ⟨r, hr, rfl⟩ := hx
    obtain ⟨q, hq, rfl⟩ := hc
    rw [h.place r hr, h.place q hq]
    exact fun hlt => ⟨r, hr, q, hq, rfl, rfl, StatusRecord.precedes_iff.2 hlt⟩

end Merges

theorem exists_row_of_lists (h : s.Lists operator x) : ∃ r ∈ s.statuses, r.id = x := by
  obtain ⟨r, hr, hid⟩ := h
  exact ⟨r, List.mem_of_mem_filter hr, hid⟩

/-- A cursor names a status of the store, though it may be deleted by now. -/
theorem known_of_walk (hs : Reachable s) (hfresh : freshAlong s (turns.flatMap (·.calls)))
    (hknown : ∀ c ∈ after, ∃ r ∈ s.statuses, r.id = c)
    (hwalk : walk limits operator none s after turns = .ok visits)
    (hnext : ∀ v ∈ visits, ∀ next ∈ v.page.next, ∃ r ∈ v.store.statuses, r.id = next) :
    ∀ v ∈ visits, ∀ c ∈ v.after, ∃ r ∈ v.store.statuses, r.id = c := by
  induction turns generalizing s after visits with
  | nil =>
    cases hwalk
    simp
  | cons turn turns ih =>
    rw [List.flatMap_cons, freshAlong_append, Bool.and_eq_true] at hfresh
    have hleads : Leads s (runAll turn.calls s) := Leads.calls .refl hfresh.1
    obtain ⟨hs', hkeeps⟩ := keeps_of_leads hs hleads
    have hhere : ∀ c ∈ after, ∃ r ∈ (runAll turn.calls s).statuses, r.id = c := by
      intro c hc
      obtain ⟨r, hr, rfl⟩ := hknown c hc
      obtain ⟨r', hr', hid, -⟩ := hkeeps r hr
      exact ⟨r', hr', hid⟩
    obtain ⟨page, -, hwalk⟩ := bind_eq_ok.1 hwalk
    split at hwalk
    · cases hwalk
      simpa using hhere
    · rename_i next hpage
      obtain ⟨rest, hrest, hwalk⟩ := bind_eq_ok.1 hwalk
      cases hwalk
      rw [List.forall_mem_cons] at hnext ⊢
      refine ⟨hhere, ih hs' hfresh.2 ?_ hrest hnext.2⟩
      simpa [hpage] using hnext.1

theorem chain_of_merged_walk (hs : Reachable s) (hlimits : limits.Proper) (operator : Uuid)
    (hsizes : ∀ turn ∈ turns, turn.limit ≠ some 0)
    (hfresh : freshAlong s (turns.flatMap (·.calls))) :
    ∃ visits key, walk limits operator none s none turns = .ok visits ∧
      Chain (Merges key operator) none visits := by
  -- The store after all calls knows the place of every status that was ever seen.
  let last := runAll (turns.flatMap (·.calls)) s
  obtain ⟨visits, hwalk, hchain⟩ := exists_walk limits operator none none
    (P := Merges (fun id => place (last.requestedAt id) id) operator) hs hfresh rfl
    fun s' after turn hturn hs' hleads => by
    obtain ⟨size, hsize, -⟩ := exists_pageSize hlimits (hsizes turn hturn)
    obtain ⟨all, hread⟩ := exists_merged_reading hs' operator
    exact ⟨_, listStatuses_merged hs' hlimits hread hsize after, .of_reachable hs',
      fun r hr => place_of_leads hs' hleads hr, all, size, hread, rfl⟩
  exact ⟨visits, _, hwalk, hchain⟩

/-- A walk through both sides returns nothing twice, whatever the operators do between two fetches.
When the status that a cursor names is not listed any more, the next page is empty and the last one.
So a walk that comes to its end has returned every status once that was listed at each fetch, except
those that do not stand before such a cursor. -/
theorem merged_walk (hs : Reachable s) (hlimits : limits.Proper) (operator : Uuid)
    (turns : List Turn) (hsizes : ∀ turn ∈ turns, turn.limit ≠ some 0)
    (hfresh : freshAlong s (turns.flatMap (·.calls))) :
    ∃ visits, walk limits operator none s none turns = .ok visits ∧
      (visits.flatMap Visit.ids).Nodup ∧
      (∀ v ∈ visits, ∀ c ∈ v.after, ¬ v.store.Lists operator c → v.page = ⟨[], none⟩) ∧
      (Ended visits → ∀ id, (∀ v ∈ visits, v.store.Lists operator id) →
        ((visits.flatMap Visit.ids).count id = 1 ↔
          ∀ v ∈ visits, ∀ c ∈ v.after,
            v.store.Lists operator c ∨ v.store.Precedes id c)) := by
  obtain ⟨visits, key, hwalk, hmerges⟩ :=
    chain_of_merged_walk hs hlimits operator hsizes hfresh
  have hchain := hmerges.imp fun v h => h.cut
  have hknown := known_of_walk hs hfresh (by simp) hwalk fun v hv next hnext =>
    exists_row_of_lists (lists_iff.2 ((hmerges.forall_mem v hv).mem_of_next hnext))
  refine ⟨visits, hwalk, hchain.nodup,
    fun v hv c hc hgone => ((hmerges.forall_mem v hv).of_gone hc hgone).2,
    fun hended id hid => ⟨fun hcount v hv c hc => ?_, fun hcursors => ?_⟩⟩
  · have hv' := hmerges.forall_mem v hv
    rw [or_iff_not_imp_left, hv'.precedes_iff (exists_row_of_lists (hid v hv)) (hknown v hv c hc)]
    intro hgone
    by_contra hle
    have hmissing := hchain.not_mem_of_empty hv hc (not_lt.1 hle) (hv'.of_gone hc hgone).1
    rw [List.count_eq_zero_of_not_mem hmissing] at hcount
    cases hcount
  · refine List.count_eq_one_of_mem hchain.nodup (hchain.mem_of_ended hended (by simp) ?_)
    intro v hv hle
    have hv' := hmerges.forall_mem v hv
    refine (hv'.mem_mergedIds fun c hc => ?_).2 ⟨hid v hv, hle⟩
    refine (hcursors v hv c hc).resolve_right fun hprecedes => ?_
    rw [hv'.precedes_iff (exists_row_of_lists (hid v hv)) (hknown v hv c hc)] at hprecedes
    exact absurd (hle c hc) hprecedes.not_ge

/-- Operator 1 lists its three requests one by one, and deletes the second after the first page. -/
def interruptedTurns : List Turn :=
  [⟨[], none⟩, ⟨[secondDeletion], none⟩]

theorem walk_interrupted :
    ∃ first : Status, first.id = .v4 35 ∧
      walk ⟨1, 1⟩ ⟨1⟩ none threeRequests none interruptedTurns =
        .ok [⟨threeRequests, none, none, ⟨[first], some (.v4 33)⟩⟩,
          ⟨secondDeletion.after threeRequests, some (.v4 33), none, ⟨[], none⟩⟩] := by
  have hlimits : ListingLimits.Proper ⟨1, 1⟩ := ⟨by decide, by decide⟩
  have hreach : Reachable (secondDeletion.after threeRequests) :=
    reachable_threeRequests.call secondDeletion (by decide +kernel)
  obtain ⟨all, hread⟩ := exists_merged_reading reachable_threeRequests ⟨1⟩
  obtain ⟨left, hleft⟩ := exists_merged_reading hreach ⟨1⟩
  have hids : all.map (·.id) = [.v4 35, .v4 33, .v4 31] := by
    rw [map_id_of_mapM_status hread, mergedRows_eq_reverse (by decide +kernel)]
    decide +kernel
  have hgone : (.v4 33 : Uuid) ∉ left.map (·.id) := by
    rw [map_id_of_mapM_status hleft, mergedRows_eq_reverse (by decide +kernel)]
    decide +kernel
  obtain ⟨first, _, rfl, hfirst, htail⟩ := List.map_eq_cons_iff.1 hids
  obtain ⟨second, rest, rfl, hsecond, -⟩ := List.map_eq_cons_iff.1 htail
  have hsize : pageSize ⟨1, 1⟩ none = .ok 1 := rfl
  have hpage := listStatuses_merged reachable_threeRequests hlimits hread hsize none
  have hpage' := listStatuses_merged hreach hlimits hleft hsize (some (.v4 33))
  rw [pageFrom_of_gone hgone] at hpage'
  have hnext : pageFrom (first :: second :: rest) none 1 = ⟨[first], some (.v4 33)⟩ := by
    rw [← hsecond]
    rfl
  rw [hnext] at hpage
  refine ⟨first, hfirst, ?_⟩
  have hdeleted : runAll [secondDeletion] threeRequests = secondDeletion.after threeRequests := rfl
  have hsame : runAll [] threeRequests = threeRequests := rfl
  simp only [interruptedTurns, walk, hsame, hpage, ok_bind, hdeleted, hpage']

/-- The walk comes to its end without the first request, which is listed at both fetches. -/
theorem merged_walk_misses :
    Reachable threeRequests ∧ freshAlong threeRequests (interruptedTurns.flatMap (·.calls)) ∧
      ∃ visits, walk ⟨1, 1⟩ ⟨1⟩ none threeRequests none interruptedTurns = .ok visits ∧
        Ended visits ∧ (∀ v ∈ visits, v.store.Lists ⟨1⟩ (.v4 31)) ∧
        (visits.flatMap Visit.ids).count (.v4 31) = 0 := by
  obtain ⟨first, hfirst, hwalk⟩ := walk_interrupted
  refine ⟨reachable_threeRequests, by decide +kernel, _, hwalk, ⟨_, rfl, rfl⟩, ?_, ?_⟩
  · have hlisted : (∃ r ∈ threeRequests.bothStatuses ⟨1⟩, r.id = .v4 31) ∧
        ∃ r ∈ (secondDeletion.after threeRequests).bothStatuses ⟨1⟩, r.id = .v4 31 := by
      decide +kernel
    simpa [Store.Lists] using hlisted
  · have hids : ([.v4 35] : List Uuid).count (.v4 31) = 0 := by decide
    simpa [Visit.ids, hfirst] using hids

/-- The third request stands before the one that is deleted and is returned once. -/
theorem merged_walk_three :
    ∃ visits, walk ⟨1, 1⟩ ⟨1⟩ none threeRequests none interruptedTurns = .ok visits ∧
      Ended visits ∧ (visits.flatMap Visit.ids).count (.v4 35) = 1 := by
  have hlimits : ListingLimits.Proper ⟨1, 1⟩ := ⟨by decide, by decide⟩
  obtain ⟨visits, hwalk, -, -, hcount⟩ := merged_walk reachable_threeRequests hlimits ⟨1⟩
    interruptedTurns (by simp [interruptedTurns]) (by decide +kernel)
  obtain ⟨first, hfirst, hsame⟩ := walk_interrupted
  have hvisits := Except.ok.inj (hwalk.symm.trans hsame)
  subst hvisits
  have hended : Ended [⟨threeRequests, none, none, ⟨[first], some (.v4 33)⟩⟩,
      ⟨secondDeletion.after threeRequests, some (.v4 33), none, ⟨[], none⟩⟩] := ⟨_, rfl, rfl⟩
  have hlisted : (∃ r ∈ threeRequests.bothStatuses ⟨1⟩, r.id = .v4 35) ∧
      ∃ r ∈ (secondDeletion.after threeRequests).bothStatuses ⟨1⟩, r.id = .v4 35 := by
    decide +kernel
  have hprecedes : (secondDeletion.after threeRequests).Precedes (.v4 35) (.v4 33) :=
    show ∃ r ∈ _, ∃ q ∈ _, _ by decide +kernel
  refine ⟨_, hwalk, hended, (hcount hended (.v4 35) ?_).2 ?_⟩
  · simpa [Store.Lists] using hlisted
  · simpa using Or.inr hprecedes

end Footprint
