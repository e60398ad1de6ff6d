import Footprint.Proofs.Exchange.Missing
import Footprint.Proofs.Trade.Delivery
import Footprint.Proofs.Trade.Reference

namespace Footprint

open Table Exchange

/-- The operator on one side of a trade. -/
def TradeRecord.operatorOn (side : Side) (t : TradeRecord) : Uuid :=
  match side with
  | .request => t.requester
  | .response => t.supplier

/-- Trades and statuses belong together one by one, and no part is asked for twice. -/
structure Matched (s : Store) : Prop where
  trades : (s.trades.map (·.id)).Nodup
  statuses : (s.statuses.map (·.trade)).Nodup
  status : ∀ t ∈ s.trades, ∃ r ∈ s.statuses, r.trade = t.id
  trade : ∀ r ∈ s.statuses, ∃ t ∈ s.trades, t.id = r.trade
  belongs : ∀ t ∈ s.trades, ∀ r ∈ s.statuses, r.trade = t.id →
    r.Belongs t ∧ r.requester ≠ r.supplier
  single : ∀ t ∈ s.trades, ∀ q ∈ s.trades, t.isLive → q.isLive →
    t.requesterPart = q.requesterPart → t = q

/-- No operation and no reading misses a status. -/
structure NeverMissing (s : Store) : Prop where
  operations : ∀ c : Call, MissesNoStatus (c.op.run c.limits c.now c.caller s)
  parts : ∀ operator trace, MissesNoStatus (s.part? operator trace)
  assemblies : ∀ operator trace, MissesNoStatus (s.assembly? operator trace)
  figures : ∀ operator traces, MissesNoStatus (figuresFor s operator traces)
  listings : ∀ limits operator r, MissesNoStatus (listStatuses s limits operator r)

/-- Some page for one side shows the status. -/
def Listed (s : Store) (limits : ListingLimits) (operator : Uuid) (side : Side) (status : Status) :
    Prop :=
  ∃ r page, r.side = some side ∧ listStatuses s limits operator r = .ok page ∧
    status ∈ page.statuses

variable {s : Store} {limits : ListingLimits} {operator : Uuid} {side : Side} {status : Status}
variable {q : StatusQuery} {page : StatusPage} {t : TradeRecord} {r : StatusRecord}

theorem mem_sideStatuses :
    r ∈ s.sideStatuses operator side ↔
      r ∈ s.statuses ∧ r.operatorOn side = operator ∧ r.isLive := by
  simp [Store.sideStatuses]

/-- A page shows what is read of rows that it admits. -/
theorem row_of_page (h : s.page q = .ok page) (hmem : status ∈ page.statuses) :
    ∃ r ∈ s.sideStatuses q.operator q.side, Store.StatusQuery.admits q r ∧
      r.status = .ok status := by
  obtain ⟨statuses, hread, h⟩ := bind_eq_ok.1 h
  cases h
  obtain ⟨r, hr, hstatus⟩ := (mem_of_mapM_eq_ok hread).2 status (List.mem_of_mem_take hmem)
  have hr := List.mem_filter.1 (List.mem_mergeSort.1 (List.mem_of_mem_take hr))
  exact ⟨r, hr.1, hr.2, hstatus⟩

/-- A page can be read, and it shows something when it admits a row. -/
theorem exists_page (hread : ∀ r ∈ s.statuses, r.isLive → ∃ status, r.status = .ok status)
    (hlimit : 0 < q.limit) (hr : r ∈ s.sideStatuses q.operator q.side)
    (hadmits : Store.StatusQuery.admits q r) :
    ∃ page, s.page q = .ok page ∧ page.statuses ≠ [] := by
  have hrows : ((s.sideStatuses q.operator q.side).filter
      (Store.StatusQuery.admits q)).mergeSort (fun r t => r.id ≤ t.id) ≠ [] :=
    List.ne_nil_of_mem (List.mem_mergeSort.2 (List.mem_filter.2 ⟨hr, hadmits⟩))
  obtain ⟨statuses, hstatuses⟩ : ∃ statuses,
      ((((s.sideStatuses q.operator q.side).filter (Store.StatusQuery.admits q)).mergeSort
        fun r t => r.id ≤ t.id).take (q.limit + 1)).mapM (·.status) = .ok statuses := by
    refine exists_mapM_eq_ok fun r hr => ?_
    have hr := (List.mem_filter.1 (List.mem_mergeSort.1 (List.mem_of_mem_take hr))).1
    obtain ⟨hr, -, hlive⟩ := mem_sideStatuses.1 hr
    exact hread r hr hlive
  refine ⟨_, bind_eq_ok.2 ⟨statuses, hstatuses, rfl⟩, ?_⟩
  have hlength := (mapM_eq_ok_iff.1 hstatuses).length_eq
  have hpos := List.length_pos_iff.2 hrows
  rw [← List.length_pos_iff]
  simp only [List.length_take] at hlength ⊢
  omega

theorem listStatuses_side {request : ListingRequest} (h : request.side = some side) :
    listStatuses s limits operator request = pageSize limits request.limit >>= fun limit =>
      s.page ⟨operator, side, request.status, request.after, limit⟩ := by
  simp only [listStatuses, h]

theorem Matched.of_reachable (h : Reachable s) : Matched s := by
  have hpaired := Store.Paired.of_reachable h
  have hbelongs : ∀ t ∈ s.trades, ∀ r ∈ s.statuses, r.trade = t.id → r.Belongs t := by
    intro t ht r hr htrade
    obtain ⟨r', hp⟩ := hpaired.exists_status ht
    rw [hpaired.status_unique hp hr htrade]
    exact hpaired.belongs _ hp
  refine ⟨hpaired.trades, ?_, fun t ht => ?_, fun r hr => ?_, fun t ht r hr htrade => ?_,
    fun t ht q hq hlive hlive' hpart => eq_of_requesterPart h ht hq hlive hlive' hpart⟩
  · have hcolumn : s.statuses.map (·.trade) = s.trades.map (·.id) := by
      rw [← hpaired.map_fst, ← hpaired.map_snd, List.map_map, List.map_map]
      exact List.map_congr_left fun p hp => (hpaired.belongs p hp).trade
    rw [hcolumn]
    exact hpaired.trades
  · obtain ⟨r, hp⟩ := hpaired.exists_status ht
    exact ⟨r, Store.snd_mem_of_pairs hp, (hpaired.belongs _ hp).trade⟩
  · obtain ⟨t, hp⟩ := hpaired.exists_trade hr
    exact ⟨t, Store.fst_mem_of_pairs hp, (hpaired.belongs _ hp).trade.symm⟩
  · have hrow := hbelongs t ht r hr htrade
    refine ⟨hrow, ?_⟩
    rw [hrow.requester, hrow.supplier]
    exact parties_differ h t ht

theorem NeverMissing.of_reachable (h : Reachable s) : NeverMissing s where
  operations c := (Store.Paired.of_reachable h).missesNoStatus_run c
  parts _ _ := .part?
  assemblies _ _ := .assembly?
  figures _ _ := .figuresFor
  listings _ _ _ := .listStatuses

theorem StatusRecord.Belongs.operatorOn (h : r.Belongs t) (side : Side) :
    r.operatorOn side = t.operatorOn side := by
  cases side with
  | request => exact h.requester
  | response => exact h.supplier

/-- A listed status is that of a live trade of the operator on that side. -/
theorem trade_of_listed (hs : s.Paired) (h : Listed s limits operator side status) :
    ∃ t ∈ s.trades, t.isLive ∧ t.operatorOn side = operator ∧
      s.statusOf? t.id = .ok (some status) := by
  obtain ⟨request, page, hside, hlist, hmem⟩ := h
  rw [listStatuses_side hside] at hlist
  obtain ⟨limit, -, hpage⟩ := bind_eq_ok.1 hlist
  obtain ⟨r, hr, -, hread⟩ := row_of_page hpage hmem
  obtain ⟨hr, hoperator, hlive⟩ := mem_sideStatuses.1 hr
  obtain ⟨t, hp⟩ := hs.exists_trade hr
  have hbelongs := hs.belongs _ hp
  have hlive' : t.isLive := hbelongs.live.symm.trans hlive
  refine ⟨t, Store.fst_mem_of_pairs hp, hlive', ?_, hs.statusOf?_eq hp hlive' hread⟩
  rw [← hbelongs.operatorOn, hoperator]

/-- A page of one status, picked by its identifier, shows it. -/
theorem listed_of_trade (h : Reachable s) (hlimits : 0 < limits.maxLimit) (ht : t ∈ s.trades)
    (hoperator : t.operatorOn side = operator)
    (hstatus : s.statusOf? t.id = .ok (some status)) : Listed s limits operator side status := by
  have hs := Store.Paired.of_reachable h
  obtain ⟨r, hp⟩ := hs.exists_status ht
  have hbelongs := hs.belongs _ hp
  have hr := Store.snd_mem_of_pairs hp
  obtain ⟨hrlive, hread⟩ := hs.status_of_statusOf? hp hstatus
  have hid : status.id = r.id := (StatusRecord.status_eq_ok.1 hread).2.2.2.1
  have hside : r ∈ s.sideStatuses operator side :=
    mem_sideStatuses.2 ⟨hr, (hbelongs.operatorOn side).trans hoperator, hrlive⟩
  obtain ⟨page, hpage, hne⟩ := exists_page (q := ⟨operator, side, some status.id, none, 1⟩)
    (fun r hr => exists_status_of_live h hr) Nat.one_pos hside
    (by simp [Store.StatusQuery.admits, hid])
  have hlist : listStatuses s limits operator ⟨some side, some status.id, none, some 1⟩ =
      .ok page := by
    have hsize : pageSize limits (some 1) = .ok 1 :=
      congrArg Except.ok (Nat.min_eq_left hlimits)
    rw [listStatuses_side rfl, hsize]
    exact hpage
  refine ⟨_, page, rfl, hlist, ?_⟩
  obtain ⟨first, hfirst⟩ := List.exists_mem_of_ne_nil _ hne
  obtain ⟨r', hr', hadmits, hread'⟩ := row_of_page hpage hfirst
  -- The identifier belongs to one row only.
  have hid' : r'.id = status.id := by
    simpa [Store.StatusQuery.admits] using hadmits
  have hsame : r' = r :=
    eq_of_key_eq hs.statuses (mem_sideStatuses.1 hr').1 hr (hid'.trans hid)
  rw [hsame, hread] at hread'
  cases hread'
  exact hfirst

/-- In a reachable store trades and statuses belong together one by one and name the same two
operators, a part has one live trade at most, and nothing is refused because a status is missing.
The listings of one side show the statuses of the live trades that the operator has on it, and so
no status is listed on both. -/
theorem statuses_match_trades (hs : Reachable s) :
    Matched s ∧ NeverMissing s ∧
      ∀ limits : ListingLimits, 0 < limits.maxLimit → ∀ operator status,
        (∀ side, Listed s limits operator side status ↔
          ∃ t ∈ s.trades, t.isLive ∧ t.operatorOn side = operator ∧
            s.statusOf? t.id = .ok (some status)) ∧
        ¬ (Listed s limits operator .request status ∧
          Listed s limits operator .response status) := by
  have hpaired := Store.Paired.of_reachable hs
  refine ⟨.of_reachable hs, .of_reachable hs, fun limits hlimits operator status => ⟨fun side =>
    ⟨trade_of_listed hpaired, fun ⟨t, ht, _, hoperator, hstatus⟩ =>
      listed_of_trade hs hlimits ht hoperator hstatus⟩, ?_⟩⟩
  rintro ⟨hrequest, hresponse⟩
  obtain ⟨t, ht, -, hrequester, hstatus⟩ := trade_of_listed hpaired hrequest
  obtain ⟨q, hq, -, hsupplier, hstatus'⟩ := trade_of_listed hpaired hresponse
  -- The status names one trade.
  have htrade {t : TradeRecord} (hstatus : s.statusOf? t.id = .ok (some status)) :
      status.trade = t.id := by
    obtain ⟨r, -, htrade, -, hread⟩ := Store.statusOf?_eq_some hstatus
    exact (StatusRecord.status_eq_ok.1 hread).2.2.2.2.1.trans htrade
  have hsame : t = q :=
    eq_of_key_eq hpaired.trades ht hq ((htrade hstatus).symm.trans (htrade hstatus'))
  exact parties_differ hs t ht (hrequester.trans (hsame ▸ hsupplier.symm))

/-- The request of the sample is listed as a request of operator 1 and as one that operator 2 has
to answer. -/
theorem statuses_match_trades_sample :
    Matched sampleAnswered ∧ ∃ status, status.id = .v4 31 ∧
      Listed sampleAnswered Settings.default.listing ⟨1⟩ .request status ∧
      Listed sampleAnswered Settings.default.listing ⟨2⟩ .response status ∧
      ¬ Listed sampleAnswered Settings.default.listing ⟨1⟩ .response status := by
  obtain ⟨hmatched, -, hlisted⟩ := statuses_match_trades reachable_sampleAnswered
  obtain ⟨t, ht, hlive, hrequester, hsupplier⟩ : ∃ t ∈ sampleAnswered.trades, t.isLive ∧
      t.operatorOn .request = ⟨1⟩ ∧ t.operatorOn .response = ⟨2⟩ := by decide +kernel
  have hids : ∀ r ∈ sampleAnswered.statuses, r.id = .v4 31 := by decide +kernel
  obtain ⟨hpaired, hsound⟩ := AllSound.of_reachable reachable_sampleAnswered
  obtain ⟨r, hp⟩ := hpaired.exists_status ht
  obtain ⟨status, hread, -⟩ := hsound _ hp hlive
  have hstatus := hpaired.statusOf?_eq hp hlive hread
  have hid : status.id = .v4 31 :=
    (StatusRecord.status_eq_ok.1 hread).2.2.2.1.trans (hids r (Store.snd_mem_of_pairs hp))
  have hpages : 0 < Settings.default.listing.maxLimit := by decide
  have hrequest := ((hlisted _ hpages ⟨1⟩ status).1 .request).2 ⟨t, ht, hlive, hrequester, hstatus⟩
  have hresponse :=
    ((hlisted _ hpages ⟨2⟩ status).1 .response).2 ⟨t, ht, hlive, hsupplier, hstatus⟩
  exact ⟨hmatched, status, hid, hrequest, hresponse, fun hboth =>
    (hlisted _ hpages ⟨1⟩ status).2 ⟨hrequest, hboth⟩⟩

end Footprint
