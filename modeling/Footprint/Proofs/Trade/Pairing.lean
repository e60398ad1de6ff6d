import Footprint.Proofs.Store.Update

namespace Footprint

open Table Enumerated

/-- A status repeats the operators of its trade and is deleted along with it. -/
structure StatusRecord.Belongs (t : TradeRecord) (r : StatusRecord) : Prop where
  trade : r.trade = t.id
  requester : r.requester = t.requester
  supplier : r.supplier = t.supplier
  live : r.isLive = t.isLive

namespace Store

variable {s s' : Store} {t : TradeRecord} {r : StatusRecord} {p q : TradeRecord × StatusRecord}

/-- The trades, each with the status in its place. -/
def pairs (s : Store) : List (TradeRecord × StatusRecord) :=
  s.trades.zip s.statuses

theorem fst_mem_of_pairs (h : p ∈ s.pairs) : p.1 ∈ s.trades :=
  (List.of_mem_zip (a := p.1) (b := p.2) h).1

theorem snd_mem_of_pairs (h : p ∈ s.pairs) : p.2 ∈ s.statuses :=
  (List.of_mem_zip (a := p.1) (b := p.2) h).2

/-- Every trade has exactly one status, and the two stand in the same place of their tables. -/
structure Paired (s : Store) : Prop where
  length : s.trades.length = s.statuses.length
  trades : (s.trades.map (·.id)).Nodup
  statuses : (s.statuses.map (·.id)).Nodup
  belongs : ∀ p ∈ s.pairs, p.2.Belongs p.1

theorem paired_empty : Paired empty where
  length := rfl
  trades := List.nodup_nil
  statuses := List.nodup_nil
  belongs := by simp [pairs, empty]

theorem pairs_map {f : TradeRecord → TradeRecord} {g : StatusRecord → StatusRecord}
    (htrades : s'.trades = s.trades.map f) (hstatuses : s'.statuses = s.statuses.map g) :
    s'.pairs = s.pairs.map (Prod.map f g) := by
  rw [pairs, htrades, hstatuses, List.zip_map]
  rfl

/-- The store with the trade of that identifier and its status changed. -/
def withPair (s : Store) (trade : Uuid) (f : TradeRecord → TradeRecord)
    (g : StatusRecord → StatusRecord) : Store :=
  { s with
    trades := updateWhere (·.id = trade) f s.trades
    statuses := updateWhere (·.trade = trade) g s.statuses }

namespace Paired

theorem pairs_append (h : Paired s) (htrades : s'.trades = s.trades ++ [t])
    (hstatuses : s'.statuses = s.statuses ++ [r]) : s'.pairs = s.pairs ++ [(t, r)] := by
  rw [pairs, htrades, hstatuses, List.zip_append h.length]
  rfl

theorem map_fst (h : Paired s) : s.pairs.map Prod.fst = s.trades :=
  List.map_fst_zip (Nat.le_of_eq h.length)

theorem map_snd (h : Paired s) : s.pairs.map Prod.snd = s.statuses :=
  List.map_snd_zip (Nat.le_of_eq h.length.symm)

theorem exists_status (h : Paired s) (ht : t ∈ s.trades) : ∃ r, (t, r) ∈ s.pairs := by
  rw [← h.map_fst] at ht
  obtain ⟨⟨t, r⟩, hp, rfl⟩ := List.mem_map.1 ht
  exact ⟨r, hp⟩

theorem exists_trade (h : Paired s) (hr : r ∈ s.statuses) : ∃ t, (t, r) ∈ s.pairs := by
  rw [← h.map_snd] at hr
  obtain ⟨⟨t, r⟩, hp, rfl⟩ := List.mem_map.1 hr
  exact ⟨t, hp⟩

theorem eq_of_trade (h : Paired s) (hp : p ∈ s.pairs) (hq : q ∈ s.pairs) (hid : p.1.id = q.1.id) :
    p = q := by
  have hkeys : (s.pairs.map fun p => p.1.id).Nodup := by
    have htrades := h.trades
    rw [← h.map_fst, List.map_map] at htrades
    exact htrades
  exact eq_of_key_eq hkeys hp hq hid

theorem eq_of_status (h : Paired s) (hp : p ∈ s.pairs) (hq : q ∈ s.pairs)
    (hid : p.2.id = q.2.id) : p = q := by
  have hkeys : (s.pairs.map fun p => p.2.id).Nodup := by
    have hstatuses := h.statuses
    rw [← h.map_snd, List.map_map] at hstatuses
    exact hstatuses
  exact eq_of_key_eq hkeys hp hq hid

theorem eq_or_apart (h : Paired s) (hp : p ∈ s.pairs) (hq : q ∈ s.pairs) :
    p = q ∨ p.1.id ≠ q.1.id ∧ p.2.id ≠ q.2.id ∧ p.2.trade ≠ q.1.id := by
  by_cases hid : p.1.id = q.1.id
  · exact Or.inl (h.eq_of_trade hp hq hid)
  · refine Or.inr ⟨hid, ?_, ?_⟩
    · intro hstatus
      exact hid (by rw [h.eq_of_status hp hq hstatus])
    · rw [(h.belongs p hp).trade]
      exact hid

theorem trade?_eq (h : Paired s) (hp : p ∈ s.pairs) (hlive : p.1.isLive) :
    s.trade? p.1.id = some p.1.trade := by
  refine congrArg (Option.map _) (find?_of_unique (fst_mem_of_pairs hp) (by simp [hlive]) ?_)
  intro q hq hfound
  simp only [Bool.and_eq_true, decide_eq_true_eq] at hfound
  exact eq_of_key_eq h.trades hq (fst_mem_of_pairs hp) hfound.1

/-- The status of a trade is the only row that names it. -/
theorem status_unique (h : Paired s) (hp : p ∈ s.pairs) {r : StatusRecord} (hr : r ∈ s.statuses)
    (htrade : r.trade = p.1.id) : r = p.2 := by
  obtain ⟨t, hq⟩ := h.exists_trade hr
  have hid : t.id = p.1.id := by rw [← htrade, (h.belongs _ hq).trade]
  rw [← h.eq_of_trade hq hp hid]

theorem isLive_of_isPending (h : Paired s) (hp : p ∈ s.pairs) (hpending : p.2.isPending) :
    p.1.isLive := by
  rw [← (h.belongs p hp).live]
  exact (StatusRecord.isPending_iff.1 hpending).2

theorem exists_pair_of_trade? (h : Paired s) {id : Uuid} {t : Trade} (ht : s.trade? id = some t) :
    ∃ p ∈ s.pairs, p.1.id = id ∧ p.1.isLive ∧ p.1.trade = t := by
  obtain ⟨r, hr, hid, hlive, htrade⟩ := trade?_eq_some ht
  obtain ⟨status, hp⟩ := h.exists_status hr
  exact ⟨(r, status), hp, hid, hlive, htrade⟩

theorem status_of_statusOf? (h : Paired s) (hp : p ∈ s.pairs) {status : Status}
    (hstatus : s.statusOf? p.1.id = .ok (some status)) : p.2.isLive ∧ p.2.status = .ok status := by
  obtain ⟨r, hr, htrade, hlive, hread⟩ := statusOf?_eq_some hstatus
  rw [h.status_unique hp hr htrade] at hlive hread
  exact ⟨hlive, hread⟩

theorem statusOf?_eq (h : Paired s) (hp : p ∈ s.pairs) (hlive : p.1.isLive) {status : Status}
    (hread : p.2.status = .ok status) : s.statusOf? p.1.id = .ok (some status) := by
  have hbelongs := h.belongs p hp
  apply readOptional_eq_ok_some.2
  refine ⟨p.2, find?_of_unique (snd_mem_of_pairs hp) ?_ ?_, hread⟩
  · simp [hbelongs.trade, hbelongs.live, hlive]
  · intro q hq hfound
    simp only [Bool.and_eq_true, decide_eq_true_eq] at hfound
    exact h.status_unique hp hq hfound.1

/-- A live trade and its status as they are read: a pair of live rows. -/
theorem pair_of_reading (h : Paired s) {trade : Uuid} {t : Trade} {status : Status}
    (ht : s.trade? trade = some t) (hstatus : s.statusOf? trade = .ok (some status)) :
    ∃ p ∈ s.pairs, p.1.id = trade ∧ p.1.isLive ∧ p.2.isLive ∧ p.1.trade = t ∧
      p.2.status = .ok status := by
  obtain ⟨p, hp, rfl, hlive, htrade⟩ := h.exists_pair_of_trade? ht
  obtain ⟨hlive', hread⟩ := h.status_of_statusOf? hp hstatus
  exact ⟨p, hp, rfl, hlive, hlive', htrade, hread⟩

theorem map (h : Paired s) {f : TradeRecord → TradeRecord} {g : StatusRecord → StatusRecord}
    (htrades : s'.trades = s.trades.map f) (hstatuses : s'.statuses = s.statuses.map g)
    (hkeep : ∀ p ∈ s.pairs, (f p.1).id = p.1.id ∧ (g p.2).id = p.2.id ∧ (g p.2).Belongs (f p.1)) :
    Paired s' where
  length := by rw [htrades, hstatuses, List.length_map, List.length_map, h.length]
  trades := by
    have hids : s'.trades.map (·.id) = s.trades.map (·.id) := by
      rw [htrades, List.map_map]
      apply List.map_congr_left
      intro t ht
      obtain ⟨r, hp⟩ := h.exists_status ht
      exact (hkeep _ hp).1
    rw [hids]
    exact h.trades
  statuses := by
    have hids : s'.statuses.map (·.id) = s.statuses.map (·.id) := by
      rw [hstatuses, List.map_map]
      apply List.map_congr_left
      intro r hr
      obtain ⟨t, hp⟩ := h.exists_trade hr
      exact (hkeep _ hp).2.1
    rw [hids]
    exact h.statuses
  belongs := by
    rw [pairs_map htrades hstatuses, List.forall_mem_map]
    intro p hp
    exact (hkeep p hp).2.2

theorem append (h : Paired s) (htrades : s'.trades = s.trades ++ [t])
    (hstatuses : s'.statuses = s.statuses ++ [r]) (hnew : ∀ q ∈ s.trades, q.id ≠ t.id)
    (hnew' : ∀ q ∈ s.statuses, q.id ≠ r.id) (hbelongs : r.Belongs t) : Paired s' where
  length := by rw [htrades, hstatuses, List.length_append, List.length_append, h.length]; rfl
  trades := by
    rw [htrades]
    exact nodup_map_append h.trades hnew
  statuses := by
    rw [hstatuses]
    exact nodup_map_append h.statuses hnew'
  belongs := by
    rw [h.pairs_append htrades hstatuses]
    intro p hp
    rcases List.mem_append.1 hp with hp | hp
    · exact h.belongs p hp
    · rw [List.mem_singleton.1 hp]
      exact hbelongs

variable {f f' : TradeRecord → TradeRecord} {g g' : StatusRecord → StatusRecord}

theorem mem_withPair (h : Paired s) (hp : p ∈ s.pairs) :
    (f p.1, g p.2) ∈ (s.withPair p.1.id f g).pairs := by
  rw [pairs_map (s := s) rfl rfl]
  refine List.mem_map.2 ⟨p, hp, ?_⟩
  rw [Prod.map, if_pos (decide_eq_true rfl), if_pos (decide_eq_true (h.belongs p hp).trade)]

/-- A change that leaves all other rows alone is a change of the pair. -/
theorem eq_withPair (h : Paired s) (hp : p ∈ s.pairs) (hf : f' p.1 = f p.1) (hg : g' p.2 = g p.2)
    (hapart : ∀ q ∈ s.pairs, q.1.id ≠ p.1.id → q.2.id ≠ p.2.id → q.2.trade ≠ p.1.id →
      f' q.1 = q.1 ∧ g' q.2 = q.2) :
    { s with trades := s.trades.map f', statuses := s.statuses.map g' } =
      s.withPair p.1.id f g := by
  have htrades : s.trades.map f' = updateWhere (·.id = p.1.id) f s.trades := by
    refine List.map_congr_left fun t ht => ?_
    obtain ⟨r, hq⟩ := h.exists_status ht
    rcases h.eq_or_apart hq hp with rfl | ⟨hid, hid', htrade⟩
    · rw [if_pos (decide_eq_true rfl), hf]
    · rw [if_neg (by simpa using hid), (hapart _ hq hid hid' htrade).1]
  have hstatuses : s.statuses.map g' = updateWhere (·.trade = p.1.id) g s.statuses := by
    refine List.map_congr_left fun r hr => ?_
    obtain ⟨t, hq⟩ := h.exists_trade hr
    rcases h.eq_or_apart hq hp with rfl | ⟨hid, hid', htrade⟩
    · rw [if_pos (decide_eq_true (h.belongs _ hq).trade), hg]
    · rw [if_neg (by simpa using htrade), (hapart _ hq hid hid' htrade).2]
  rw [htrades, hstatuses, withPair]

end Paired

theorem withPair_withPair {trade : Uuid} {f f' : TradeRecord → TradeRecord}
    {g g' : StatusRecord → StatusRecord} (hf : ∀ t, (f t).id = t.id)
    (hg : ∀ r, (g r).trade = r.trade) :
    (s.withPair trade f g).withPair trade f' g' = s.withPair trade (f' ∘ f) (g' ∘ g) := by
  simp only [withPair, updateWhere_updateWhere, hf, hg, implies_true]

end Store

end Footprint
