import Footprint.Store.Table
import Mathlib.Data.List.Nodup
import Mathlib.Order.Lattice

namespace Footprint.Table

variable {α β γ : Type} {selected : α → Bool} {change : α → α} {table : List α}

theorem exists_of_mem_updateWhere {r' : α} (h : r' ∈ updateWhere selected change table) :
    ∃ r ∈ table, r' = if selected r then change r else r := by
  obtain ⟨r, hr, rfl⟩ := List.mem_map.1 h
  exact ⟨r, hr, rfl⟩

theorem map_updateWhere {key : α → β} (h : ∀ r, selected r → key (change r) = key r) :
    (updateWhere selected change table).map key = table.map key := by
  rw [updateWhere, List.map_map]
  apply List.map_congr_left
  intro r _
  by_cases hr : selected r <;> simp [hr, h]

theorem updateWhere_updateWhere {later : α → α} (h : ∀ r, selected (change r) = selected r) :
    updateWhere selected later (updateWhere selected change table) =
      updateWhere selected (later ∘ change) table := by
  rw [updateWhere, updateWhere, List.map_map]
  refine List.map_congr_left fun r _ => ?_
  by_cases hr : selected r <;> simp [hr, h]

theorem eq_of_key_eq {key : α → β} (hkeys : (table.map key).Nodup) {r q : α} (hr : r ∈ table)
    (hq : q ∈ table) (h : key r = key q) : r = q :=
  List.inj_on_of_nodup_map hkeys hr hq h

/-- Rows in the same order of their keys, of which a key tells which row it is. -/
theorem eq_of_map_key_eq {key : α → β} {rows rows' : List α}
    (hkey : ∀ r ∈ rows, ∀ q ∈ rows', key r = key q → r = q)
    (h : rows.map key = rows'.map key) : rows = rows' := by
  have hlength : rows.length = rows'.length := by simpa using congrArg List.length h
  refine List.ext_getElem hlength fun index hr hq => ?_
  refine hkey _ (List.getElem_mem hr) _ (List.getElem_mem hq) ?_
  rw [← List.getElem_map key (h := by simpa using hr), List.getElem_of_eq h, List.getElem_map]

theorem nodup_map_append {key : α → β} (hkeys : (table.map key).Nodup) {r : α}
    (hnew : ∀ q ∈ table, key q ≠ key r) : ((table ++ [r]).map key).Nodup := by
  rw [List.map_append, List.nodup_append]
  refine ⟨hkeys, List.nodup_singleton _, ?_⟩
  intro a ha b hb
  obtain ⟨q, hq, rfl⟩ := List.mem_map.1 ha
  rw [List.mem_singleton.1 hb]
  exact hnew q hq

theorem find?_of_unique {p : α → Bool} {r : α} (hr : r ∈ table) (hp : p r)
    (huniq : ∀ q ∈ table, p q → q = r) : table.find? p = some r := by
  cases h : table.find? p with
  | none => exact absurd hp (by simpa using List.find?_eq_none.1 h r hr)
  | some q => rw [huniq q (List.mem_of_find?_eq_some h) (List.find?_some h)]

theorem insertAll_singleton_eq_some {clash : α → α → Bool} {r : α} {result : List α} :
    insertAll clash table [r] = some result ↔
      (∀ q ∈ table, clash r q = false) ∧ result = table ++ [r] := by
  by_cases h : table.any (clash r)
  · simp only [insertAll, h, if_true, reduceCtorEq, false_iff, not_and]
    intro hno
    obtain ⟨q, hq, hc⟩ := List.any_eq_true.1 h
    simp [hno q hq] at hc
  · simp only [insertAll, h, Bool.false_eq_true, if_false, Option.some.injEq]
    have hno : ∀ q ∈ table, clash r q = false := by simpa using h
    exact ⟨fun h => ⟨hno, h.symm⟩, fun h => h.2.symm⟩

/-- Rows that clash with nothing are all added. -/
theorem insertAll_eq_some {clash : α → α → Bool} {rows : List α}
    (hold : ∀ r ∈ rows, ∀ q ∈ table, clash r q = false)
    (hnew : rows.Pairwise fun q r => clash r q = false) :
    insertAll clash table rows = some (table ++ rows) := by
  induction rows generalizing table with
  | nil => rw [insertAll, List.append_nil]
  | cons r rows ih =>
    obtain ⟨hhere, hnew⟩ := List.pairwise_cons.1 hnew
    have hfree : ¬ table.any (clash r) := by simpa using hold r List.mem_cons_self
    rw [insertAll, if_neg hfree, ih ?_ hnew, List.append_assoc]
    · rfl
    · intro q hq x hx
      rcases List.mem_append.1 hx with hx | hx
      · exact hold q (List.mem_cons_of_mem _ hq) x hx
      · rw [List.mem_singleton.1 hx]
        exact hhere q hq

/-- Rows that clash with none of those before keep keys apart. -/
theorem nodup_map_of_insertAll {clash : α → α → Bool} {key : α → β} {rows result : List α}
    (hclash : ∀ r q, clash r q = false → key q ≠ key r) (hkeys : (table.map key).Nodup)
    (h : insertAll clash table rows = some result) : (result.map key).Nodup := by
  induction rows generalizing table with
  | nil =>
    cases h
    exact hkeys
  | cons r rows ih =>
    rw [insertAll] at h
    split at h
    · cases h
    · rename_i hno
      have hno : ∀ q ∈ table, clash r q = false := by simpa using hno
      exact ih (nodup_map_append hkeys fun q hq => hclash r q (hno q hq)) h

/-- A search for rows that are all kept does not miss the others. -/
theorem find?_filter_of_imp {keep found : α → Bool} (h : ∀ r ∈ table, found r → keep r) :
    (table.filter keep).find? found = table.find? found := by
  rw [List.find?_filter]
  induction table with
  | nil => rfl
  | cons r table ih =>
    have hrest := ih fun q hq => h q (List.mem_cons_of_mem _ hq)
    have hhere := h r List.mem_cons_self
    simp only [List.find?_cons, hrest]
    cases hfound : found r with
    | false => simp
    | true => simp [hhere hfound]

theorem filter_filter_of_imp {keep found : α → Bool} (h : ∀ r ∈ table, found r → keep r) :
    (table.filter keep).filter found = table.filter found := by
  rw [List.filter_filter]
  refine List.filter_congr fun r hr => ?_
  cases hfound : found r with
  | false => rfl
  | true =>
    rw [h r hr hfound]
    rfl

/-- A change that no kept row undergoes and that makes no row a kept one. -/
theorem filter_map_eq {keep : α → Bool} {f : α → α}
    (h : ∀ r ∈ table, f r = r ∨ keep r = false ∧ keep (f r) = false) :
    (table.map f).filter keep = table.filter keep := by
  induction table with
  | nil => rfl
  | cons r table ih =>
    have hrest := ih fun q hq => h q (List.mem_cons_of_mem _ hq)
    rw [List.map_cons, List.filter_cons, List.filter_cons, hrest]
    rcases h r List.mem_cons_self with hsame | ⟨hbefore, hafter⟩
    · rw [hsame]
    · simp [hbefore, hafter]

theorem filter_updateWhere_eq {keep : α → Bool}
    (h : ∀ r ∈ table, selected r → keep r = false ∧ keep (change r) = false) :
    (updateWhere selected change table).filter keep = table.filter keep := by
  refine filter_map_eq fun r hr => ?_
  by_cases hselected : selected r
  · rw [if_pos hselected]
    exact Or.inr (h r hr hselected)
  · exact Or.inl (if_neg hselected)

theorem filter_deleteWhere_eq {keep : α → Bool} (h : ∀ r ∈ table, selected r → keep r = false) :
    (deleteWhere selected table).filter keep = table.filter keep := by
  refine filter_filter_of_imp fun r hr hkeep => ?_
  rw [Bool.not_eq_true']
  by_contra hselected
  rw [h r hr (by simpa using hselected)] at hkeep
  cases hkeep

theorem filter_append_eq {keep : α → Bool} {rows : List α} (h : ∀ r ∈ rows, keep r = false) :
    (table ++ rows).filter keep = table.filter keep := by
  have hnone : rows.filter keep = [] := List.filter_eq_nil_iff.2 fun r hr => by simp [h r hr]
  rw [List.filter_append, hnone, List.append_nil]

section

variable {κ : Type} [LinearOrder κ] {le : α → α → Bool}

theorem pairwise_mergeSort_of_nodup (key : α → κ) (hle : ∀ a b, le a b = true ↔ key a ≤ key b)
    (hkeys : (table.map key).Nodup) :
    (table.mergeSort le).Pairwise fun a b => key a < key b := by
  have hsorted : (table.mergeSort le).Pairwise fun a b => le a b = true := by
    refine List.pairwise_mergeSort (fun a b c hab hbc => ?_) (fun a b => ?_) table
    · exact (hle a c).2 (((hle a b).1 hab).trans ((hle b c).1 hbc))
    · rw [Bool.or_eq_true, hle, hle]
      exact le_total _ _
  have hdistinct : ((table.mergeSort le).map key).Nodup :=
    ((List.mergeSort_perm table le).map key).nodup_iff.2 hkeys
  exact (hsorted.and (List.pairwise_map.1 hdistinct)).imp fun ⟨hab, hne⟩ =>
    lt_of_le_of_ne ((hle _ _).1 hab) hne

/-- Rows in ascending order are the only ones, so sorting gives them. -/
theorem eq_mergeSort_of_perm (key : α → κ) (hle : ∀ a b, le a b = true ↔ key a ≤ key b)
    {rows : List α} (hperm : rows.Perm table) (hsorted : rows.Pairwise fun a b => key a < key b) :
    rows = table.mergeSort le := by
  have hkeys : (table.map key).Nodup :=
    (hperm.map key).nodup_iff.1 (List.pairwise_map.2 (hsorted.imp fun hlt => hlt.ne))
  exact (hperm.trans (List.mergeSort_perm table le).symm).eq_of_pairwise
    (fun a b _ _ hab hba => absurd hba hab.not_gt) hsorted
    (pairwise_mergeSort_of_nodup key hle hkeys)

end

variable {selects : γ → α → Bool} {makes : γ → α → α}

theorem foldl_updateWhere (cs : List γ) :
    cs.foldl (fun table c => updateWhere (selects c) (makes c) table) table =
      table.map fun r => cs.foldl (fun r c => if selects c r then makes c r else r) r := by
  induction cs generalizing table with
  | nil => simp
  | cons c cs ih =>
    rw [List.foldl_cons, ih, updateWhere, List.map_map]
    rfl

theorem foldl_eq_self {cs : List γ} {q : α} (h : ∀ c ∈ cs, selects c q → makes c q = q) :
    cs.foldl (fun r c => if selects c r then makes c r else r) q = q := by
  induction cs with
  | nil => rfl
  | cons c cs ih =>
    have hc : (if selects c q then makes c q else q) = q := by
      split
      · exact h c (by simp) ‹_›
      · rfl
    rw [List.foldl_cons, hc]
    exact ih fun c hc => h c (by simp [hc])

theorem key_foldl {key : α → β} {cs : List γ} (hkey : ∀ c r, key (makes c r) = key r) (q : α) :
    key (cs.foldl (fun r c => if selects c r then makes c r else r) q) = key q := by
  induction cs generalizing q with
  | nil => rfl
  | cons c cs ih =>
    rw [List.foldl_cons, ih]
    split
    · exact hkey c q
    · rfl

/-- What every update makes true stays true once an update has taken place. -/
theorem foldl_of_selected {P : α → Prop} {cs : List γ} {q : α}
    (hmake : ∀ c ∈ cs, ∀ r, selects c r → P (makes c r)) (h : P q ∨ ∃ c ∈ cs, selects c q) :
    P (cs.foldl (fun r c => if selects c r then makes c r else r) q) := by
  induction cs generalizing q with
  | nil => simpa using h
  | cons c cs ih =>
    have hmake' : ∀ c ∈ cs, ∀ r, selects c r → P (makes c r) := fun c hc => hmake c (by simp [hc])
    rw [List.foldl_cons]
    by_cases hc : selects c q
    · rw [if_pos hc]
      exact ih hmake' (Or.inl (hmake c (by simp) q hc))
    · rw [if_neg hc]
      refine ih hmake' (h.imp_right ?_)
      rintro ⟨d, hd, hdq⟩
      rcases List.mem_cons.1 hd with rfl | hd
      · exact absurd hdq hc
      · exact ⟨d, hd, hdq⟩

/-- All updates that select a row make the same of it, and leave that alone. -/
theorem foldl_eq_of_agree {cs : List γ} {r q : α} (hsel : ∃ c ∈ cs, selects c r)
    (hmake : ∀ c ∈ cs, selects c r → makes c r = q)
    (hstay : ∀ c ∈ cs, selects c q → makes c q = q) :
    cs.foldl (fun r c => if selects c r then makes c r else r) r = q := by
  induction cs with
  | nil => simp at hsel
  | cons c cs ih =>
    rw [List.foldl_cons]
    by_cases hc : selects c r
    · rw [if_pos hc, hmake c (by simp) hc]
      exact foldl_eq_self fun d hd => hstay d (by simp [hd])
    · rw [if_neg hc]
      obtain ⟨d, hd, hdr⟩ := hsel
      rcases List.mem_cons.1 hd with rfl | hd
      · exact absurd hdr hc
      · exact ih ⟨d, hd, hdr⟩ (fun d hd => hmake d (by simp [hd]))
          (fun d hd => hstay d (by simp [hd]))

/-- A sequence of updates of which each row takes at most one is one update. -/
theorem foldl_updateWhere_eq {cs : List γ} (hsel : ∀ r ∈ table, selected r ↔ ∃ c ∈ cs, selects c r)
    (hmake : ∀ r ∈ table, ∀ c ∈ cs, selects c r → makes c r = change r)
    (hstay : ∀ r ∈ table, ∀ c ∈ cs, selects c (change r) → makes c (change r) = change r) :
    cs.foldl (fun table c => updateWhere (selects c) (makes c) table) table =
      updateWhere selected change table := by
  rw [foldl_updateWhere]
  apply List.map_congr_left
  intro r hr
  by_cases h : selected r
  · rw [if_pos h]
    exact foldl_eq_of_agree ((hsel r hr).1 h) (hmake r hr) (hstay r hr)
  · rw [if_neg h]
    exact foldl_eq_self fun c hc hs => absurd ((hsel r hr).2 ⟨c, hc, hs⟩) h

end Footprint.Table
