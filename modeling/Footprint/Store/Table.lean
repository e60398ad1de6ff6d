namespace Footprint.Table

variable {α : Type}

/-- Changes the selected rows in place. -/
def updateWhere (selected : α → Bool) (change : α → α) (table : List α) : List α :=
  table.map fun r => if selected r then change r else r

/-- Drops the selected rows. -/
def deleteWhere (selected : α → Bool) (table : List α) : List α :=
  table.filter fun r => !selected r

/-- Adds the rows at the end, one after the other; none when a row clashes with one that is
already there. -/
def insertAll (clash : α → α → Bool) (table : List α) : List α → Option (List α)
  | [] => some table
  | r :: rs => if table.any (clash r) then none else insertAll clash (table ++ [r]) rs

/-- An update changes exactly the rows it selects. -/
theorem mem_updateWhere {selected : α → Bool} {change : α → α} {table : List α} {r : α} :
    r ∈ updateWhere selected change table ↔
      (r ∈ table ∧ selected r = false) ∨ ∃ q ∈ table, selected q ∧ change q = r := by
  simp only [updateWhere, List.mem_map]
  constructor
  · rintro ⟨q, hq, rfl⟩
    by_cases h : selected q
    · exact Or.inr ⟨q, hq, h, by simp [h]⟩
    · simp only [Bool.not_eq_true] at h
      exact Or.inl (by simpa [h] using hq)
  · rintro (⟨hr, h⟩ | ⟨q, hq, h, rfl⟩)
    · exact ⟨r, hr, by simp [h]⟩
    · exact ⟨q, hq, by simp [h]⟩

theorem updateWhere_eq_self {selected : α → Bool} {change : α → α} {table : List α}
    (h : ∀ r ∈ table, selected r = false) : updateWhere selected change table = table := by
  rw [updateWhere, List.map_congr_left (g := id), List.map_id]
  intro r hr
  simp [h r hr]

theorem mem_deleteWhere {selected : α → Bool} {table : List α} {r : α} :
    r ∈ deleteWhere selected table ↔ r ∈ table ∧ selected r = false := by
  simp [deleteWhere]

theorem eq_append_of_insertAll {clash : α → α → Bool} {table rows result : List α}
    (h : insertAll clash table rows = some result) : result = table ++ rows := by
  induction rows generalizing table with
  | nil => simpa [insertAll] using h.symm
  | cons r rs ih =>
    rw [insertAll] at h
    split at h
    · cases h
    · simpa using ih h

end Footprint.Table
