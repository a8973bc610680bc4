import Mathlib.Tactic

/-!
Tables with automatic ids: the next row gets one more than the largest id so far,
and 1 in an empty table. Rows are added and never changed or removed.

* `nextId`: the rule; `nextId_eq` says that the ids count the rows.
* `Table`: rows that got their ids by the rule, with `Table.insert` and
  `Table.select`, the first row that holds a value.
* `Table.mem_insert`, `Table.select_insert`: what an insertion does to them.
-/

namespace Hearthbeat

variable {α : Type*}

/-- A row, with its id. -/
structure Row (α : Type*) where
  id : ℤ
  value : α
  deriving DecidableEq

/-- The id of the next row. -/
def nextId (rows : List (Row α)) : ℤ :=
  match (rows.map Row.id).max? with
  | none => 1
  | some m => m + 1

/-- The rows have the ids 1, 2, …, in order. -/
def Numbered (rows : List (Row α)) : Prop :=
  ∀ (k : ℕ) r, rows[k]? = some r → r.id = k + 1

section Numbered

variable {rows : List (Row α)}

lemma nextId_eq (h : Numbered rows) : nextId rows = rows.length + 1 := by
  cases rows using List.reverseRecOn with
  | nil => rfl
  | append_singleton rows r =>
      have hmax : ((rows ++ [r]).map Row.id).max? = some ((rows ++ [r]).length : ℤ) := by
        rw [List.max?_eq_some_iff]
        constructor
        · refine List.mem_map.mpr ⟨r, by simp, ?_⟩
          rw [h rows.length r List.getElem?_concat_length]
          simp
        · intro i hi
          obtain ⟨r', hr', rfl⟩ := List.mem_map.mp hi
          obtain ⟨k, hk⟩ := List.mem_iff_getElem?.mp hr'
          have hlt : k < (rows ++ [r]).length := (List.getElem?_eq_some_iff.mp hk).1
          rw [h k r' hk]
          omega
      simp only [nextId, hmax]

lemma numbered_concat (h : Numbered rows) (v : α) : Numbered (rows ++ [⟨nextId rows, v⟩]) := by
  intro k r hk
  rcases Nat.lt_or_ge k rows.length with hlt | hge
  · rw [List.getElem?_append_left hlt] at hk
    exact h k r hk
  · have hlt := (List.getElem?_eq_some_iff.mp hk).1
    obtain rfl : k = rows.length := by
      rw [List.length_append, List.length_singleton] at hlt
      omega
    rw [List.getElem?_concat_length, Option.some.injEq] at hk
    rw [← hk, nextId_eq h]

end Numbered

/-- A table whose ids are all automatic. -/
structure Table (α : Type*) where
  rows : List (Row α)
  numbered : Numbered rows

namespace Table

/-- A table without rows. -/
def empty : Table α := ⟨[], fun k r h => by simp at h⟩

/-- A row with the next automatic id. -/
def insert (t : Table α) (v : α) : Table α :=
  ⟨t.rows ++ [⟨nextId t.rows, v⟩], numbered_concat t.numbered v⟩

/-- The first row that holds the value. -/
def select [DecidableEq α] (t : Table α) (v : α) : Option (Row α) :=
  t.rows.find? fun r => r.value = v

variable {t : Table α} {r : Row α} {v : α}

lemma id_bounds (h : r ∈ t.rows) : 1 ≤ r.id ∧ r.id ≤ t.rows.length := by
  obtain ⟨k, hk⟩ := List.mem_iff_getElem?.mp h
  have hlt : k < t.rows.length := (List.getElem?_eq_some_iff.mp hk).1
  rw [t.numbered k r hk]
  omega

lemma ids_eq (t : Table α) :
    t.rows.map Row.id = (List.range t.rows.length).map fun k : ℕ => (k : ℤ) + 1 := by
  refine List.ext_getElem (by simp) fun k hk hk' => ?_
  have hlt : k < t.rows.length := by simpa using hk
  simp [t.numbered k _ (List.getElem?_eq_getElem hlt)]

/-- No two rows share an id. -/
lemma nodup_ids (t : Table α) : (t.rows.map Row.id).Nodup := by
  rw [ids_eq]
  exact List.nodup_range.map fun i j hij => by omega

/-- Every id up to the number of rows is taken. -/
lemma exists_id {i : ℤ} (hpos : 1 ≤ i) (hle : i ≤ t.rows.length) : ∃ r ∈ t.rows, r.id = i := by
  have hlt : (i - 1).toNat < t.rows.length := by omega
  refine ⟨t.rows[(i - 1).toNat], List.getElem_mem hlt, ?_⟩
  rw [t.numbered _ _ (List.getElem?_eq_getElem hlt)]
  omega

@[simp] lemma rows_insert :
    (t.insert v).rows = t.rows ++ [⟨(t.rows.length : ℤ) + 1, v⟩] := by
  simp only [insert, nextId_eq t.numbered]

lemma mem_insert : r ∈ (t.insert v).rows ↔ r ∈ t.rows ∨ r = ⟨(t.rows.length : ℤ) + 1, v⟩ := by
  simp

section Select

variable [DecidableEq α]

lemma select_eq_none : t.select v = none ↔ ∀ r ∈ t.rows, r.value ≠ v := by
  simp [select]

lemma select_some (h : t.select v = some r) : r ∈ t.rows ∧ r.value = v :=
  ⟨List.mem_of_find?_eq_some h, by simpa using List.find?_some h⟩

/-- The row selected has the least id. -/
lemma select_le (h : t.select v = some r) (h' : r' ∈ t.rows) (hv : r'.value = v) :
    r.id ≤ r'.id := by
  obtain ⟨a, b, hrows, hfirst⟩ := (List.find?_eq_some_iff_append.mp h).2
  rw [hrows] at h'
  have hr : t.rows[a.length]? = some r := by simp [hrows]
  rcases List.mem_append.mp h' with ha | hb
  · exact absurd hv (by simpa using hfirst r' ha)
  · obtain ⟨k, hk⟩ := List.mem_iff_getElem?.mp hb
    have hk' : t.rows[a.length + k]? = some r' := by
      rw [hrows, List.getElem?_append_right (by omega), Nat.add_sub_cancel_left, hk]
    rw [t.numbered _ _ hr, t.numbered _ _ hk']
    omega

lemma select_insert (w : α) :
    (t.insert v).select w
      = (t.select w).or (if v = w then some ⟨(t.rows.length : ℤ) + 1, v⟩ else none) := by
  rw [select, rows_insert, List.find?_append, select]
  congr 1
  by_cases h : v = w <;> simp [h]

end Select

end Table

end Hearthbeat
