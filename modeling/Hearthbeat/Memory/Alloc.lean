import Mathlib.Tactic

/-!
Blocks of memory from an allocator that may fail.

* `malloc`: a block of a given size, with whatever bytes were there before.
* `realloc`: a block of another size, which starts with what the old one held.
  `realloc_grow` and `realloc_shrink` are what it does for a block that grows or shrinks,
  `realloc_none` for no block.
-/

namespace Hearthbeat

variable {β : Type*}

/-- An answer of the allocator: none for a null pointer, else the bytes that happen to be
where the block is. -/
abbrev Alloc (β : Type*) := Option (ℕ → β)

/-- A new block of `n` bytes. -/
def malloc (a : Alloc β) (n : ℕ) : Option (List β) := a.map fun fresh => (List.range n).map fresh

/-- A block of `n` bytes in place of another one. -/
def realloc (a : Alloc β) (block : Option (List β)) (n : ℕ) : Option (List β) :=
  a.map fun fresh => (List.range n).map fun i => ((block.getD [])[i]?).getD (fresh i)

@[simp] lemma realloc_fail (block : Option (List β)) (n : ℕ) : realloc none block n = none := rfl

/-- In place of no block there is a new one. -/
lemma realloc_none (a : Alloc β) (n : ℕ) : realloc a none n = malloc a n := by
  cases a with
  | none => rfl
  | some fresh =>
      rw [realloc, malloc]
      simp

lemma malloc_some (fresh : ℕ → β) (n : ℕ) :
    ∃ block, malloc (some fresh) n = some block ∧ block.length = n :=
  ⟨_, rfl, by rw [List.length_map, List.length_range]⟩

/-- A block that grows keeps what it held, and has new bytes behind it. -/
lemma realloc_grow (fresh : ℕ → β) (block : List β) (k : ℕ) :
    ∃ rest, realloc (some fresh) (some block) (block.length + k) = some (block ++ rest) ∧
      rest.length = k := by
  refine ⟨(List.range k).map fun i => fresh (block.length + i), ?_, by simp⟩
  rw [realloc, Option.map_some, List.range_add, List.map_append, List.map_map]
  congr 2
  · refine List.ext_getElem (by simp) fun i hi _ => ?_
    have hlt : i < block.length := by simpa using hi
    simp [hlt]
  · refine List.map_congr_left fun i _ => ?_
    simp

/-- A block that shrinks keeps its first bytes. -/
lemma realloc_shrink (fresh : ℕ → β) (kept rest : List β) :
    realloc (some fresh) (some (kept ++ rest)) kept.length = some kept := by
  rw [realloc, Option.map_some, Option.some.injEq]
  refine List.ext_getElem (by simp) fun i hi hkept => ?_
  simp [List.getElem?_append_left hkept, List.getElem?_eq_getElem hkept]

end Hearthbeat
