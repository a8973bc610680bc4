import Mathlib.Tactic

/-!
Singly linked lists in memory. The cells live in an arena, at the addresses that are
their indices, and each knows the address of the next one.

* `Chain`: the list at a head, with its addresses and its values. It is determined by
  the head (`Chain.unique`) and has no cell twice (`Chain.nodup`).
* `push`: a new cell at the end of a list, which is found by following the links.
  `push_chain` says that it is found, that the list has the new value at its end, and
  that lists apart from it stay as they are.
-/

namespace Hearthbeat

/-- A cell: the address of the next one, none for the null pointer, and a value. -/
structure Cell (α : Type*) where
  next : Option ℕ
  value : α
  deriving DecidableEq

/-- The cells that were allocated, by address. -/
abbrev Arena (α : Type*) := List (Cell α)

namespace Arena

variable {α : Type*}

/-- The list at `head` has its cells at the addresses `is` and the values `xs`. -/
inductive Chain (m : Arena α) : Option ℕ → List ℕ → List α → Prop
  | nil : Chain m none [] []
  | cons {i : ℕ} {next : Option ℕ} {is : List ℕ} {x : α} {xs : List α}
      (hcell : m[i]? = some ⟨next, x⟩) (hrest : Chain m next is xs) :
      Chain m (some i) (i :: is) (x :: xs)

/-- The last cell of the list at an address: none if it is not found within the fuel,
or if a link leaves the arena. -/
def lastCell (m : Arena α) : ℕ → ℕ → Option ℕ
  | 0, _ => none
  | fuel + 1, i =>
      match m[i]? with
      | none => none
      | some cell =>
          match cell.next with
          | none => some i
          | some j => lastCell m fuel j

/-- A new cell at the end of the arena, linked to nothing. -/
def alloc (m : Arena α) (x : α) : Arena α := m ++ [⟨none, x⟩]

/-- A new cell, behind the one at an address. -/
def link (m : Arena α) (i : ℕ) (x : α) : Arena α :=
  alloc (m.modify i fun cell => { cell with next := some m.length }) x

/-- The head and the arena with a new cell at the end of the list at `head`. No list is
longer than the arena, which bounds the search for its end. -/
def push (m : Arena α) (head : Option ℕ) (x : α) : Option (Option ℕ × Arena α) :=
  match head with
  | none => some (some m.length, m.alloc x)
  | some i => (m.lastCell m.length i).map fun last => (some i, m.link last x)

section Cells

variable {m : Arena α} {i j : ℕ} (x : α)

lemma alloc_of_lt (h : i < m.length) : (m.alloc x)[i]? = m[i]? := List.getElem?_append_left h

lemma alloc_length : (m.alloc x)[m.length]? = some ⟨none, x⟩ := by
  rw [alloc, List.getElem?_append_right le_rfl, Nat.sub_self]
  rfl

lemma link_of_ne (h : i < m.length) (hne : i ≠ j) : (m.link j x)[i]? = m[i]? := by
  rw [link, alloc_of_lt x (by rwa [List.length_modify]), List.getElem?_modify]
  simp only [if_neg hne.symm, id_map']

lemma link_self {cell : Cell α} (h : m[i]? = some cell) :
    (m.link i x)[i]? = some { cell with next := some m.length } := by
  have hlt : i < m.length := (List.getElem?_eq_some_iff.mp h).1
  rw [link, alloc_of_lt x (by rwa [List.length_modify]), List.getElem?_modify, h]
  simp only [if_true, Option.map_eq_map, Option.map_some]

lemma link_length : (m.link i x)[m.length]? = some ⟨none, x⟩ := by
  have hlength := alloc_length (m := m.modify i fun cell => { cell with next := some m.length }) x
  rwa [List.length_modify] at hlength

end Cells

namespace Chain

variable {m m' : Arena α} {head : Option ℕ} {is : List ℕ} {xs : List α}

lemma lt (h : Chain m head is xs) : ∀ i ∈ is, i < m.length := by
  induction h with
  | nil => simp
  | cons hcell _ ih =>
      intro k hk
      rcases List.mem_cons.mp hk with rfl | hk
      · exact (List.getElem?_eq_some_iff.mp hcell).1
      · exact ih k hk

lemma unique (h : Chain m head is xs) {js : List ℕ} {ys : List α} (h' : Chain m head js ys) :
    is = js ∧ xs = ys := by
  induction h generalizing js ys with
  | nil => cases h'; exact ⟨rfl, rfl⟩
  | cons hcell _ ih =>
      cases h' with
      | cons hcell' hrest' =>
          obtain ⟨rfl, rfl⟩ := Cell.mk.inj (Option.some.inj (hcell.symm.trans hcell'))
          obtain ⟨rfl, rfl⟩ := ih hrest'
          exact ⟨rfl, rfl⟩

/-- The list from one of its cells on. -/
lemma from_mem (h : Chain m head is xs) {i : ℕ} (hi : i ∈ is) :
    ∃ js ys, Chain m (some i) js ys ∧ js.length ≤ is.length := by
  induction h with
  | nil => cases hi
  | @cons j next is x xs hcell hrest ih =>
      rcases List.mem_cons.mp hi with rfl | hi
      · exact ⟨_, _, cons hcell hrest, le_rfl⟩
      · obtain ⟨js, ys, hchain, hle⟩ := ih hi
        exact ⟨js, ys, hchain, hle.trans (Nat.le_succ _)⟩

/-- No cell stands twice in a list: from there on, it would be shorter than itself. -/
lemma nodup (h : Chain m head is xs) : is.Nodup := by
  induction h with
  | nil => exact List.nodup_nil
  | @cons i next is x xs hcell hrest ih =>
      refine List.nodup_cons.mpr ⟨fun hi => ?_, ih⟩
      obtain ⟨js, ys, hchain, hle⟩ := hrest.from_mem hi
      have hsame : i :: is = js := ((cons hcell hrest).unique hchain).1
      rw [← hsame, List.length_cons] at hle
      omega

/-- No list is longer than the arena. -/
lemma length_le (h : Chain m head is xs) : is.length ≤ m.length := by
  have hsub : is ⊆ List.range m.length := fun i hi => List.mem_range.mpr (h.lt i hi)
  simpa using (h.nodup.subperm hsub).length_le

/-- A list depends on its own cells only. -/
lemma congr (h : Chain m head is xs) (hcells : ∀ i ∈ is, m'[i]? = m[i]?) :
    Chain m' head is xs := by
  induction h with
  | nil => exact nil
  | cons hcell _ ih =>
      exact cons ((hcells _ List.mem_cons_self).trans hcell)
        (ih fun k hk => hcells k (List.mem_cons_of_mem _ hk))

/-- Following the links finds the last cell. -/
lemma lastCell_eq {i : ℕ} (h : Chain m (some i) is xs) {fuel : ℕ} (hfuel : is.length ≤ fuel) :
    m.lastCell fuel i = is.getLast? := by
  induction fuel generalizing i is xs with
  | zero => cases h; simp at hfuel
  | succ fuel ih =>
      cases h with
      | @cons _ next is x xs hcell hrest =>
          rw [lastCell, hcell]
          cases hrest with
          | nil => rfl
          | @cons j _ is _ _ hcell' hrest' =>
              have hnext := ih (cons hcell' hrest') (by simpa using hfuel)
              rw [List.getLast?_cons_cons]
              exact hnext

/-- A cell linked behind the last one lengthens the list. -/
lemma link (h : Chain m head is xs) (x : α) {last : ℕ} (hlast : is.getLast? = some last) :
    Chain (m.link last x) head (is ++ [m.length]) (xs ++ [x]) := by
  induction h with
  | nil => cases hlast
  | @cons i next is y ys hcell hrest ih =>
      have hlt : i < m.length := (List.getElem?_eq_some_iff.mp hcell).1
      cases hrest with
      | nil =>
          obtain rfl : i = last := by simpa using hlast
          exact cons (link_self x hcell) (cons (link_length x) nil)
      | @cons j next' js z zs hcell' hrest' =>
          rw [List.getLast?_cons_cons] at hlast
          have hne : i ≠ last := by
            rintro rfl
            exact (List.nodup_cons.mp (cons hcell (cons hcell' hrest')).nodup).1
              (List.mem_of_getLast? hlast)
          exact cons ((link_of_ne x hlt hne).trans hcell) (ih hlast)

end Chain

/-- What `push` does: the list at the head has the new value at its end, and the lists
that share no cell with it stay as they are. -/
theorem push_chain {m : Arena α} {head : Option ℕ} {is : List ℕ} {xs : List α}
    (h : Chain m head is xs) (x : α) :
    ∃ head' m', m.push head x = some (head', m') ∧
      Chain m' head' (is ++ [m.length]) (xs ++ [x]) ∧
      ∀ {other : Option ℕ} {js : List ℕ} {ys : List α}, Chain m other js ys → js.Disjoint is →
        Chain m' other js ys := by
  cases h with
  | nil =>
      refine ⟨_, _, rfl, .cons (alloc_length x) .nil, fun hother _ => ?_⟩
      exact hother.congr fun i hi => alloc_of_lt x (hother.lt i hi)
  | @cons i next is y ys hcell hrest =>
      have hchain := Chain.cons hcell hrest
      obtain ⟨last, hlast⟩ : ∃ last, (i :: is).getLast? = some last :=
        ⟨_, List.getLast?_eq_some_getLast (List.cons_ne_nil i is)⟩
      have hmem : last ∈ i :: is := List.mem_of_getLast? hlast
      refine ⟨some i, m.link last x, ?_, hchain.link x hlast, fun hother hdisj => ?_⟩
      · rw [push, hchain.lastCell_eq hchain.length_le, hlast]
        rfl
      · refine hother.congr fun k hk => link_of_ne x (hother.lt k hk) ?_
        rintro rfl
        exact hdisj hk hmem

lemma length_push {m m' : Arena α} {head head' : Option ℕ} {x : α}
    (h : m.push head x = some (head', m')) : m'.length = m.length + 1 := by
  cases head with
  | none =>
      obtain ⟨-, rfl⟩ := Prod.mk.inj (Option.some.inj h)
      rw [alloc, List.length_append, List.length_singleton]
  | some i =>
      obtain ⟨last, -, heq⟩ := Option.map_eq_some_iff.mp h
      obtain ⟨-, rfl⟩ := Prod.mk.inj heq
      rw [link, alloc, List.length_append, List.length_modify, List.length_singleton]

end Arena

end Hearthbeat
