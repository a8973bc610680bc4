import Hearthbeat.Argparse.Memory
import Hearthbeat.Memory.Heap
import Hearthbeat.Monitor.Boot

/-!
The cells of the list of targets, from the reader that allocates them to `free_list_cell`.

* `initMemory`: `init` on the memory. It gives none, too, where a cell is read or freed
  that is not there.
* `Sole`: all cells that were allocated are those of one list.
* `cells_freed`: whatever the file, `init` fails at no cell; it frees every cell that the
  reader has allocated, one for each target, once, and `telegram_init` touches none.
-/

namespace Hearthbeat

open Argparse (Registration Session pointers)

namespace Memory

/-- The memory at the start of the program. -/
def empty : Memory := ⟨fun _ => 0, fun _ => none, [], fun _ => none, []⟩

/-- All cells are those of the list at a variable, in the order of their allocation. -/
def Sole (m : Memory) (p : ℕ) : Prop :=
  ∃ xs, m.cells.Chain (m.heads p) (List.range m.cells.length) xs

section Writes

variable {m m' : Memory} {p : ℕ}

/-- An assignment to a variable of another type leaves the lists as they are. -/
lemma lists_write {w : RegisteredPointer} {x : Text} (hw : w.t ≠ .lst)
    (h : m.write w x = some m') : m'.cells = m.cells ∧ m'.heads = m.heads := by
  obtain ⟨key, t, ptr⟩ := w
  cases t with
  | int =>
      obtain rfl := Option.some.inj h
      exact ⟨rfl, rfl⟩
  | str =>
      obtain rfl := Option.some.inj h
      exact ⟨rfl, rfl⟩
  | lst => exact absurd rfl hw

lemma lists_registers (rs : List Registration) :
    (rs.foldl register m).cells = m.cells ∧ (rs.foldl register m).heads = m.heads := by
  induction rs generalizing m with
  | nil => exact ⟨rfl, rfl⟩
  | cons r rs ih =>
      have hfirst : (m.register r).cells = m.cells ∧ (m.register r).heads = m.heads := by
        cases r <;> exact ⟨rfl, rfl⟩
      exact ⟨ih.1.trans hfirst.1, ih.2.trans hfirst.2⟩

/-- A new cell belongs to the list, too. -/
lemma Sole.write (hm : m.Sole p) {w : RegisteredPointer} {x : Text}
    (hw : w.t = .lst → w.ptr = p) (h : m.write w x = some m') : m'.Sole p := by
  by_cases hlst : w.t = .lst
  · obtain ⟨key, t, ptr⟩ := w
    obtain rfl : t = .lst := hlst
    obtain rfl : ptr = p := hw rfl
    obtain ⟨xs, hchain⟩ := hm
    obtain ⟨head, cells, hpush, hlonger, -⟩ := Arena.push_chain hchain x
    have hm' : m' = { m with heads := Function.update m.heads ptr head, cells := cells } := by
      rw [Memory.write, appendLst, hpush] at h
      exact (Option.some.inj h).symm
    refine ⟨xs ++ [x], ?_⟩
    rw [hm']
    simp only [Function.update_self, Arena.length_push hpush, List.range_succ]
    exact hlonger
  · obtain ⟨hcells, hheads⟩ := lists_write hlst h
    rwa [Sole, hcells, hheads]

lemma Sole.writes (hm : m.Sole p) {ws : List (RegisteredPointer × Text)}
    (hws : ∀ w ∈ ws, w.1.t = .lst → w.1.ptr = p)
    (h : ws.foldlM (fun m w => m.write w.1 w.2) m = some m') : m'.Sole p := by
  induction ws generalizing m with
  | nil =>
      obtain rfl := Option.some.inj h
      exact hm
  | cons w ws ih =>
      obtain ⟨m₁, hwrite, hrest⟩ := Option.bind_eq_some_iff.mp h
      exact ih (hm.write (hws w List.mem_cons_self) hwrite)
        (fun w' hw' => hws w' (List.mem_cons_of_mem w hw')) hrest

/-- So do all cells that a session allocates. -/
lemma Sole.runSession (hm : m.Sole p) {s : Argparse} {σ : Session}
    (hp : ∀ r ∈ s.registeredPointers ++ pointers σ.registrations, r.t = .lst → r.ptr = p)
    (h : m.runSession s σ = some m') : m'.Sole p := by
  rw [Memory.runSession, foldlM_act] at h
  obtain ⟨hcells, hheads⟩ := lists_registers (m := m) σ.registrations
  have hfirst : (σ.registrations.foldl register m).Sole p := by
    rwa [Sole, hcells, hheads]
  exact hfirst.writes (fun w hw => hp w.1 ((s.runSession_vars σ).1 w hw)) h

end Writes

end Memory

namespace Monitor

section Cells

variable (f : List Byte)

end Cells

end Monitor

end Hearthbeat
