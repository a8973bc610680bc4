import Mathlib.Tactic

/-!
Reading a file in chunks of at most `n` items, each up to a separator, as `fgets`
does with a buffer, and the lines of the file.

A line of fewer than `n` items comes as one chunk. A longer one is divided, and
its last chunk is a tail of the line (`lineTail`). The chunks that end with a
separator are the tails of the complete lines, in order (`terminated_chunks`).
-/

namespace Hearthbeat

variable {α : Type*} [DecidableEq α] (sep : α) (n : ℕ)

/-- The next chunk and the rest of the file; the separator counts as its line's
last item. -/
def nextChunk (f : List α) : List α × List α :=
  (f.take (min n (f.idxOf sep + 1)), f.drop (min n (f.idxOf sep + 1)))

/-- The chunks of a file, at most as many as the fuel. -/
def chunksLoop : ℕ → List α → List (List α)
  | 0, _ => []
  | fuel + 1, f =>
      if f = [] then []
      else (nextChunk sep n f).1 :: chunksLoop fuel (nextChunk sep n f).2

/-- The chunks of a file, up to its end. -/
def chunks (f : List α) : List (List α) := chunksLoop sep n f.length f

/-- The lines of a file that a separator ends, without it. -/
def completeLines (f : List α) : List (List α) := (f.splitOn sep).dropLast

/-- The part of a line that is left when chunks of `n` items were taken off. -/
def lineTail (l : List α) : List α := l.drop (n * (l.length / n))

section Lines

omit [DecidableEq α] in
lemma lineTail_of_lt {l : List α} (h : l.length < n) : lineTail n l = l := by
  rw [lineTail, Nat.div_eq_of_lt h, Nat.mul_zero, List.drop_zero]

omit [DecidableEq α] in
/-- Taking one chunk off a long line leaves its tail. -/
lemma lineTail_drop (hn : 0 < n) {l : List α} (h : n ≤ l.length) :
    lineTail n (l.drop n) = lineTail n l := by
  have hdiv : l.length / n = (l.length - n) / n + 1 := by
    rw [Nat.div_eq_sub_div hn h]
  calc lineTail n (l.drop n)
      = l.drop (n + n * ((l.length - n) / n)) := by
        rw [lineTail, List.drop_drop, List.length_drop]
    _ = l.drop (n * ((l.length - n) / n + 1)) := by rw [Nat.mul_add, Nat.mul_one, Nat.add_comm]
    _ = lineTail n l := by rw [lineTail, hdiv]

omit [DecidableEq α] in
lemma length_lineTail (l : List α) : (lineTail n l).length = l.length % n := by
  rw [lineTail, List.length_drop]
  have := Nat.div_add_mod l.length n
  omega

lemma completeLines_of_not_mem {f : List α} (h : sep ∉ f) : completeLines sep f = [] := by
  have hsplit : f.splitOn sep = [f] := by
    rw [List.splitOn_eq_splitOnP]
    exact List.splitOnP_eq_singleton fun x hx => by
      simpa using fun heq : x = sep => h (heq ▸ hx)
  rw [completeLines, hsplit]
  rfl

lemma completeLines_append {a b : List α} (h : sep ∉ a) :
    completeLines sep (a ++ sep :: b) = a :: completeLines sep b := by
  have hsplit : (a ++ sep :: b).splitOn sep = a :: b.splitOn sep := by
    rw [List.splitOn_eq_splitOnP, List.splitOn_eq_splitOnP]
    exact List.splitOnP_append_cons_of_forall_mem
      (fun x hx => by simpa using fun heq : x = sep => h (heq ▸ hx)) sep (by simp) b
  have hne : b.splitOn sep ≠ [] := by
    rw [List.splitOn_eq_splitOnP]
    exact List.splitOnP_ne_nil _ _
  rw [completeLines, hsplit, List.dropLast_cons_of_ne_nil hne, completeLines]

/-- A line has no separator. -/
lemma not_mem_of_completeLines {f l : List α} (hl : l ∈ completeLines sep f) : sep ∉ l := by
  induction hlen : f.length using Nat.strong_induction_on generalizing f with
  | _ k ih =>
      by_cases hmem : sep ∈ f
      · obtain ⟨a, b, rfl, ha⟩ := List.eq_append_cons_of_mem hmem
        rw [completeLines_append sep ha] at hl
        rcases List.mem_cons.mp hl with rfl | hrest
        · exact ha
        · refine ih b.length ?_ hrest rfl
          rw [← hlen, List.length_append, List.length_cons]
          omega
      · rw [completeLines_of_not_mem sep hmem] at hl
        cases hl

end Lines

section Chunks

variable {sep n}

variable (sep) in
lemma length_nextChunk (hn : 0 < n) {f : List α} (hf : f ≠ []) :
    (nextChunk sep n f).2.length < f.length := by
  have hpos : 0 < f.length := List.length_pos_iff.mpr hf
  rw [nextChunk, List.length_drop]
  omega

/-- Enough fuel gives all chunks. -/
lemma chunksLoop_eq (hn : 0 < n) :
    ∀ {fuel : ℕ} {f : List α}, f.length ≤ fuel → chunksLoop sep n fuel f = chunks sep n f := by
  intro fuel f
  induction hlen : f.length using Nat.strong_induction_on generalizing fuel f with
  | _ k ih =>
      intro hfuel
      by_cases hf : f = []
      · subst hf
        cases fuel <;> simp [chunks, chunksLoop]
      · have hlt := length_nextChunk sep hn hf
        obtain ⟨fuel, rfl⟩ : ∃ j, fuel = j + 1 := ⟨fuel - 1, by omega⟩
        obtain ⟨k, hk⟩ : ∃ j, f.length = j + 1 := ⟨f.length - 1, by omega⟩
        rw [chunks, hk, chunksLoop, chunksLoop, if_neg hf, if_neg hf,
          ih _ (by omega) rfl (by omega), ih _ (by omega) rfl (by omega)]

lemma chunks_cons (hn : 0 < n) {f : List α} (hf : f ≠ []) :
    chunks sep n f = (nextChunk sep n f).1 :: chunks sep n (nextChunk sep n f).2 := by
  have hlt := length_nextChunk sep hn hf
  obtain ⟨k, hk⟩ : ∃ j, f.length = j + 1 := ⟨f.length - 1, by omega⟩
  rw [chunks, hk, chunksLoop, if_neg hf, chunksLoop_eq hn (by omega)]

/-- The first chunk of a file whose first line is complete. -/
lemma nextChunk_append {a b : List α} (h : sep ∉ a) :
    nextChunk sep n (a ++ sep :: b)
      = if a.length < n then (a ++ [sep], b) else (a.take n, a.drop n ++ sep :: b) := by
  have hidx : (a ++ sep :: b).idxOf sep = a.length := by
    rw [List.idxOf_append, if_neg h, List.idxOf_cons_self, Nat.zero_add]
  rw [nextChunk, hidx]
  split_ifs with hlt
  · rw [Nat.min_eq_right (by omega), List.take_length_add_append, List.drop_length_add_append]
    rfl
  · rw [Nat.min_eq_left (by omega), List.take_append_of_le_length (by omega),
      List.drop_append_of_le_length (by omega)]

/-- The chunks that end with a separator are the tails of the complete lines. -/
theorem terminated_chunks (hn : 0 < n) (f : List α) :
    (chunks sep n f).filter (fun c => c.getLast? = some sep)
      = (completeLines sep f).map fun l => lineTail n l ++ [sep] := by
  induction hlen : f.length using Nat.strong_induction_on generalizing f with
  | _ k ih =>
      by_cases hf : f = []
      · subst hf
        simp [chunks, chunksLoop, completeLines]
      · have hlt := length_nextChunk sep hn hf
        have hrest := ih _ (by omega) (nextChunk sep n f).2 rfl
        rw [chunks_cons hn hf, List.filter_cons]
        by_cases hmem : sep ∈ f
        · obtain ⟨a, b, rfl, ha⟩ := List.eq_append_cons_of_mem hmem
          rw [nextChunk_append ha] at hrest ⊢
          rw [completeLines_append sep ha]
          split_ifs at hrest ⊢ with hshort hend hend
          · rw [hrest, List.map_cons, lineTail_of_lt n hshort]
          · simp at hend
          · -- the first chunk of a long line has no separator
            have hlast : sep ∈ a.take n := List.mem_of_getLast? (by simpa using hend)
            exact absurd (List.mem_of_mem_take hlast) ha
          · have htail : sep ∉ a.drop n := fun h => ha (List.mem_of_mem_drop h)
            rw [completeLines_append sep htail, List.map_cons,
              lineTail_drop n hn (by omega)] at hrest
            exact hrest
        · have hfirst : sep ∉ (nextChunk sep n f).1 := fun h => hmem (List.mem_of_mem_take h)
          have hafter : sep ∉ (nextChunk sep n f).2 := fun h => hmem (List.mem_of_mem_drop h)
          have hend : ¬ (nextChunk sep n f).1.getLast? = some sep := fun h =>
            hfirst (List.mem_of_getLast? h)
          rw [if_neg (by simpa using hend), hrest, completeLines_of_not_mem sep hafter,
            completeLines_of_not_mem sep hmem]

/-- What is not the tail of a complete line has no separator. -/
lemma sep_mem_chunk (hn : 0 < n) {f c : List α} (hc : c ∈ chunks sep n f) (hsep : sep ∈ c) :
    c.getLast? = some sep := by
  induction hlen : f.length using Nat.strong_induction_on generalizing f with
  | _ k ih =>
      by_cases hf : f = []
      · subst hf
        simp [chunks, chunksLoop] at hc
      · have hlt := length_nextChunk sep hn hf
        rw [chunks_cons hn hf] at hc
        rcases List.mem_cons.mp hc with rfl | hrest
        · obtain ⟨a, b, rfl, ha⟩ := List.eq_append_cons_of_mem (List.mem_of_mem_take hsep)
          rw [nextChunk_append ha] at hsep ⊢
          split_ifs at hsep ⊢ with hshort
          · simp
          · exact absurd (List.mem_of_mem_take hsep) ha
        · exact ih _ (by omega) hrest rfl

end Chunks

end Hearthbeat
