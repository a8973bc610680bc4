import Hearthbeat.Text.Bytes

/-!
Buffers in memory: lists of a fixed number of bytes, with stores that may fall outside.

* `store`: bytes stored from an index on, none where one of them falls outside.
* `strncpyTo`: `strncpy` with its padding. `strncpyTo_zeros` says what it leaves in a
  larger buffer of zeros: a C string.
-/

namespace Hearthbeat

/-- The buffer after bytes have been stored from an index on. -/
def store (buffer : List Byte) (i : ℤ) (bs : List Byte) : Option (List Byte) :=
  if 0 ≤ i ∧ i + bs.length ≤ buffer.length then
    some (buffer.take i.toNat ++ bs ++ buffer.drop (i.toNat + bs.length))
  else none

/-- The `n` bytes that `strncpy` stores. -/
def padded (n : ℕ) (src : Text) : List Byte := src.take n ++ List.replicate (n - src.length) 0

/-- `strncpy`; a negative length becomes a `size_t` beyond every buffer. -/
def strncpyTo (buffer : List Byte) (src : Text) (n : ℤ) : Option (List Byte) :=
  if 0 ≤ n then store buffer 0 (padded n.toNat src) else none

section Stores

variable {buffer bs : List Byte} {i : ℤ} {src : Text}

lemma store_zero (h : bs.length ≤ buffer.length) :
    store buffer 0 bs = some (bs ++ buffer.drop bs.length) := by
  rw [store, if_pos ⟨le_refl 0, by omega⟩]
  simp

/-- The byte behind what was stored. -/
lemma store_next (b : Byte) (h : bs.length < buffer.length) :
    store (bs ++ buffer.drop bs.length) bs.length [b]
      = some (bs ++ b :: buffer.drop (bs.length + 1)) := by
  have hlength : (bs ++ buffer.drop bs.length).length = buffer.length := by
    rw [List.length_append, List.length_drop]
    omega
  rw [store, if_pos ⟨by omega, by rw [hlength, List.length_singleton]; omega⟩]
  simp [List.drop_append]

/-- Bytes stored over as many others. -/
lemma store_append {pre mid post : List Byte} (h : mid.length = bs.length) :
    store (pre ++ (mid ++ post)) pre.length bs = some (pre ++ (bs ++ post)) := by
  have hdrop : (pre ++ (mid ++ post)).drop (pre.length + bs.length) = post := by
    rw [← List.drop_drop, List.drop_left, ← h, List.drop_left]
  have hroom : (pre.length : ℤ) + bs.length ≤ (pre ++ (mid ++ post)).length := by
    rw [List.length_append, List.length_append, h]
    omega
  rw [store, if_pos ⟨by omega, hroom⟩, Int.toNat_natCast, List.take_left, hdrop,
    List.append_assoc]

@[simp] lemma length_padded (n : ℕ) : (padded n src).length = n := by
  simp only [padded, List.length_append, List.length_take, List.length_replicate]
  omega

lemma cstr_append_zero (t : List Byte) : cstr (bs ++ 0 :: t) = cstr bs := by
  induction bs with
  | nil => simp [cstr]
  | cons b bs ih =>
      by_cases hb : b = 0
      · simp [cstr, hb]
      · simpa [cstr, hb] using ih

variable (src) in
/-- In a buffer of zeros with room for one more byte, `strncpy` leaves a C string. -/
lemma strncpyTo_zeros (size n : ℕ) (h : n < size) :
    ∃ result, strncpyTo (List.replicate size 0) src n = some result ∧ result.length = size ∧
      0 ∈ result ∧ cstr result = strncpy n src := by
  have hdrop : (List.replicate size (0 : Byte)).drop n = 0 :: List.replicate (size - n - 1) 0 := by
    rw [List.drop_replicate, ← List.replicate_succ]
    congr 1
    omega
  have hstore : strncpyTo (List.replicate size 0) src n
      = some (padded n src ++ 0 :: List.replicate (size - n - 1) 0) := by
    rw [strncpyTo, if_pos (by omega), Int.toNat_natCast,
      store_zero (by rw [length_padded, List.length_replicate]; omega), length_padded, hdrop]
  refine ⟨_, hstore, ?_, by simp, ?_⟩
  · simp only [List.length_append, length_padded, List.length_cons, List.length_replicate]
    omega
  · rw [cstr_append_zero, padded, strncpy]
    cases hpad : n - src.length with
    | zero => simp
    | succ k => rw [List.replicate_succ, cstr_append_zero]

/-- A string shorter than the buffer is copied whole, and terminated. -/
lemma strncpyTo_whole {size : ℕ} (h : src.length < size) :
    strncpyTo (List.replicate size 0) src size
      = some (src ++ 0 :: List.replicate (size - src.length - 1) 0) := by
  obtain ⟨k, hk⟩ : ∃ k, size - src.length = k + 1 := ⟨size - src.length - 1, by omega⟩
  have hfits : (padded size src).length ≤ (List.replicate size (0 : Byte)).length := by
    rw [length_padded, List.length_replicate]
  rw [strncpyTo, if_pos (by omega), Int.toNat_natCast, store_zero hfits, length_padded,
    List.drop_of_length_le (by rw [List.length_replicate]), List.append_nil, padded,
    List.take_of_length_le h.le, hk, List.replicate_succ, Nat.add_sub_cancel]

end Stores

example : strncpyTo (List.replicate 6 0) (bytes "pi") 4 = some [112, 105, 0, 0, 0, 0] := by decide

end Hearthbeat
