import Hearthbeat.Argparse.Tails
import Hearthbeat.Text.Buffer

/-!
The buffers of the reader, for a file of any bytes and lines of any length.

* `copyLengths`: the lengths of the two copies of a turn, as the differences of pointers
  that they are.
* `line_fits`: they are not negative and below 256, so key and value are terminated inside
  their buffers. A newline only ends a chunk, so the `=` comes before it.
* `length_of_written`, `length_of_taken`: no value that is passed on is longer than a line.
-/

namespace Hearthbeat.Argparse

/-- `eq - line` and `nl - eq - 1`, where the turn gets to its copies. -/
def copyLengths (line : List Byte) : Option (ℤ × ℤ) :=
  if line.head? = some newline ∨ line.head? = some hash then none
  else
    match strchr line equals, strchr line newline with
    | some eq, some nl => some ((eq : ℤ), (nl : ℤ) - eq - 1)
    | _, _ => none

/-- The buffers `key` and `value` of a turn, which have been zeroed, after copies of these
lengths: none where a copy leaves its buffer. -/
def lineBuffers (line : List Byte) (lengths : ℤ × ℤ) : Option (List Byte × List Byte) :=
  match strncpyTo (List.replicate 256 0) line lengths.1,
      strncpyTo (List.replicate 256 0) (line.drop (lengths.1 + 1).toNat) lengths.2 with
  | some key, some value => some (key, value)
  | _, _ => none

/-- Copies of these lengths are safe, and leave the key and the value that are passed on. -/
structure LineFits (line : List Byte) (lengths : ℤ × ℤ) : Prop where
  key : 0 ≤ lengths.1 ∧ lengths.1 < 256
  value : 0 ≤ lengths.2 ∧ lengths.2 < 256
  terminated : ∃ key value, lineBuffers line lengths = some (key, value) ∧
    0 ∈ key ∧ 0 ∈ value ∧ parseLine line = some (cstr key, cstr value)

section Lines

variable {f line t : List Byte}

/-- A chunk with a newline is the tail of a line. -/
lemma tail_of_chunk (hmem : line ∈ chunks newline 255 f) (hnl : newline ∈ line) :
    ∃ t, line = t ++ [newline] ∧ newline ∉ t ∧ t.length < 255 := by
  have hend := sep_mem_chunk (by norm_num) hmem hnl
  have hfilter : line ∈ (chunks newline 255 f).filter fun c => c.getLast? = some newline :=
    List.mem_filter.mpr ⟨hmem, by simpa using hend⟩
  rw [terminated_chunks (by norm_num)] at hfilter
  obtain ⟨l, hl, rfl⟩ := List.mem_map.mp hfilter
  refine ⟨lineTail 255 l, rfl, fun h => ?_, ?_⟩
  · exact not_mem_of_completeLines newline hl (List.mem_of_mem_drop h)
  · rw [length_lineTail]
    exact Nat.mod_lt _ (by norm_num)

/-- The lengths are those of what is found. -/
lemma copyLengths_declaration {key value : Text} (hnul : 0 ∉ key ++ equals :: value)
    (hkey : equals ∉ key) (hline : newline ∉ key ++ equals :: value)
    {lengths : ℤ × ℤ} (h : copyLengths (key ++ equals :: value ++ [newline]) = some lengths) :
    lengths = ((key.length : ℤ), (value.length : ℤ)) := by
  obtain ⟨heq, hnl⟩ := strchr_declaration hnul hkey hline
  rw [copyLengths, heq, hnl] at h
  split_ifs at h
  obtain rfl := Option.some.inj h
  rw [List.length_append, List.length_cons]
  push_cast
  congr 1
  ring

/-- Where the lengths are defined, the turn declares something. -/
lemma parseLine_of_copyLengths {lengths : ℤ × ℤ} (h : copyLengths line = some lengths) :
    ∃ kv, parseLine line = some kv := by
  simp only [copyLengths] at h
  split_ifs at h with hskip
  simp only [parseLine, if_neg hskip]
  cases heq : strchr line equals with
  | none => simp [heq] at h
  | some eq =>
      cases hnl : strchr line newline with
      | none => simp [heq, hnl] at h
      | some nl => exact ⟨_, rfl⟩

/-- The copies of every turn are safe. -/
theorem line_fits (hmem : line ∈ chunks newline 255 f) {lengths : ℤ × ℤ}
    (h : copyLengths line = some lengths) : LineFits line lengths := by
  obtain ⟨⟨key, value⟩, hparse⟩ := parseLine_of_copyLengths h
  have hnl : newline ∈ line := List.takeWhile_subset _ (mem_of_parseLine hparse).2.1
  obtain ⟨t, rfl, hline, hlen⟩ := tail_of_chunk hmem hnl
  obtain ⟨rfl, hkey, hnul, -⟩ := (parseLine_eq_some hline).mp hparse
  obtain rfl := copyLengths_declaration hnul hkey hline h
  have hkeynul : 0 ∉ key := fun h => hnul (by simp [h])
  have hvaluenul : 0 ∉ value := fun h => hnul (by simp [h])
  rw [List.length_append, List.length_cons] at hlen
  obtain ⟨kb, hkb, -, hkzero, hkstr⟩ := strncpyTo_zeros
    (key ++ equals :: value ++ [newline]) 256 key.length (by omega)
  obtain ⟨vb, hvb, -, hvzero, hvstr⟩ := strncpyTo_zeros
    (value ++ [newline]) 256 value.length (by omega)
  have hdrop : (key ++ equals :: value ++ [newline]).drop ((key.length : ℤ) + 1).toNat
      = value ++ [newline] := by
    rw [List.append_assoc, show ((key.length : ℤ) + 1).toNat = key.length + 1 by omega,
      List.drop_length_add_append]
    rfl
  have hkcstr : cstr kb = key :=
    calc cstr kb
        = cstr ((key ++ equals :: value ++ [newline]).take key.length) := hkstr
      _ = cstr key := by rw [List.append_assoc, List.take_left]
      _ = key := cstr_of_not_mem hkeynul
  have hvcstr : cstr vb = value :=
    calc cstr vb
        = cstr ((value ++ [newline]).take value.length) := hvstr
      _ = cstr value := by rw [List.take_left]
      _ = value := cstr_of_not_mem hvaluenul
  refine ⟨⟨by simp only; omega, by simp only; omega⟩, ⟨by simp only; omega, by simp only; omega⟩,
    kb, vb, ?_, hkzero, hvzero, by rw [hparse, hkcstr, hvcstr]⟩
  simp only [lineBuffers, hdrop, hkb, hvb]

end Lines

/-! ### The values that are passed on -/

section Values

variable {s : Argparse} {f l : List Byte} {key value : Text}

lemma length_of_tail (h : parseLine (lineTail 255 l ++ [newline]) = some (key, value))
    (hl : newline ∉ l) : value.length < 254 ∧ 0 ∉ value := by
  have hline : newline ∉ lineTail 255 l := fun h => hl (List.mem_of_mem_drop h)
  obtain ⟨htail, -, hnul, -⟩ := (parseLine_eq_some hline).mp h
  have hlen : (lineTail 255 l).length < 255 := by
    rw [length_lineTail]
    exact Nat.mod_lt _ (by norm_num)
  rw [htail, List.length_append, List.length_cons] at hlen
  exact ⟨by omega, fun h0 => hnul (by rw [htail]; simp [h0])⟩

/-- A value that is taken from a line. -/
lemma length_of_taken (hl : l ∈ completeLines newline f) (h : taken key l = some value) :
    value.length < 254 ∧ 0 ∉ value := by
  obtain ⟨kv, hparse, hkey⟩ := Option.bind_eq_some_iff.mp h
  split_ifs at hkey
  obtain rfl := Option.some.inj hkey
  exact length_of_tail hparse (not_mem_of_completeLines newline hl)

/-- A value that is assigned. -/
lemma length_of_written (hs : s.Typed) {w : RegisteredPointer × Text}
    (hw : w ∈ writesOf (s.readProperties (some f)).hist) :
    w ∈ writesOf s.hist ∨ w.2.length < 254 ∧ 0 ∉ w.2 := by
  obtain ⟨l, hturn, -⟩ := s.readLines_turn (chunks newline 255 f)
  have hhist : (s.readProperties (some f)).hist = s.hist ++ l := hturn.hist
  have hcalls : s.calls f = callsOf l := by rw [calls, hhist, List.drop_left]
  rw [hhist, writesOf_append] at hw
  rcases List.mem_append.mp hw with hw | hw
  · exact .inl hw
  · rw [hturn.assigned hs, ← hcalls] at hw
    obtain ⟨kv, hkv, hmap⟩ := List.mem_filterMap.mp hw
    obtain ⟨p, -, rfl⟩ := Option.map_eq_some_iff.mp hmap
    obtain ⟨line, hline, hcall⟩ := s.mem_calls hkv
    rw [callOf_eq_filter] at hcall
    exact .inr (length_of_tail (Option.filter_eq_some_iff.mp hcall).1
      (not_mem_of_completeLines newline hline))

end Values

end Hearthbeat.Argparse
