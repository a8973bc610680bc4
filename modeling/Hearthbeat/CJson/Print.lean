import Hearthbeat.CJson.Item
import Hearthbeat.Memory.Access
import Hearthbeat.Memory.Alloc
import Hearthbeat.Text.Buffer

/-!
`cJSON.c`: the printer, which writes into a block that grows.

* `PrintBuffer`: the block with its length, and how far it is filled. `ensure` makes room,
  `write` makes room and stores some bytes, none of them outside the block.
* `printValue`, with `printString` and the loops of arrays and objects; `print`: the source's
  function of that name.
* `At`: what the block holds, up to the offset and behind it.
* `print_render`: the printer stores nothing outside its block, and returns the text of
  `render` or nothing; it fails only if an allocation has failed, or if the text is too long
  for an `int`.
-/

namespace Hearthbeat.CJson

/-- The source's `INT_MAX`. -/
def intMax : ℕ := 2147483647

/-- The source's `printbuffer`, with what the allocator answers from now on. -/
structure PrintBuffer where
  buffer : List Byte
  length : ℕ
  offset : ℕ
  depth : ℕ
  format : Bool
  allocs : ℕ → Alloc Byte

/-! ### The buffer -/

/-- The size of the block that `ensure` asks for. -/
def newSize (needed : ℕ) : Option ℕ :=
  if intMax / 2 < needed then
    if needed ≤ intMax then some intMax else none
  else some (needed * 2)

/-- The source's `ensure`: the buffer has room for so many bytes and one more behind the
offset, or there is an allocation, which may fail. -/
def ensure (needed : ℕ) (p : PrintBuffer) : Access PrintBuffer :=
  if 0 < p.length ∧ p.length ≤ p.offset then .fail
  else if intMax < needed then .fail
  else
    let needed := needed + p.offset + 1
    if needed ≤ p.length then .ok p
    else match newSize needed with
      | none => .fail
      | some newsize =>
          match realloc (p.allocs 0) (some p.buffer) newsize with
          | none => .fail
          | some newbuffer =>
              .ok { p with
                buffer := newbuffer, length := newsize, allocs := fun i => p.allocs (i + 1) }

/-- Bytes that are stored `i` bytes behind the offset. -/
def copy (i : ℕ) (bs : List Byte) (p : PrintBuffer) : Access PrintBuffer := do
  let buffer ← .read (store p.buffer (p.offset + i : ℕ) bs)
  .ok { p with buffer := buffer }

/-- Room for some bytes, the bytes, and how far the offset moves. -/
def write (needed : ℕ) (bs : List Byte) (n : ℕ) (p : PrintBuffer) : Access PrintBuffer := do
  let p ← ensure needed p
  let p ← copy 0 bs p
  .ok { p with offset := p.offset + n }

/-- The source's `update_offset`, which looks for a NUL. -/
def updateOffset (p : PrintBuffer) : Access PrintBuffer :=
  if 0 ∈ p.buffer.drop p.offset then
    .ok { p with offset := p.offset + (cstr (p.buffer.drop p.offset)).length }
  else .fault

/-! ### The printer -/

section Printer

variable {D : Type} [DecidableEq D] (F : Floats D)

/-- The number in the buffer of 26 bytes that `print_number` has. -/
def numberBuffer (d : D) : Access Text :=
  if F.finite d = false then .ok (bytes "null")
  else if 25 < (F.format 15 d).length then .fault
  else if (F.strtod (F.format 15 d)).map Prod.fst = some d then .ok (F.format 15 d)
  else if 25 < (F.format 17 d).length then .fault
  else .ok (F.format 17 d)

/-- The source's `print_number`, which copies its own buffer with the NUL. -/
def printNumber (d : D) (p : PrintBuffer) : Access PrintBuffer := do
  let number ← numberBuffer F d
  write (number.length + 1) (number ++ [0]) number.length p

/-- How many bytes more than one `print_string_ptr` counts for a byte. -/
def escapeCharacters (b : Byte) : ℕ :=
  if b = quote ∨ b = backslash ∨ b = 8 ∨ b = 12 ∨ b = 10 ∨ b = 13 ∨ b = 9 then 1
  else if b < 32 then 5
  else 0

/-- The loop of `print_string_ptr`, which stores at `i`; `sprintf` adds a NUL. -/
def copyEscapes : List Byte → ℕ → PrintBuffer → Access PrintBuffer
  | [], _, p => .ok p
  | b :: s, i, p => do
      let p ← copy i (if escapeCharacters b = 5 then escape b ++ [0] else escape b) p
      copyEscapes s (i + (escape b).length) p

/-- The source's `print_string_ptr`. -/
def printString (s : Str) (p : PrintBuffer) : Access PrintBuffer := do
  let escapes := (s.1.map escapeCharacters).sum
  let outputLength := s.1.length + escapes
  let p ← ensure (outputLength + 3) p
  if escapes = 0 then copy 0 (quote :: (s.1 ++ [quote, 0])) p
  else do
    let p ← copy 0 [quote] p
    let p ← copyEscapes s.1 1 p
    copy (outputLength + 1) [quote, 0] p

/-- The comma of `print_array`, where another element follows. -/
def printSeparator (p : PrintBuffer) : Elements D → Access PrintBuffer
  | .nil => .ok p
  | .cons _ _ =>
      let length := if p.format then 2 else 1
      write (length + 1) (separator p.format ++ [0]) length p

/-- The tabs of `print_object` in front of a member. -/
def printTabs (p : PrintBuffer) : Access PrintBuffer :=
  if p.format then write p.depth (tabs p.format p.depth) p.depth p else .ok p

mutual

/-- The source's `print_value`, with `print_array` and `print_object`. -/
def printValue (p : PrintBuffer) : Item D → Access PrintBuffer
  | .null => write 5 (bytes "null" ++ [0]) 0 p
  | .bool b => if b then write 5 (bytes "true" ++ [0]) 0 p else write 6 (bytes "false" ++ [0]) 0 p
  | .number d => printNumber F d p
  | .string s => printString s p
  | .array child => do
      let p ← write 1 [openBracket] 1 p
      let p ← printElements { p with depth := p.depth + 1 } child
      let p ← write 2 [closeBracket, 0] 0 p
      .ok { p with depth := p.depth - 1 }
  | .object child => do
      let length := if p.format then 2 else 1
      let p ← write (length + 1) (openBrace :: lineBreak p.format) length p
      let p ← printMembers { p with depth := p.depth + 1 } child
      let p ← write (if p.format then p.depth + 1 else 2)
        (tabs p.format (p.depth - 1) ++ [closeBrace, 0]) 0 p
      .ok { p with depth := p.depth - 1 }

/-- The loop of `print_array`. -/
def printElements (p : PrintBuffer) : Elements D → Access PrintBuffer
  | .nil => .ok p
  | .cons x next => do
      let p ← printValue p x
      let p ← updateOffset p
      let p ← printSeparator p next
      printElements p next

/-- The loop of `print_object`. -/
def printMembers (p : PrintBuffer) : Members D → Access PrintBuffer
  | .nil => .ok p
  | .cons s x next => do
      let p ← printTabs p
      let p ← printString s p
      let p ← updateOffset p
      let length := if p.format then 2 else 1
      let p ← write length (nameEnd p.format) length p
      let p ← printValue p x
      let p ← updateOffset p
      let length := (if p.format then 1 else 0) + next.separator.length
      let p ← write (length + 1) (next.separator ++ lineBreak p.format ++ [0]) length p
      printMembers p next

end

/-- The source's `print`: the block that it returns. -/
def print (format : Bool) (x : Item D) (allocs : ℕ → Alloc Byte) : Access (List Byte) := do
  match malloc (allocs 0) 256 with
  | none => .fail
  | some buffer =>
      let p ← printValue F ⟨buffer, 256, 0, 0, format, fun i => allocs (i + 1)⟩ x
      let p ← updateOffset p
      match realloc (p.allocs 0) (some p.buffer) (p.offset + 1) with
      | none => .fail
      | some printed => .ok printed

end Printer

/-! ### What the block holds -/

/-- The block holds `t` up to the offset and `b` behind it, and has room for more than `n`
other bytes. Where an allocation fails, `E` is the case. -/
structure At (E : Prop) (format : Bool) (depth : ℕ) (t b : List Byte) (n : ℕ) (p : PrintBuffer) :
    Prop where
  holds : ∃ rest, p.buffer = t ++ b ++ rest ∧ n < rest.length
  length : p.length = p.buffer.length
  bound : p.length ≤ intMax
  offset : p.offset = t.length
  format : p.format = format
  depth : p.depth = depth
  alloc : ∀ i, p.allocs i = none → E

section At

variable {E : Prop} {format : Bool} {depth n m k : ℕ} {t a b bs : List Byte} {p : PrintBuffer}

/-- Bytes behind the offset may be forgotten. -/
lemma At.forget (h : At E format depth t (a ++ b) n p) : At E format depth t a (b.length + n) p := by
  obtain ⟨rest, hbuffer, hn⟩ := h.holds
  refine ⟨⟨b ++ rest, ?_, ?_⟩, h.length, h.bound, h.offset, h.format, h.depth, h.alloc⟩
  · rw [hbuffer]
    simp only [List.append_assoc]
  · rw [List.length_append]
    omega

lemma At.room (h : At E format depth t b n p) (hm : m ≤ n) : At E format depth t b m p := by
  obtain ⟨rest, hbuffer, hn⟩ := h.holds
  exact ⟨⟨rest, hbuffer, by omega⟩, h.length, h.bound, h.offset, h.format, h.depth, h.alloc⟩

/-- What stands behind the offset does not matter. -/
lemma At.drop (h : At E format depth t b n p) : At E format depth t [] 0 p :=
  (At.forget (a := []) h).room (Nat.zero_le _)

/-- The offset moves over bytes that are there. -/
lemma At.advance (h : At E format depth t (a ++ b) n p) (hk : k = p.offset + a.length) :
    At E format depth (t ++ a) b n { p with offset := k } := by
  obtain ⟨rest, hbuffer, hn⟩ := h.holds
  refine ⟨⟨rest, ?_, hn⟩, h.length, h.bound, ?_, h.format, h.depth, h.alloc⟩
  · rw [hbuffer]
    simp only [List.append_assoc]
  · rw [List.length_append, hk, h.offset]

lemma At.lt (h : At E format depth t b n p) : t.length + b.length + n < p.length := by
  obtain ⟨rest, hbuffer, hn⟩ := h.holds
  rw [h.length, hbuffer, List.length_append, List.length_append]
  omega

/-- There is room, or a reason why there is none. -/
lemma ensure_spec (h : At E format depth t [] 0 p)
    (hlong : intMax < t.length + n + 1 → E) :
    (ensure n p).Spec E (At E format depth t [] n) := by
  obtain ⟨rest, hbuffer, hrest⟩ := h.holds
  have hlt := h.lt
  have hlength := h.length
  simp only [hbuffer, List.length_append, List.length_nil] at hlength hlt
  have hfit : ¬ (0 < p.length ∧ p.length ≤ p.offset) := by rw [h.offset]; omega
  rw [ensure, if_neg hfit]
  by_cases hneeded : intMax < n
  · rw [if_pos hneeded]
    exact hlong (by omega)
  rw [if_neg hneeded]
  simp only [h.offset]
  -- there is room already
  by_cases hroom : n + t.length + 1 ≤ p.length
  · rw [if_pos hroom]
    exact ⟨⟨rest, hbuffer, by omega⟩, h.length, h.bound, h.offset, h.format, h.depth, h.alloc⟩
  rw [if_neg hroom]
  -- the buffer must grow, to a size that is not too large
  cases hsize : newSize (n + t.length + 1) with
  | none =>
      rw [newSize] at hsize
      split_ifs at hsize with hhalf hmax
      exact hlong (by omega)
  | some newsize =>
      obtain ⟨hge, hle⟩ : n + t.length + 1 ≤ newsize ∧ newsize ≤ intMax := by
        rw [newSize] at hsize
        split_ifs at hsize with hhalf hmax <;> cases hsize
        · exact ⟨hmax, le_rfl⟩
        · rw [intMax] at hhalf ⊢
          omega
      cases halloc : p.allocs 0 with
      | none => exact h.alloc 0 halloc
      | some fresh =>
          have hblock := h.length
          obtain ⟨grown, hrealloc, hgrown⟩ := realloc_grow fresh p.buffer (newsize - p.length)
          rw [← hblock, Nat.add_sub_cancel' (by omega)] at hrealloc
          simp only [hrealloc]
          refine ⟨⟨rest ++ grown, ?_, ?_⟩, ?_, hle, rfl, h.format, h.depth, fun i => h.alloc _⟩
          · simp only [hbuffer, List.append_assoc]
          · rw [List.length_append]
            omega
          · simp only [List.length_append, hgrown]
            omega

/-- Bytes that are stored behind others. -/
lemma copy_spec (bs : List Byte) (n : ℕ) (h : At E format depth t a (bs.length + n) p) :
    (copy a.length bs p).Spec E (At E format depth t (a ++ bs) n) := by
  obtain ⟨rest, hbuffer, hrest⟩ := h.holds
  have hsplit : p.buffer = (t ++ a) ++ (rest.take bs.length ++ rest.drop bs.length) := by
    rw [hbuffer, List.take_append_drop]
  have htake : (rest.take bs.length).length = bs.length := by
    rw [List.length_take]
    omega
  have hstore : store p.buffer (p.offset + a.length : ℕ) bs
      = some ((t ++ a) ++ (bs ++ rest.drop bs.length)) := by
    rw [hsplit, h.offset, ← List.length_append]
    exact store_append htake
  rw [copy, hstore, Access.read_some, Access.ok_bind]
  refine ⟨⟨rest.drop bs.length, by simp only [List.append_assoc], ?_⟩, ?_, h.bound, h.offset,
    h.format, h.depth, h.alloc⟩
  · rw [List.length_drop]
    omega
  · rw [h.length, hsplit]
    simp only [List.length_append, htake]

/-- The bytes are stored, and the offset moves over some of them. -/
lemma write_spec (h : At E format depth t [] 0 p) (hbs : bs = a ++ b) (hk : k = a.length)
    (hn : bs.length ≤ n) (hlong : intMax < t.length + n + 1 → E) :
    (write n bs k p).Spec E (At E format depth (t ++ a) b 0) := by
  rw [write]
  refine (ensure_spec h hlong).bind fun p' hp' => ?_
  have hcopy := copy_spec bs 0 (a := []) (hp'.room hn)
  rw [List.nil_append] at hcopy
  refine hcopy.bind fun p'' hp'' => ?_
  rw [hbs] at hp''
  exact hp''.advance (by rw [hk])

/-- A text that stands behind the offset, with its NUL. -/
lemma updateOffset_spec (h : At E format depth t (b ++ [0]) n p) (hb : 0 ∉ b) :
    (updateOffset p).Spec E (At E format depth (t ++ b) [0] n) := by
  obtain ⟨rest, hbuffer, hrest⟩ := h.holds
  have hdrop : p.buffer.drop p.offset = b ++ 0 :: rest := by
    rw [hbuffer, h.offset, List.append_assoc, List.drop_left]
    simp only [List.append_assoc, List.singleton_append]
  have hcstr : cstr (b ++ 0 :: rest) = b := (cstr_append_zero rest).trans (cstr_of_not_mem hb)
  rw [updateOffset, hdrop, if_pos (by simp), hcstr]
  exact h.advance rfl

end At

/-! ### What is printed -/

/-- The text `v` has been printed behind `t`; the offset may have moved over a part of it. -/
def Printed (E : Prop) (format : Bool) (depth : ℕ) (t v : List Byte) (p : PrintBuffer) : Prop :=
  ∃ a b, v = a ++ b ∧ 0 ∉ b ∧ At E format depth (t ++ a) (b ++ [0]) 0 p

section Printed

variable {E : Prop} {format : Bool} {depth : ℕ} {t v : List Byte} {p : PrintBuffer}

/-- The offset moves behind the text, to its NUL. -/
lemma Printed.update_nul (h : Printed E format depth t v p) :
    (updateOffset p).Spec E (At E format depth (t ++ v) [0] 0) := by
  obtain ⟨a, b, rfl, hb, hat⟩ := h
  rw [← List.append_assoc]
  exact updateOffset_spec hat hb

lemma Printed.update (h : Printed E format depth t v p) :
    (updateOffset p).Spec E (At E format depth (t ++ v) [] 0) :=
  h.update_nul.imp fun _ hat => hat.drop

/-- A text that is stored with its NUL, while the offset stays. -/
lemma write_printed {k : ℕ} (h : At E format depth t [] 0 p) (hv : 0 ∉ v) (hk : k = v.length + 1)
    (hlong : intMax < (t ++ v).length + 2 → E) :
    (write k (v ++ [0]) 0 p).Spec E (Printed E format depth t v) := by
  have hn : (v ++ [0]).length ≤ k := by
    rw [List.length_append, List.length_singleton]
    omega
  have hfits : intMax < t.length + k + 1 → E := fun hlt =>
    hlong (by rw [List.length_append]; omega)
  have hwrite := write_spec (a := []) h (List.nil_append _).symm List.length_nil.symm hn hfits
  exact hwrite.imp fun p' hp' => ⟨[], v, rfl, hv, hp'⟩

/-! ### Strings and numbers -/

/-- The count of the first loop is right. -/
lemma length_escape (b : Byte) : (escape b).length = escapeCharacters b + 1 := by
  by_cases hone : b = quote ∨ b = backslash ∨ b = 8 ∨ b = 12 ∨ b = 10 ∨ b = 13 ∨ b = 9
  · rw [escapeCharacters, if_pos hone]
    rcases hone with rfl | rfl | rfl | rfl | rfl | rfl | rfl <;> rfl
  · rw [escapeCharacters, if_neg hone]
    simp only [not_or] at hone
    obtain ⟨hquote, hslash, h8, h12, h10, h13, h9⟩ := hone
    have hiff : 31 < b ↔ ¬ b < 32 := by
      rw [UInt8.lt_iff_toNat_lt, UInt8.lt_iff_toNat_lt]
      show 31 < b.toNat ↔ ¬ b.toNat < 32
      omega
    rw [escape]
    by_cases h32 : b < 32
    · rw [if_neg fun h => hiff.mp h.1 h32, if_neg hslash, if_neg hquote, if_neg h8, if_neg h12,
        if_neg h10, if_neg h13, if_neg h9, if_pos h32]
      rfl
    · rw [if_pos ⟨hiff.mpr h32, hquote, hslash⟩, if_neg h32]
      rfl

lemma length_flatMap_escape (s : List Byte) :
    (s.flatMap escape).length = s.length + (s.map escapeCharacters).sum := by
  induction s with
  | nil => rfl
  | cons b s ih =>
      rw [List.flatMap_cons, List.length_append, ih, length_escape, List.map_cons, List.sum_cons,
        List.length_cons]
      omega

/-- Where nothing is counted, nothing is escaped. -/
lemma flatMap_escape_of_sum {s : List Byte} (h : (s.map escapeCharacters).sum = 0) :
    s.flatMap escape = s := by
  induction s with
  | nil => rfl
  | cons b s ih =>
      rw [List.map_cons, List.sum_cons] at h
      have hlength : (escape b).length = 1 := by
        rw [length_escape]
        omega
      have hplain : escape b = [b] := by
        rw [escape] at hlength ⊢
        split_ifs at hlength ⊢
        · rfl
        all_goals cases hlength
      rw [List.flatMap_cons, hplain, ih (by omega), List.singleton_append]

lemma hexDigit_ne_zero {n : ℕ} (hn : n < 16) : (0 : Byte) ≠ hexDigit n := by
  revert n
  decide

lemma nul_not_mem_escape {b : Byte} (hb : b ≠ 0) : 0 ∉ escape b := by
  have hlt := b.toNat_lt
  have hhigh := hexDigit_ne_zero (n := b.toNat / 16) (by omega)
  have hlow := hexDigit_ne_zero (n := b.toNat % 16) (by omega)
  rw [escape]
  split_ifs
  · simpa using hb.symm
  iterate 7 decide
  · simp [hhigh, hlow, backslash, show byte 'u' = 117 from rfl]

lemma nul_not_mem_renderString (s : Str) : 0 ∉ renderString s := by
  intro h
  rcases List.mem_cons.mp h with h | h
  · cases h
  rcases List.mem_append.mp h with h | h
  · obtain ⟨b, hb, hmem⟩ := List.mem_flatMap.mp h
    refine nul_not_mem_escape ?_ hmem
    rintro rfl
    exact s.2 hb
  · cases List.mem_singleton.mp h

/-- The loop stores the escapes; the NUL of `sprintf` is overwritten. -/
lemma copyEscapes_spec {n : ℕ} {s a : List Byte}
    (h : At E format depth t a ((s.flatMap escape).length + 1 + n) p) :
    (copyEscapes s a.length p).Spec E (At E format depth t (a ++ s.flatMap escape) (1 + n)) := by
  induction s generalizing a p with
  | nil =>
      rw [List.flatMap_nil, List.append_nil]
      exact h.room (by omega)
  | cons b s ih =>
      have hlength : ((b :: s).flatMap escape).length
          = (escape b).length + (s.flatMap escape).length := by
        rw [List.flatMap_cons, List.length_append]
      rw [hlength] at h
      have hcopy : (copy a.length (if escapeCharacters b = 5 then escape b ++ [0] else escape b)
          p).Spec E (At E format depth t (a ++ escape b) ((s.flatMap escape).length + 1 + n)) := by
        split_ifs
        · have hstored := copy_spec (escape b ++ [0]) ((s.flatMap escape).length + n)
            (h.room (by rw [List.length_append, List.length_singleton]; omega))
          refine hstored.imp fun p' hp' => ?_
          rw [← List.append_assoc] at hp'
          exact hp'.forget.room (by rw [List.length_singleton]; omega)
        · exact copy_spec _ _ (h.room (by omega))
      rw [copyEscapes, List.flatMap_cons, ← List.append_assoc]
      refine hcopy.bind fun p' hp' => ?_
      rw [← List.length_append]
      exact ih hp'

lemma printString_spec {s : Str} (h : At E format depth t [] 0 p)
    (hlong : intMax < (t ++ renderString s).length + 2 → E) :
    (printString s p).Spec E (Printed E format depth t (renderString s)) := by
  have hlength := length_flatMap_escape s.1
  have hrender : (renderString s).length = (s.1.flatMap escape).length + 2 := by
    rw [renderString, List.length_cons, List.length_append, List.length_singleton]
  rw [List.length_append, hrender] at hlong
  have hfits : intMax < t.length + (s.1.length + (s.1.map escapeCharacters).sum + 3) + 1 → E :=
    fun hlt => hlong (by omega)
  rw [printString]
  refine (ensure_spec h hfits).bind fun p₁ h₁ => ?_
  have hprinted : ∀ p', At E format depth t (quote :: (s.1.flatMap escape ++ [quote, 0])) 0 p' →
      Printed E format depth t (renderString s) p' := fun p' hp' =>
    ⟨[], renderString s, rfl, nul_not_mem_renderString s, by
      rw [List.append_nil, renderString, List.cons_append, List.append_assoc]
      exact hp'⟩
  by_cases hnone : (s.1.map escapeCharacters).sum = 0
  · rw [if_pos hnone]
    have hcopy := copy_spec (quote :: (s.1 ++ [quote, 0])) 0 (a := [])
      (h₁.room (by simp [hnone]))
    rw [flatMap_escape_of_sum hnone] at hprinted
    exact hcopy.imp hprinted
  · rw [if_neg hnone]
    have hquote := copy_spec [quote] ((s.1.flatMap escape).length + 1 + 1) (a := [])
      (h₁.room (by rw [List.length_singleton]; omega))
    refine hquote.bind fun p₂ h₂ => ?_
    refine (copyEscapes_spec (a := [quote]) h₂).bind fun p₃ h₃ => ?_
    have hplace : s.1.length + (s.1.map escapeCharacters).sum + 1
        = ([quote] ++ s.1.flatMap escape).length := by
      rw [List.length_append, List.length_singleton, hlength]
      omega
    rw [hplace]
    exact (copy_spec [quote, 0] 0 h₃).imp hprinted

lemma numberBuffer_eq {D : Type} [DecidableEq D] {F : Floats D} (hF : F.Exact) (d : D) :
    numberBuffer F d = .ok (renderNumber F d) := by
  rw [numberBuffer, renderNumber]
  by_cases hd : F.finite d = false
  · rw [if_pos hd, if_pos hd]
  · have hfinite : F.finite d = true := by simpa using hd
    have h15 := hF.short (n := 15) hfinite (by omega)
    have h17 := hF.short (n := 17) hfinite (by omega)
    rw [if_neg hd, if_neg (not_lt.mpr h15), if_neg hd, if_neg (not_lt.mpr h17)]
    split_ifs
    · rfl
    · rfl

lemma nul_not_mem_renderNumber {D : Type} [DecidableEq D] {F : Floats D} (hF : F.Exact) (d : D) :
    0 ∉ renderNumber F d := by
  cases hd : F.finite d with
  | false =>
      rw [renderNumber, if_pos hd]
      decide
  | true =>
      obtain ⟨n, hn, heq⟩ := renderNumber_eq hd
      rw [heq]
      exact fun hmem => absurd (hF.bytes hd hn 0 hmem) (by decide)

lemma printNumber_spec {D : Type} [DecidableEq D] {F : Floats D} (hF : F.Exact) {d : D}
    (h : At E format depth t [] 0 p) (hlong : intMax < (t ++ renderNumber F d).length + 2 → E) :
    (printNumber F d p).Spec E (Printed E format depth t (renderNumber F d)) := by
  rw [printNumber, numberBuffer_eq hF, Access.ok_bind]
  rw [List.length_append] at hlong
  have hn : (renderNumber F d ++ [0]).length ≤ (renderNumber F d).length + 1 := by
    rw [List.length_append, List.length_singleton]
  refine (write_spec h rfl rfl hn fun hlt => hlong (by omega)).imp fun p' hp' => ?_
  exact ⟨renderNumber F d, [], (List.append_nil _).symm, List.not_mem_nil, hp'⟩

end Printed

/-! ### Values -/

section Values

variable {D : Type} [DecidableEq D] {F : Floats D} {E : Prop} {format : Bool} {depth n : ℕ}
  {t b : List Byte} {p : PrintBuffer}

lemma At.setDepth (h : At E format depth t b n p) (d : ℕ) :
    At E format d t b n { p with depth := d } :=
  ⟨h.holds, h.length, h.bound, h.offset, h.format, rfl, h.alloc⟩

variable (format) in
lemma length_separator : (if format then 2 else 1) = (separator format).length := by
  cases format <;> rfl

variable (format) in
lemma length_nameEnd : (if format then 2 else 1) = (nameEnd format).length := by
  cases format <;> rfl

variable (format) in
lemma length_lineBreak : (if format then 1 else 0) = (lineBreak format).length := by
  cases format <;> rfl

/-- The text of an item is printed. -/
def Item.Prints (F : Floats D) (E : Prop) (format : Bool) (x : Item D) : Prop :=
  ∀ {depth t p}, At E format depth t [] 0 p →
    (intMax < (t ++ render F format depth x).length + 2 → E) →
    (printValue F p x).Spec E (Printed E format depth t (render F format depth x))

/-- The children of an array are printed, and the offset has moved over them. -/
def Elements.Prints (F : Floats D) (E : Prop) (format : Bool) (xs : Elements D) : Prop :=
  ∀ {depth t p}, At E format depth t [] 0 p →
    (intMax < (t ++ renderElements F format depth xs).length + 2 → E) →
    (printElements F p xs).Spec E (At E format depth (t ++ renderElements F format depth xs) [] 0)

/-- The members of an object are printed, and the offset has moved over them. -/
def Members.Prints (F : Floats D) (E : Prop) (format : Bool) (xs : Members D) : Prop :=
  ∀ {depth t p}, At E format depth t [] 0 p →
    (intMax < (t ++ renderMembers F format depth xs).length + 2 → E) →
    (printMembers F p xs).Spec E (At E format depth (t ++ renderMembers F format depth xs) [] 0)

omit [DecidableEq D] in
lemma printSeparator_spec {xs : Elements D} (h : At E format depth t [] 0 p)
    (hlong : intMax < (t ++ xs.separator format).length + 2 → E) :
    (printSeparator p xs).Spec E (At E format depth (t ++ xs.separator format) [] 0) := by
  cases xs with
  | nil =>
      rw [Elements.separator, List.append_nil]
      exact h
  | cons x next =>
      rw [Elements.separator, List.length_append] at hlong
      rw [printSeparator, Elements.separator, h.format, length_separator]
      refine (write_spec h rfl rfl (by simp) fun hlt => hlong ?_).imp fun p' hp' => hp'.drop
      omega

lemma Elements.prints_cons {x : Item D} {next : Elements D} (hx : x.Prints F E format)
    (hnext : next.Prints F E format) : (Elements.cons x next).Prints F E format := by
  intro depth t p h hlong
  rw [renderElements] at hlong ⊢
  simp only [← List.append_assoc] at hlong ⊢
  rw [printElements]
  refine (hx h fun hlt => hlong ?_).bind fun p₁ h₁ => h₁.update.bind fun p₂ h₂ => ?_
  · simp only [List.length_append] at hlt ⊢
    omega
  refine (printSeparator_spec h₂ fun hlt => hlong ?_).bind fun p₃ h₃ => hnext h₃ hlong
  rw [List.length_append]
  omega

omit [DecidableEq D] in
lemma printTabs_spec (h : At E format depth t [] 0 p)
    (hlong : intMax < (t ++ tabs format depth).length + 2 → E) :
    (printTabs p).Spec E (At E format depth (t ++ tabs format depth) [] 0) := by
  rw [printTabs, h.format, h.depth]
  cases format with
  | false =>
      rw [tabs, if_neg (by simp), List.append_nil]
      exact h
  | true =>
      have hlength : depth = (tabs true depth).length := by rw [tabs, if_pos rfl, List.length_replicate]
      refine write_spec (b := []) h (List.append_nil _).symm hlength hlength.ge fun hlt => hlong ?_
      rw [List.length_append]
      omega

lemma Members.prints_cons {s : Str} {x : Item D} {next : Members D} (hx : x.Prints F E format)
    (hnext : next.Prints F E format) : (Members.cons s x next).Prints F E format := by
  intro depth t p h hlong
  rw [renderMembers] at hlong ⊢
  simp only [← List.append_assoc] at hlong ⊢
  have hsum := hlong
  simp only [List.length_append] at hsum
  rw [printMembers]
  refine (printTabs_spec h fun hlt => hsum ?_).bind fun p₁ h₁ => ?_
  · rw [List.length_append] at hlt
    omega
  refine (printString_spec h₁ fun hlt => hsum ?_).bind fun p₂ h₂ => h₂.update.bind fun p₃ h₃ => ?_
  · simp only [List.length_append] at hlt
    omega
  rw [h₃.format, length_nameEnd]
  have hname := write_spec (n := (nameEnd format).length) (b := []) h₃
    (List.append_nil (nameEnd format)).symm rfl le_rfl fun hlt =>
      hsum (by simp only [List.length_append] at hlt; omega)
  refine hname.bind fun p₄ h₄ => ?_
  refine (hx h₄ fun hlt => hsum ?_).bind fun p₅ h₅ => h₅.update.bind fun p₆ h₆ => ?_
  · simp only [List.length_append] at hlt
    omega
  rw [h₆.format, length_lineBreak, Nat.add_comm, ← List.length_append]
  have hend := write_spec (n := (next.separator ++ lineBreak format).length + 1) (b := [0]) h₆ rfl
    rfl List.length_append.le fun hlt =>
      hsum (by simp only [List.length_append] at hlt; omega)
  refine hend.bind fun p₇ h₇ => ?_
  rw [← List.append_assoc] at h₇
  exact hnext h₇.drop hlong

/-- The brackets of an array, around its children. -/
lemma Item.prints_array {child : Elements D} (hchild : child.Prints F E format) :
    (Item.array child).Prints F E format := by
  intro depth t p h hlong
  have hrender : render F format depth (.array child)
      = [openBracket] ++ renderElements F format (depth + 1) child ++ [closeBracket] := by
    rw [render, List.append_assoc, List.singleton_append]
  rw [hrender] at hlong ⊢
  simp only [List.length_append, List.length_singleton] at hlong
  rw [printValue]
  have hopen := write_spec (n := 1) (b := []) h (List.append_nil [openBracket]).symm rfl le_rfl
    fun hlt => hlong (by omega)
  refine hopen.bind fun p₁ h₁ => ?_
  rw [h₁.depth]
  refine (hchild (h₁.setDepth (depth + 1)) fun hlt => hlong ?_).bind fun p₂ h₂ => ?_
  · simp only [List.length_append, List.length_singleton] at hlt
    omega
  have hclose := write_spec (n := 2) (a := []) (b := [closeBracket, 0]) h₂ rfl rfl le_rfl
    fun hlt => hlong (by simp only [List.length_append, List.length_singleton] at hlt; omega)
  refine hclose.bind fun p₃ h₃ => ?_
  rw [h₃.depth, Nat.add_sub_cancel]
  refine ⟨_, [closeBracket], rfl, by decide, ?_⟩
  rw [List.append_nil, List.append_assoc] at h₃
  exact h₃.setDepth depth

lemma Item.prints_object {child : Members D} (hchild : child.Prints F E format) :
    (Item.object child).Prints F E format := by
  intro depth t p h hlong
  have hrender : render F format depth (.object child)
      = (openBrace :: lineBreak format) ++ renderMembers F format (depth + 1) child
        ++ (tabs format depth ++ [closeBrace]) := by
    rw [render]
    simp only [List.append_assoc, List.cons_append]
  rw [hrender] at hlong ⊢
  have hsum := hlong
  simp only [List.length_append, List.length_cons, List.length_nil] at hsum
  rw [printValue, h.format]
  have hlength : (if format then 2 else 1) = (openBrace :: lineBreak format).length := by
    cases format <;> rfl
  have hopen := write_spec (b := []) h (List.append_nil (openBrace :: lineBreak format)).symm hlength
    (hlength.ge.trans (Nat.le_succ _)) fun hlt => hsum (by
      rw [hlength, List.length_cons] at hlt
      omega)
  refine hopen.bind fun p₁ h₁ => ?_
  rw [h₁.depth]
  refine (hchild (h₁.setDepth (depth + 1)) fun hlt => hsum ?_).bind fun p₂ h₂ => ?_
  · simp only [List.length_append, List.length_cons] at hlt
    omega
  rw [h₂.format, h₂.depth, Nat.add_sub_cancel]
  have hroom : (if format then depth + 1 + 1 else 2) = (tabs format depth).length + 2 := by
    cases format
    · rfl
    · exact congrArg (· + 2) List.length_replicate.symm
  rw [hroom]
  have hclose := write_spec (n := (tabs format depth).length + 2) (a := [])
    (b := tabs format depth ++ [closeBrace, 0]) h₂ rfl rfl (by simp) fun hlt =>
      hsum (by simp only [List.length_append, List.length_cons] at hlt; omega)
  refine hclose.bind fun p₃ h₃ => ?_
  rw [h₃.depth, Nat.add_sub_cancel]
  refine ⟨_, tabs format depth ++ [closeBrace], rfl, ?_, ?_⟩
  · cases format <;> simp [tabs, tab, closeBrace]
  · rw [List.append_nil, List.append_assoc] at h₃
    rw [List.append_assoc _ [closeBrace]]
    exact h₃.setDepth depth

mutual

/-- A text without a NUL. -/
lemma Item.nul_not_mem (hF : F.Exact) (depth : ℕ) : ∀ x : Item D, 0 ∉ render F format depth x
  | .null => show 0 ∉ bytes "null" by decide
  | .bool true => show 0 ∉ bytes "true" by decide
  | .bool false => show 0 ∉ bytes "false" by decide
  | .number d => nul_not_mem_renderNumber hF d
  | .string s => nul_not_mem_renderString s
  | .array child => by
      have hchild := Elements.nul_not_mem hF (depth + 1) child
      rw [render]
      simp [hchild, openBracket, closeBracket]
  | .object child => by
      have hchild := Members.nul_not_mem hF (depth + 1) child
      rw [render]
      cases format <;> simp [hchild, openBrace, closeBrace, lineBreak, lineFeed, tabs, tab]

lemma Elements.nul_not_mem (hF : F.Exact) (depth : ℕ) :
    ∀ xs : Elements D, 0 ∉ renderElements F format depth xs
  | .nil => List.not_mem_nil
  | .cons x next => by
      have hx := Item.nul_not_mem hF depth x
      have hnext := Elements.nul_not_mem hF depth next
      have hseparator : 0 ∉ next.separator format := by
        cases next <;> cases format <;>
          simp [Elements.separator, CJson.separator, comma, space]
      rw [renderElements]
      simp [hx, hnext, hseparator]

lemma Members.nul_not_mem (hF : F.Exact) (depth : ℕ) :
    ∀ xs : Members D, 0 ∉ renderMembers F format depth xs
  | .nil => List.not_mem_nil
  | .cons s x next => by
      have hs := nul_not_mem_renderString s
      have hx := Item.nul_not_mem hF depth x
      have hnext := Members.nul_not_mem hF depth next
      have hseparator : 0 ∉ next.separator := by cases next <;> simp [Members.separator, comma]
      rw [renderMembers]
      cases format <;>
        simp [hs, hx, hnext, hseparator, tabs, tab, nameEnd, colon, lineBreak, lineFeed]

end

mutual

lemma Item.prints (hF : F.Exact) : ∀ x : Item D, x.Prints F E format
  | .null => fun h hlong => write_printed (v := bytes "null") h (by decide) rfl hlong
  | .bool true => fun h hlong => write_printed (v := bytes "true") h (by decide) rfl hlong
  | .bool false => fun h hlong => write_printed (v := bytes "false") h (by decide) rfl hlong
  | .number _ => fun h hlong => printNumber_spec hF h hlong
  | .string _ => fun h hlong => printString_spec h hlong
  | .array child => Item.prints_array (Elements.prints hF child)
  | .object child => Item.prints_object (Members.prints hF child)

lemma Elements.prints (hF : F.Exact) : ∀ xs : Elements D, xs.Prints F E format
  | .nil => fun h _ => by rwa [renderElements, List.append_nil]
  | .cons x next => Elements.prints_cons (Item.prints hF x) (Elements.prints hF next)

lemma Members.prints (hF : F.Exact) : ∀ xs : Members D, xs.Prints F E format
  | .nil => fun h _ => by rwa [renderMembers, List.append_nil]
  | .cons _ x next => Members.prints_cons (Item.prints hF x) (Members.prints hF next)

end

/-- What the printer returns, and why it may fail. -/
lemma print_spec (hF : F.Exact) (format : Bool) (x : Item D) {allocs : ℕ → Alloc Byte}
    (halloc : ∀ i, allocs i = none → E) (hlong : intMax < (render F format 0 x).length + 2 → E) :
    (print F format x allocs).Spec E fun out =>
      out = render F format 0 x ++ [0] ∧ (render F format 0 x).length + 2 ≤ intMax := by
  rw [print]
  cases hfirst : allocs 0 with
  | none => exact halloc 0 hfirst
  | some fresh =>
      obtain ⟨block, hblock, hlength⟩ := malloc_some fresh 256
      simp only [hblock]
      have hstart : At E format 0 [] [] 0
          ⟨block, 256, 0, 0, format, fun i => allocs (i + 1)⟩ :=
        ⟨⟨block, rfl, by omega⟩, hlength.symm, show 256 ≤ intMax by decide, rfl, rfl, rfl, fun i hi => halloc _ hi⟩
      refine (Item.prints hF x hstart hlong).bind fun p₁ h₁ => ?_
      refine h₁.update_nul.bind fun p₂ h₂ => ?_
      obtain ⟨rest, hbuffer, hrest⟩ := h₂.holds
      rw [List.nil_append] at hbuffer
      have hlt := h₂.lt
      simp only [List.nil_append, List.length_singleton] at hlt
      cases hlast : p₂.allocs 0 with
      | none => exact h₂.alloc 0 hlast
      | some fresh =>
          have hsize : p₂.offset + 1 = (render F format 0 x ++ [0]).length := by
            rw [h₂.offset, List.nil_append, List.length_append, List.length_singleton]
          rw [hsize, hbuffer, realloc_shrink]
          exact ⟨rfl, by have := h₂.bound; omega⟩

/-- The printer stores nothing outside the block that it has at the time. It returns the text
with its NUL in a block of just that size, and there is room for it in an `int`; or it fails,
because an allocation has failed or the text is too long. -/
theorem print_render (hF : F.Exact) (format : Bool) (x : Item D) (allocs : ℕ → Alloc Byte) :
    print F format x allocs = .ok (render F format 0 x ++ [0]) ∧
        (render F format 0 x).length + 2 ≤ intMax ∨
      print F format x allocs = .fail ∧
        ((∃ i, allocs i = none) ∨ intMax < (render F format 0 x).length + 2) := by
  have hspec := print_spec
    (E := (∃ i, allocs i = none) ∨ intMax < (render F format 0 x).length + 2) hF format x
    (fun i hi => .inl ⟨i, hi⟩) .inr
  obtain ⟨out, hprint, rfl, hlength⟩ | ⟨hprint, hreason⟩ := hspec.cases
  · exact .inl ⟨hprint, hlength⟩
  · exact .inr ⟨hprint, hreason⟩

/-- An array, where only the first allocation succeeds. -/
theorem print_render_array :
    print integers true (.array (.cons (.number (-307)) .nil))
            (fun i => if i = 0 then some fun _ => 7 else none)
          = .ok (render integers true 0 (.array (.cons (.number (-307)) .nil)) ++ [0]) ∧
        (render integers true 0 (.array (.cons (.number (-307)) .nil))).length + 2 ≤ intMax ∨
      print integers true (.array (.cons (.number (-307)) .nil))
            (fun i => if i = 0 then some fun _ => 7 else none) = .fail ∧
        ((∃ i : ℕ, (if i = 0 then some fun _ => 7 else none : Alloc Byte) = none) ∨
          intMax < (render integers true 0 (.array (.cons (.number (-307)) .nil))).length + 2) :=
  print_render integers_exact true _ fun i => if i = 0 then some fun _ => 7 else none

end Values

end Hearthbeat.CJson
