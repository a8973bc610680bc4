import Mathlib.Tactic
import Mathlib.Data.List.TakeWhile

/-!
Bytes and C strings. A C string is the list of its bytes before the terminating
NUL; a buffer filled through `snprintf` keeps what fits beside the NUL.

`strchr`, `strrchr`, `strncpy` and `atoi` are those of the C library, on such lists; `cstr`
is the C string at the start of a buffer, which may hold more bytes.
-/

namespace Hearthbeat

/-- A `char`, as its eight bits. -/
abbrev Byte := UInt8

/-- The contents of a C string. -/
abbrev Text := List Byte

/-- The bytes of a string literal. -/
def bytes (s : String) : Text := s.toList.map Char.toUInt8

/-- What `snprintf` leaves of a formatted text in a buffer of `n` bytes. -/
def snprintf (n : ℕ) (s : Text) : Text := s.take (n - 1)

/-- The byte of a character literal. -/
def byte (c : Char) : Byte := c.toUInt8

/-- The C string at the start of a buffer. -/
def cstr (buffer : List Byte) : Text := buffer.takeWhile (· != 0)

/-- The index at which `strchr` finds a byte that is not NUL. -/
def strchr (buffer : List Byte) (c : Byte) : Option ℕ := (cstr buffer).idxOf? c

/-- The index at which `strrchr` finds it, from the end. -/
def strrchr (buffer : List Byte) (c : Byte) : Option ℕ :=
  ((cstr buffer).reverse.idxOf? c).map fun k => (cstr buffer).length - (k + 1)

/-- What `strncpy` puts into a buffer of zeros. -/
def strncpy (n : ℕ) (buffer : List Byte) : Text := cstr (buffer.take n)

lemma cstr_of_not_mem {s : List Byte} (h : 0 ∉ s) : cstr s = s := by
  rw [cstr, List.takeWhile_eq_self_iff]
  intro b hb
  simpa using fun heq : b = 0 => h (heq ▸ hb)

/-- What stands behind a NUL is not seen. -/
lemma cstr_append_of_mem {s : List Byte} (h : 0 ∈ s) (t : List Byte) : cstr (s ++ t) = cstr s := by
  obtain ⟨a, b, rfl, ha⟩ := List.eq_append_cons_of_mem h
  have hall : ∀ x ∈ a, (x != 0) = true := fun x hx => by
    simpa using fun heq : x = 0 => ha (heq ▸ hx)
  have hcut : ∀ r, cstr (a ++ 0 :: r) = a := by
    intro r
    rw [cstr, List.takeWhile_append_of_pos hall, List.takeWhile_cons_of_neg (by simp),
      List.append_nil]
  calc cstr (a ++ 0 :: b ++ t)
      = cstr (a ++ 0 :: (b ++ t)) := by rw [List.append_assoc, List.cons_append]
    _ = a := hcut (b ++ t)
    _ = cstr (a ++ 0 :: b) := (hcut b).symm

lemma mem_of_strchr {buffer : List Byte} {c : Byte} {k : ℕ} (h : strchr buffer c = some k) :
    c ∈ cstr buffer := by
  by_contra hc
  rw [strchr, List.idxOf?_eq_none_iff.mpr hc] at h
  cases h

lemma strchr_append_cons {a b : List Byte} {c : Byte} (hc : c ∉ a) (hnul : 0 ∉ a ++ c :: b) :
    strchr (a ++ c :: b) c = some a.length := by
  rw [strchr, cstr_of_not_mem hnul, List.idxOf?_eq_some_iff]
  refine ⟨by simp, by simp, fun j hj heq => hc ?_⟩
  rw [List.getElem_append_left hj] at heq
  exact heq ▸ List.getElem_mem hj

lemma strrchr_append_cons {a b : List Byte} {c : Byte} (hc : c ∉ b) (hnul : 0 ∉ a ++ c :: b) :
    strrchr (a ++ c :: b) c = some a.length := by
  have hindex : (a ++ c :: b).reverse.idxOf? c = some b.length := by
    rw [List.reverse_append, List.reverse_cons, List.append_assoc, List.singleton_append,
      List.idxOf?_eq_some_iff]
    refine ⟨by simp, by simp, fun j hj heq => hc ?_⟩
    rw [List.getElem_append_left (by simpa using hj)] at heq
    exact List.mem_reverse.mp (heq ▸ List.getElem_mem _)
  rw [strrchr, cstr_of_not_mem hnul, hindex, Option.map_some, List.length_append, List.length_cons]
  congr 1
  omega

lemma strchr_eq_none {buffer : List Byte} {c : Byte} (hc : c ∉ buffer) (hnul : 0 ∉ buffer) :
    strchr buffer c = none := by
  rw [strchr, cstr_of_not_mem hnul, List.idxOf?_eq_none_iff.mpr hc]

/-- The white space that `strtol` skips. -/
def isSpace (b : Byte) : Bool := b == 32 || (9 ≤ b && b ≤ 13)

/-- The decimal digits. -/
def isDigit (b : Byte) : Bool := 48 ≤ b && b ≤ 57

/-- The number that a string of digits writes. -/
def digitsValue (s : Text) : ℕ := s.foldl (fun v b => 10 * v + (b.toNat - 48)) 0

/-- The number at the start of a string, after an optional sign. -/
def signedValue : Text → ℤ
  | [] => 0
  | b :: s =>
      if b = byte '-' then - digitsValue (s.takeWhile isDigit)
      else if b = byte '+' then digitsValue (s.takeWhile isDigit)
      else digitsValue ((b :: s).takeWhile isDigit)

/-- A 64-bit `strtol`: what does not fit becomes the nearest number that does. -/
def strtol (s : Text) : ℤ := max (-2 ^ 63) (min (2 ^ 63 - 1) (signedValue (s.dropWhile isSpace)))

/-- A 32-bit `atoi`: the result of `strtol`, converted to `int`. -/
def atoi (s : Text) : ℤ := (strtol s).bmod (2 ^ 32)

/-- The conversion to 32 bits keeps exactly the numbers of an `int`. -/
lemma bmod_eq_self_iff (x : ℤ) : x.bmod (2 ^ 32) = x ↔ -2 ^ 31 ≤ x ∧ x < 2 ^ 31 := by
  constructor
  · intro h
    have hle := Int.le_bmod (x := x) (m := 2 ^ 32) (by norm_num)
    have hlt := Int.bmod_lt (x := x) (m := 2 ^ 32) (by norm_num)
    rw [h] at hle hlt
    norm_num at hle hlt
    exact ⟨hle, hlt⟩
  · rintro ⟨hle, hlt⟩
    exact Int.bmod_eq_of_le (by norm_num; omega) (by norm_num; omega)

/-- What `%d` prints of a number that is not negative. -/
def decimal (n : ℕ) : Text := (Nat.toDigits 10 n).map Char.toUInt8

example : atoi (bytes " -15x") = -15 := by decide

example : decimal 307 = bytes "307" := by decide

example : bytes "bip?" = [98, 105, 112, 63] := rfl

end Hearthbeat
