import Hearthbeat.Text.Bytes

/-!
Numbers in decimal notation, and what `atoi` makes of them.

* `signedDecimal`: the text of an integer, with a minus sign where it is negative.
* `atoi_signedDecimal`: `atoi` reads the integer modulo `2 ^ 32`, as long as it fits the
  `long` of `strtol`; `atoi_signedDecimal_iff`: it reads the integer itself exactly if this
  is an `int`.
-/

namespace Hearthbeat

/-- The decimal text of an integer. -/
def signedDecimal (n : ℤ) : Text :=
  if n < 0 then byte '-' :: decimal n.natAbs else decimal n.natAbs

section Digits

variable (n : ℕ)

/-- A digit as a byte. -/
lemma toUInt8_of_mem {c : Char} (hc : c ∈ Nat.toDigits 10 n) :
    c.toUInt8.toNat = c.toNat ∧ 48 ≤ c.toNat ∧ c.toNat ≤ 57 := by
  have hdigit := Nat.isDigit_of_mem_toDigits (by norm_num) (by norm_num) hc
  obtain ⟨hle, hge⟩ : 48 ≤ c.toNat ∧ c.toNat ≤ 57 := Char.isDigit_iff_toNat.mp hdigit
  exact ⟨Nat.mod_eq_of_lt (show c.toNat < 256 by omega), hle, hge⟩

/-- The bytes of a decimal text. -/
lemma mem_decimal {b : Byte} (hb : b ∈ decimal n) : isDigit b = true := by
  obtain ⟨c, hc, rfl⟩ := List.mem_map.mp hb
  obtain ⟨hbyte, hle, hge⟩ := toUInt8_of_mem n hc
  simp only [isDigit, Bool.and_eq_true, decide_eq_true_eq, UInt8.le_iff_toNat_le, hbyte]
  exact ⟨hle, hge⟩

lemma decimal_ne_nil : decimal n ≠ [] := by
  rw [decimal, Ne, List.map_eq_nil_iff]
  exact Nat.toDigits_ne_nil

/-- The digits of a number write it. -/
lemma digitsValue_decimal : digitsValue (decimal n) = n := by
  have hfold : ∀ (l : List Char) (v : ℕ), (∀ c ∈ l, c.toUInt8.toNat = c.toNat) →
      (l.map Char.toUInt8).foldl (fun v b => 10 * v + (b.toNat - 48)) v
        = Nat.ofDigitChars 10 l v := by
    intro l
    induction l with
    | nil => exact fun v _ => by rw [Nat.ofDigitChars_nil]; rfl
    | cons c l ih =>
        intro v hl
        obtain ⟨hc, hrest⟩ := List.forall_mem_cons.mp hl
        rw [List.map_cons, List.foldl_cons, ih _ hrest, Nat.ofDigitChars_cons, hc]
        rfl
  calc digitsValue (decimal n)
      = Nat.ofDigitChars 10 (Nat.toDigits 10 n) 0 :=
        hfold _ 0 fun c hc => (toUInt8_of_mem n hc).1
    _ = n := Nat.ofDigitChars_ten_toDigits

lemma decimal_injective : Function.Injective decimal :=
  Function.LeftInverse.injective digitsValue_decimal

/-- Nothing follows the digits. -/
lemma digitsValue_takeWhile : digitsValue ((decimal n).takeWhile isDigit) = n := by
  rw [List.takeWhile_eq_self_iff.mpr fun b hb => mem_decimal n hb, digitsValue_decimal]

end Digits

section Signed

variable (n : ℤ)

lemma not_isSpace_of_isDigit {b : Byte} (h : isDigit b = true) : isSpace b = false := by
  simp only [isDigit, isSpace, Bool.and_eq_true, Bool.or_eq_false_iff, Bool.and_eq_false_iff,
    decide_eq_true_eq, decide_eq_false_iff_not, beq_eq_false_iff_ne, UInt8.le_iff_toNat_le] at *
  obtain ⟨hle, -⟩ := h
  have hle' : 48 ≤ b.toNat := hle
  refine ⟨fun heq => ?_, .inr ?_⟩
  · rw [heq] at hle'
    revert hle'
    decide
  · show ¬ b.toNat ≤ 13
    omega

/-- The text begins with a digit or with the sign, not with white space. -/
lemma dropWhile_signedDecimal : (signedDecimal n).dropWhile isSpace = signedDecimal n := by
  have hhead : ∀ b ∈ (signedDecimal n).head?, isSpace b = false := by
    intro b hb
    rw [signedDecimal] at hb
    split_ifs at hb with hneg
    · obtain rfl := Option.some.inj hb
      decide
    · exact not_isSpace_of_isDigit (mem_decimal _ (List.mem_of_mem_head? hb))
  cases hs : signedDecimal n with
  | nil => rfl
  | cons b s =>
      rw [hs] at hhead
      exact List.dropWhile_cons_of_neg (by simp [hhead b rfl])

lemma mem_signedDecimal {b : Byte} (hb : b ∈ signedDecimal n) :
    b = byte '-' ∨ isDigit b = true := by
  rw [signedDecimal] at hb
  split_ifs at hb with hneg
  · rcases List.mem_cons.mp hb with rfl | hb
    · exact .inl rfl
    · exact .inr (mem_decimal _ hb)
  · exact .inr (mem_decimal _ hb)

/-- A number with at most `k` digits. -/
lemma length_signedDecimal {k : ℕ} (hk : 0 < k) (hlt : n.natAbs < 10 ^ k) :
    (signedDecimal n).length ≤ k + 1 := by
  have hdigits : (decimal n.natAbs).length ≤ k := by
    rw [decimal, List.length_map]
    exact (Nat.length_toDigits_le_iff (by norm_num) hk).mpr hlt
  rw [signedDecimal]
  split_ifs
  · rw [List.length_cons]
    omega
  · omega

lemma signedValue_signedDecimal : signedValue (signedDecimal n) = n := by
  rw [signedDecimal]
  split_ifs with hneg
  · rw [signedValue, if_pos rfl, digitsValue_takeWhile]
    omega
  · obtain ⟨b, s, hs⟩ := List.exists_cons_of_ne_nil (decimal_ne_nil n.natAbs)
    have hdigit : isDigit b = true := mem_decimal n.natAbs (by rw [hs]; exact List.mem_cons_self)
    have hminus : b ≠ byte '-' := fun h => by rw [h] at hdigit; revert hdigit; decide
    have hplus : b ≠ byte '+' := fun h => by rw [h] at hdigit; revert hdigit; decide
    rw [hs, signedValue, if_neg hminus, if_neg hplus, ← hs, digitsValue_takeWhile]
    omega

variable {n}

/-- What `atoi` reads. -/
theorem atoi_signedDecimal (hlow : -2 ^ 63 ≤ n) (hhigh : n < 2 ^ 63) :
    atoi (signedDecimal n) = n.bmod (2 ^ 32) := by
  rw [atoi, strtol, dropWhile_signedDecimal, signedValue_signedDecimal]
  congr 1
  omega

/-- It is the number that was written exactly if this is an `int`. -/
theorem atoi_signedDecimal_iff (hlow : -2 ^ 63 ≤ n) (hhigh : n < 2 ^ 63) :
    atoi (signedDecimal n) = n ↔ -2 ^ 31 ≤ n ∧ n < 2 ^ 31 := by
  rw [atoi_signedDecimal hlow hhigh]
  exact bmod_eq_self_iff n

end Signed

example : signedDecimal (-15) = bytes "-15" := by decide

end Hearthbeat
