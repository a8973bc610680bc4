import Hearthbeat.CJson.Parse

/-!
The parser of `cJSON.c` on any text: it stays inside the text and its NUL and inside the
blocks that it has allocated, and it ends.

* `scan_marks`: what `scan` counts. The bytes that it skips are marked, and behind each of
  them is one that is not (`Sparse`).
* `decode_meets`: the copy of a string fits the block that was measured so, although
  `decode` may read a literal of 6 or 12 bytes where `scan` has seen other escapes.
* `depth_parse`: what is parsed is nested at most 1000 deep.
* `parse_safe`: no text makes `cJSON_Parse` access memory out of bounds, or nest deeper.
-/

namespace Hearthbeat.CJson

/-! ### What `scan` counts -/

/-- Behind every marked byte is one that is not marked. -/
inductive Sparse : List Bool → Prop
  | nil : Sparse []
  | skip {ms : List Bool} (h : Sparse ms) : Sparse (false :: ms)
  | mark {ms : List Bool} (h : Sparse ms) : Sparse (true :: false :: ms)

namespace Sparse

variable {ms : List Bool}

lemma tail {m : Bool} (h : Sparse (m :: ms)) : Sparse ms := by
  cases h with
  | skip h => exact h
  | mark h => exact h.skip

lemma drop (h : Sparse ms) (n : ℕ) : Sparse (ms.drop n) := by
  induction n generalizing ms with
  | zero => exact h
  | succ n ih =>
      cases ms with
      | nil => exact h
      | cons m ms => exact ih h.tail

/-- At most every second byte is marked. -/
lemma two_mul_count (h : Sparse ms) {n : ℕ} (hn : 2 * n ≤ ms.length) :
    (ms.drop (2 * n)).count false + n ≤ ms.count false := by
  induction n generalizing ms with
  | zero => simp
  | succ n ih =>
      cases h with
      | nil => simp at hn
      | @skip ms h =>
          cases ms with
          | nil =>
              simp only [List.length_cons, List.length_nil] at hn
              omega
          | cons m ms =>
              have hrest := ih h.tail (by simp only [List.length_cons] at hn; omega)
              have hle : ms.count false ≤ (m :: ms).count false := List.count_le_count_cons ..
              rw [List.count_cons_self, Nat.mul_succ, List.drop_succ_cons, List.drop_succ_cons]
              omega
      | @mark ms h =>
          have hrest := ih h (by simp only [List.length_cons] at hn; omega)
          rw [List.count_cons_of_ne (by decide), List.count_cons_self, Nat.mul_succ,
            List.drop_succ_cons, List.drop_succ_cons]
          omega

end Sparse

/-- The marks of the bytes that `scan` skips: backslashes, as many as it says. -/
lemma scan_marks {s : List Byte} {n skipped : ℕ} (h : scan s = some (n, skipped)) :
    ∃ ms : List Bool, Sparse ms ∧ ms.length = n ∧ ms.count false + skipped = n ∧
      (∀ i : ℕ, ms[i]? = some true → s[i]? = some backslash) ∧ s[n]? = some quote := by
  induction s using scan.induct generalizing n skipped with
  | case1 => cases h
  | case2 s =>
      obtain ⟨rfl, rfl⟩ := Prod.mk.inj (Option.some.inj ((scan_quote s).symm.trans h))
      exact ⟨[], .nil, rfl, rfl, by simp, rfl⟩
  | case3 => cases h
  | case4 b s hb ih =>
      rw [scan_escape] at h
      obtain ⟨⟨n', skipped'⟩, hrest, heq⟩ := Option.map_eq_some_iff.mp h
      obtain ⟨rfl, rfl⟩ := Prod.mk.inj heq
      obtain ⟨ms, hsparse, hlength, hcount, hmarks, hquote⟩ := ih hrest
      refine ⟨true :: false :: ms, hsparse.mark, by simp [hlength], ?_, fun i hi => ?_, hquote⟩
      · rw [List.count_cons_of_ne (by decide), List.count_cons_self]
        omega
      · match i, hi with
        | 0, _ => rfl
        | 1, hi => simp at hi
        | i + 2, hi => exact hmarks i (by simpa using hi)
  | case5 b s hquote hslash ih =>
      rw [scan_plain s hquote hslash] at h
      obtain ⟨⟨n', skipped'⟩, hrest, heq⟩ := Option.map_eq_some_iff.mp h
      obtain ⟨rfl, rfl⟩ := Prod.mk.inj heq
      obtain ⟨ms, hsparse, hlength, hcount, hmarks, hend⟩ := ih hrest
      refine ⟨false :: ms, hsparse.skip, by simp [hlength], ?_, fun i hi => ?_, hend⟩
      · rw [List.count_cons_self]
        omega
      · match i, hi with
        | 0, hi => simp at hi
        | i + 1, hi => exact hmarks i (by simpa using hi)

/-! ### The copy of a string -/

section Decode

variable {content : List Byte} {i stop : ℕ}

lemma hexValue_lt {b : Byte} {d : ℕ} (h : hexValue b = some d) : d < 16 := by
  simp only [hexValue, UInt8.le_iff_toNat_le] at h
  split_ifs at h with h₁ h₂ h₃ <;> obtain rfl := Option.some.inj h
  · have hle : b.toNat ≤ 57 := h₁.2
    omega
  · have hle : b.toNat ≤ 70 := h₂.2
    omega
  · have hle : b.toNat ≤ 102 := h₃.2
    omega

lemma parseHex_meets {k h : ℕ} {s : List Byte} (hk : k ≤ s.length) :
    (parseHex k h s).Meets fun v => v < (h + 1) * 16 ^ k := by
  induction k generalizing h s with
  | zero => simp [parseHex]
  | succ k ih =>
      cases s with
      | nil => simp at hk
      | cons b s =>
          rw [parseHex]
          cases hd : hexValue b with
          | none => simp
          | some d =>
              have hlt : d < 16 := hexValue_lt hd
              refine (ih (h := h * 16 + d) (by simpa using hk)).imp fun v hv => ?_
              calc v < (h * 16 + d + 1) * 16 ^ k := hv
                _ ≤ ((h + 1) * 16) * 16 ^ k := Nat.mul_le_mul_right _ (by omega)
                _ = (h + 1) * 16 ^ (k + 1) := by rw [pow_succ]; ring

lemma parseHex4_meets (hi : i + 4 ≤ content.length) :
    (parseHex4 content i).Meets fun v => v < 0x10000 := by
  have hlength : 4 ≤ (content.drop i).length := by rw [List.length_drop]; omega
  exact (parseHex_meets (h := 0) hlength).imp fun v hv => by norm_num at hv ⊢; exact hv

lemma length_continuation (k codepoint : ℕ) (tail : List Byte) :
    (continuation k codepoint tail).2.length = k + tail.length := by
  induction k generalizing codepoint tail with
  | zero => simp [continuation]
  | succ k ih =>
      rw [continuation, ih, List.length_cons]
      omega

lemma length_encode (k mark codepoint : ℕ) : (utf8.encode codepoint k mark).length = k + 1 := by
  simp [utf8.encode, length_continuation]

lemma length_utf8 {codepoint : ℕ} {x : List Byte} (h : utf8 codepoint = some x) :
    x.length ≤ 4 ∧ (codepoint < 0x10000 → x.length ≤ 3) := by
  rw [utf8] at h
  split_ifs at h with h₁ h₂ h₃ h₄ <;> cases h
  · exact ⟨by simp, fun _ => by simp⟩
  · rw [length_encode]; omega
  · rw [length_encode]; omega
  · rw [length_encode]; omega

/-- A literal ends before the string, and is at least twice as long as its bytes. -/
lemma utf16_meets (hstop : stop ≤ content.length) :
    (utf16LiteralToUtf8 content i stop).Meets fun r =>
      i + r.2 ≤ stop ∧ ∃ k, r.2 = 2 * k ∧ 0 < k ∧ r.1.length ≤ k := by
  rw [utf16LiteralToUtf8]
  by_cases hsix : stop < i + 6
  · rw [if_pos hsix]
    trivial
  rw [if_neg hsix]
  refine (parseHex4_meets (by omega)).bind fun first hfirst => ?_
  by_cases hlow : 0xDC00 ≤ first ∧ first ≤ 0xDFFF
  · rw [if_pos hlow]
    trivial
  rw [if_neg hlow]
  by_cases hhigh : 0xD800 ≤ first ∧ first ≤ 0xDBFF
  · rw [if_pos hhigh]
    by_cases htwelve : stop < i + 12
    · rw [if_pos htwelve]
      trivial
    rw [if_neg htwelve]
    have h₆ : content[i + 6]? = some (content.get ⟨i + 6, by omega⟩) :=
      List.getElem?_eq_getElem _
    have h₇ : content[i + 7]? = some (content.get ⟨i + 7, by omega⟩) :=
      List.getElem?_eq_getElem _
    rw [h₆, h₇]
    simp only [Access.read_some, Access.ok_bind]
    split_ifs with hslash hu
    · trivial
    · trivial
    refine (parseHex4_meets (by omega)).bind fun second hsecond => ?_
    split_ifs with hinvalid
    · trivial
    · split
      · trivial
      · rename_i x hx
        exact ⟨by omega, 6, rfl, by omega, (length_utf8 hx).1.trans (by omega)⟩
  · rw [if_neg hhigh]
    split
    · trivial
    · rename_i x hx
      exact ⟨by omega, 3, rfl, by omega, (length_utf8 hx).2 hfirst⟩

/-- Every step of the copy moves on, and stores no more than it passes of what is not
marked. -/
lemma decodeOne_meets {ms : List Bool} (hsparse : Sparse ms) (hlength : i + ms.length = stop)
    (hmarks : ms.head? = some true → content[i]? = some backslash) (hi : i < stop)
    (hstop : stop < content.length) :
    (decodeOne content i stop).Meets fun r =>
      0 < r.2 ∧ r.2 ≤ ms.length + 1 ∧ r.1.length + (ms.drop r.2).count false ≤ ms.count false := by
  obtain ⟨m, ms, rfl⟩ : ∃ m ms', ms = m :: ms' := by
    cases ms with
    | nil => simp at hlength; omega
    | cons m ms => exact ⟨m, ms, rfl⟩
  rw [decodeOne, List.getElem?_eq_getElem (by omega : i < content.length), Access.read_some,
    Access.ok_bind]
  by_cases hslash : content[i] = backslash
  · rw [if_neg (not_not.mpr hslash),
      List.getElem?_eq_getElem (by omega : i + 1 < content.length), Access.read_some, Access.ok_bind]
    cases hunescape : unescape content[i + 1] with
    | some x =>
        refine ⟨by omega, by simp, ?_⟩
        -- the last byte is not marked
        cases hsparse with
        | @skip ms h =>
            have hle : (ms.drop 1).count false ≤ ms.count false := (List.drop_sublist 1 ms).count_le _
            rw [List.count_cons_self, List.drop_succ_cons]
            simp only [List.length_singleton]
            omega
        | @mark ms h =>
            rw [List.count_cons_of_ne (by decide), List.count_cons_self]
            simp only [List.length_singleton, List.drop_succ_cons, List.drop_zero]
            omega
    | none =>
        simp only
        split_ifs
        · refine (utf16_meets hstop.le).imp fun r hr => ?_
          obtain ⟨hend, k, hk, hpos, hle⟩ := hr
          have hcount := hsparse.two_mul_count (n := k) (by omega)
          rw [← hk] at hcount
          exact ⟨by omega, by omega, by omega⟩
        · trivial
  · rw [if_pos hslash]
    have hm : m = false := by
      cases m with
      | false => rfl
      | true =>
          have hback := hmarks rfl
          rw [List.getElem?_eq_getElem (by omega : i < content.length)] at hback
          exact absurd (Option.some.inj hback) hslash
    subst hm
    refine ⟨by omega, by simp, ?_⟩
    rw [List.count_cons_self]
    simp only [List.length_singleton, List.drop_succ_cons, List.drop_zero]
    omega

/-- The copy fits a block with room for what is not marked, and for the NUL. -/
lemma decode_meets {ms : List Bool} {size fuel : ℕ} {out : List Byte} (hsparse : Sparse ms)
    (hmarks : ∀ k : ℕ, ms[k]? = some true → content[i + k]? = some backslash)
    (hlength : i + ms.length = stop ∨ i = stop + 1 ∧ ms = []) (hstop : stop < content.length)
    (hfuel : ms.length < fuel) (hsize : out.length + ms.count false < size) :
    (decode content stop size fuel i out).Meets fun _ => True := by
  induction fuel generalizing ms i out with
  | zero => omega
  | succ fuel ih =>
      rw [decode]
      by_cases hi : i < stop
      · rw [if_pos hi]
        have hlength : i + ms.length = stop := by omega
        have hhead : ms.head? = some true → content[i]? = some backslash := fun h =>
          hmarks 0 (by rwa [← List.head?_eq_getElem?])
        refine (decodeOne_meets hsparse hlength hhead hi hstop).bind fun r hr => ?_
        obtain ⟨x, n⟩ := r
        obtain ⟨hpos, hle, hcount⟩ := hr
        simp only at hpos hle hcount ⊢
        rw [if_pos (by omega)]
        refine ih (hsparse.drop n) (fun k hk => ?_) ?_ ?_ ?_
        · rw [List.getElem?_drop] at hk
          rw [add_assoc]
          exact hmarks (n + k) hk
        · rw [List.length_drop]
          rcases Nat.lt_or_ge ms.length n with hlt | hge
          · exact .inr ⟨by omega, List.drop_eq_nil_of_le hlt.le⟩
          · exact .inl (by omega)
        · rw [List.length_drop]
          omega
        · rw [List.length_append]
          omega
      · rw [if_neg hi, if_pos (by omega)]
        trivial

end Decode

/-! ### Values -/

/-- A buffer that ends with a NUL. -/
def Ended (content : List Byte) : Prop := content.getLast? = some 0

/-- A function of the parser moves the offset on, and stays in front of the end. -/
def Advances {α : Type} (content : List Byte) (f : ℕ → Access (α × ℕ)) : Prop :=
  ∀ o < content.length, (f o).Meets fun r => o < r.2 ∧ r.2 < content.length

section Values

variable {D : Type} {F : Floats D} {content : List Byte} {o : ℕ}

/-- A byte that is not NUL is not the last. -/
lemma Ended.lt (h : Ended content) {b : Byte} (hb : content[o]? = some b) (hne : b ≠ 0) :
    o + 1 < content.length := by
  have hlt := (List.getElem?_eq_some_iff.mp hb).1
  by_contra hge
  have ho : o = content.length - 1 := by omega
  rw [Ended, List.getLast?_eq_getElem?, ← ho, hb] at h
  exact hne (Option.some.inj h)

/-- What stands at an offset without a NUL ends before the NUL. -/
lemma Ended.lt_of_stands (h : Ended content) {l : List Byte} (hl : l <+: content.drop o)
    (hnul : 0 ∉ l) (ho : o < content.length) : o + l.length < content.length := by
  cases l using List.reverseRecOn with
  | nil => simpa using ho
  | append_singleton l b =>
      obtain ⟨rest, hrest⟩ := hl
      have hb : content[o + l.length]? = some b := by
        rw [← List.getElem?_drop, ← hrest]
        simp
      have hlt := h.lt hb fun heq => hnul (by simp [heq])
      rw [List.length_append, List.length_singleton]
      omega

lemma skipWhitespace_lt (ho : o ≤ content.length) (hpos : 0 < content.length) :
    skipWhitespace content o < content.length := by
  have hle := (List.takeWhile_sublist (fun b : Byte => decide (b ≤ 32))
    (l := content.drop o)).length_le
  rw [List.length_drop] at hle
  simp only [skipWhitespace]
  split_ifs <;> omega

lemma le_skipWhitespace (ho : o < content.length) : o ≤ skipWhitespace content o := by
  simp only [skipWhitespace]
  split_ifs <;> omega

lemma standsAt_spec {literal : Text} (h : standsAt content o literal = true) :
    literal <+: content.drop o := by
  rw [standsAt, Bool.and_eq_true, beq_iff_eq] at h
  rw [← h.2]
  exact List.take_prefix _ _

lemma parseNumber_advances (hF : F.Bounded) (h : Ended content) :
    Advances content (parseNumber F content) := by
  intro o ho
  rw [parseNumber]
  cases hread : F.strtod (numberText content o) with
  | none => trivial
  | some r =>
      obtain ⟨d, n⟩ := r
      obtain ⟨hpos, hle⟩ := hF _ d n hread
      have hprefix : numberText content o <+: content.drop o :=
        (List.takeWhile_prefix _).trans (List.take_prefix _ _)
      have hnul : 0 ∉ numberText content o := fun hmem => by
        have hbyte := List.mem_takeWhile_imp hmem
        revert hbyte
        decide
      have hlt := h.lt_of_stands hprefix hnul ho
      exact ⟨by omega, by omega⟩

lemma parseString_advances (h : Ended content) : Advances content (parseString content) := by
  intro o ho
  rw [parseString, List.getElem?_eq_getElem ho, Access.read_some, Access.ok_bind]
  split_ifs with hquote
  · trivial
  cases hscan : scan (content.drop (o + 1)) with
  | none => trivial
  | some r =>
      obtain ⟨n, skipped⟩ := r
      obtain ⟨ms, hsparse, hlength, hcount, hmarks, hend⟩ := scan_marks hscan
      rw [List.getElem?_drop] at hend
      have hlt := h.lt hend (by decide)
      have hdecode : (decode content (o + 1 + n) (n + 1 - skipped + 1) (n + 1) (o + 1) []).Meets
          fun _ => True := by
        refine decode_meets hsparse (fun k hk => ?_) (.inl (by omega)) (by omega) (by omega) ?_
        · rw [← List.getElem?_drop]
          exact hmarks k hk
        · rw [List.length_nil]
          omega
      exact hdecode.bind fun out _ => ⟨by simp only; omega, hlt⟩

/-- The white space behind a byte. -/
lemma skipWhitespace_next (ho : o < content.length) :
    o ≤ skipWhitespace content (o + 1) ∧ skipWhitespace content (o + 1) < content.length := by
  refine ⟨?_, skipWhitespace_lt (by omega) (by omega)⟩
  rcases Nat.lt_or_ge (o + 1) content.length with hlt | hge
  · exact (Nat.le_succ o).trans (le_skipWhitespace hlt)
  · have hnil : content.drop (o + 1) = [] := List.drop_eq_nil_of_le hge
    simp only [skipWhitespace, hnil, List.takeWhile_nil, List.length_nil]
    split_ifs <;> omega

variable {value : ℕ → Access (Item D × ℕ)}

/-- A value between white space. -/
lemma Advances.between {α : Type} {f : ℕ → Access (α × ℕ)} (hf : Advances content f)
    (ho : o < content.length) : (f (skipWhitespace content (o + 1))).Meets fun r =>
      o < skipWhitespace content r.2 ∧ skipWhitespace content r.2 < content.length := by
  obtain ⟨hle, hlt⟩ := skipWhitespace_next ho
  refine (hf _ hlt).imp fun r hr => ?_
  obtain ⟨hmore, hless⟩ := hr
  exact ⟨by have := le_skipWhitespace hless; omega, skipWhitespace_lt hless.le (by omega)⟩

/-- The loop of an array ends, since every element moves the offset on. -/
lemma parseElements_meets (h : Ended content) (hvalue : Advances content value) {fuel : ℕ}
    (ho : o < content.length) (hfuel : content.length - o ≤ fuel) :
    (parseElements content value fuel o).Meets fun r => o < r.2 ∧ r.2 < content.length := by
  induction fuel generalizing o with
  | zero => omega
  | succ fuel ih =>
      rw [parseElements]
      refine (hvalue.between ho).bind fun r hr => ?_
      obtain ⟨x, o₁⟩ := r
      obtain ⟨hmore, hless⟩ := hr
      simp only at hmore hless ⊢
      split_ifs with hcomma hclose
      · refine (ih hless (by omega)).bind fun r hr => ?_
        exact ⟨hmore.trans hr.1, hr.2⟩
      · exact ⟨by omega, h.lt hclose (by decide)⟩
      · trivial

lemma parseArray_meets (h : Ended content) (hvalue : Advances content value)
    (ho : o + 1 < content.length) :
    (parseArray content value o).Meets fun r => o < r.2 ∧ r.2 < content.length := by
  have hle := le_skipWhitespace ho
  have hlt : skipWhitespace content (o + 1) < content.length :=
    skipWhitespace_lt (by omega) (by omega)
  rw [parseArray]
  generalize skipWhitespace content (o + 1) = o₁ at hle hlt
  rw [List.getElem?_eq_getElem hlt]
  simp only
  split_ifs with hclose
  · exact ⟨by simp only; omega, h.lt (List.getElem?_eq_getElem hlt) (by rw [hclose]; decide)⟩
  · refine (parseElements_meets h hvalue (by omega) (by omega)).bind fun r hr => ?_
    exact ⟨by have := hr.1; simp only; omega, hr.2⟩

lemma parseMembers_meets (h : Ended content) (hvalue : Advances content value) {fuel : ℕ}
    (ho : o < content.length) (hfuel : content.length - o ≤ fuel) :
    (parseMembers content value fuel o).Meets fun r => o < r.2 ∧ r.2 < content.length := by
  induction fuel generalizing o with
  | zero => omega
  | succ fuel ih =>
      rw [parseMembers]
      refine ((parseString_advances h).between ho).bind fun r hr => ?_
      obtain ⟨s, o₁⟩ := r
      obtain ⟨hmore₁, hless₁⟩ := hr
      simp only at hmore₁ hless₁ ⊢
      split_ifs
      · trivial
      refine (hvalue.between hless₁).bind fun r hr => ?_
      obtain ⟨x, o₂⟩ := r
      obtain ⟨hmore₂, hless₂⟩ := hr
      simp only at hmore₂ hless₂ ⊢
      split_ifs with hcomma hclose
      · refine (ih hless₂ (by omega)).bind fun r hr => ?_
        exact ⟨by have := hr.1; simp only; omega, hr.2⟩
      · exact ⟨by simp only; omega, h.lt hclose (by decide)⟩
      · trivial

lemma parseObject_meets (h : Ended content) (hvalue : Advances content value)
    (ho : o + 1 < content.length) :
    (parseObject content value o).Meets fun r => o < r.2 ∧ r.2 < content.length := by
  have hle := le_skipWhitespace ho
  have hlt : skipWhitespace content (o + 1) < content.length :=
    skipWhitespace_lt (by omega) (by omega)
  rw [parseObject]
  generalize skipWhitespace content (o + 1) = o₁ at hle hlt
  rw [List.getElem?_eq_getElem hlt]
  simp only
  split_ifs with hclose
  · exact ⟨by simp only; omega, h.lt (List.getElem?_eq_getElem hlt) (by rw [hclose]; decide)⟩
  · refine (parseMembers_meets h hvalue (by omega) (by omega)).bind fun r hr => ?_
    exact ⟨by have := hr.1; simp only; omega, hr.2⟩

/-- A value moves the offset on, if those nested in it do. -/
lemma parseValue_meets (hF : F.Bounded) (h : Ended content) {left : ℕ}
    (hnested : ∀ l, left = l + 1 → Advances content (parseValue F content l)) :
    Advances content (parseValue F content left) := by
  intro o ho
  have hliteral : ∀ {literal : Text}, standsAt content o literal = true → 0 ∉ literal →
      o + literal.length < content.length := fun hstands hnul =>
    h.lt_of_stands (standsAt_spec hstands) hnul ho
  rw [parseValue]
  split_ifs with hnull hfalse htrue
  · exact ⟨by simp only; omega, hliteral hnull (by decide)⟩
  · exact ⟨by simp only; omega, hliteral hfalse (by decide)⟩
  · exact ⟨by simp only; omega, hliteral htrue (by decide)⟩
  rw [List.getElem?_eq_getElem ho]
  simp only
  by_cases hquote : content[o] = quote
  · rw [if_pos hquote]
    exact (parseString_advances h o ho).bind fun r hr => hr
  rw [if_neg hquote]
  by_cases hnumber : content[o] = byte '-' ∨ isDigit content[o] = true
  · rw [if_pos hnumber]
    exact parseNumber_advances hF h o ho
  rw [if_neg hnumber]
  cases left with
  | zero => trivial
  | succ left =>
      have hvalue := hnested left rfl
      have hnext : ∀ {b : Byte}, content[o] = b → b ≠ 0 → o + 1 < content.length := fun hb hne =>
        h.lt (List.getElem?_eq_getElem ho) (hb ▸ hne)
      simp only
      split_ifs with hbracket hbrace
      · exact parseArray_meets h hvalue (hnext hbracket (by decide))
      · exact parseObject_meets h hvalue (hnext hbrace (by decide))
      · trivial

/-- However deep it may be nested, a value moves the offset on. -/
lemma parseValue_advances (hF : F.Bounded) (h : Ended content) (left : ℕ) :
    Advances content (parseValue F content left) := by
  induction left with
  | zero => exact parseValue_meets hF h fun l hl => absurd hl (Nat.succ_ne_zero l).symm
  | succ left ih => exact parseValue_meets hF h fun l hl => Nat.succ.inj hl ▸ ih

end Values

/-! ### Nesting -/

section Nesting

variable {D : Type} {F : Floats D} {content : List Byte} {left : ℕ}

section Loops

variable {value : ℕ → Access (Item D × ℕ)} (hvalue : ∀ {o x o'}, value o = .ok (x, o') → x.depth ≤ left)
include hvalue

lemma depth_parseElements {fuel o o' : ℕ} {xs : Elements D}
    (h : parseElements content value fuel o = .ok (xs, o')) : xs.depth ≤ left := by
  induction fuel generalizing o o' xs with
  | zero => cases h
  | succ fuel ih =>
      rw [parseElements] at h
      obtain ⟨⟨x, o₁⟩, hx, h⟩ := Access.bind_eq_ok.mp h
      simp only at h
      split_ifs at h
      · obtain ⟨⟨next, o₂⟩, hnext, h⟩ := Access.bind_eq_ok.mp h
        cases h
        exact max_le (hvalue hx) (ih hnext)
      · cases h
        exact max_le (hvalue hx) (Nat.zero_le left)

lemma depth_parseMembers {fuel o o' : ℕ} {xs : Members D}
    (h : parseMembers content value fuel o = .ok (xs, o')) : xs.depth ≤ left := by
  induction fuel generalizing o o' xs with
  | zero => cases h
  | succ fuel ih =>
      rw [parseMembers] at h
      obtain ⟨⟨s, o₁⟩, -, h⟩ := Access.bind_eq_ok.mp h
      simp only at h
      split_ifs at h
      obtain ⟨⟨x, o₂⟩, hx, h⟩ := Access.bind_eq_ok.mp h
      simp only at h
      split_ifs at h
      · obtain ⟨⟨next, o₃⟩, hnext, h⟩ := Access.bind_eq_ok.mp h
        cases h
        exact max_le (hvalue hx) (ih hnext)
      · cases h
        exact max_le (hvalue hx) (Nat.zero_le left)

end Loops

/-- A value is no array and no object, or what is in it may be nested less deep. -/
lemma parseValue_cases {o o' : ℕ} {x : Item D} (h : parseValue F content left o = .ok (x, o')) :
    x.depth = 0 ∨ ∃ l, left = l + 1 ∧ (parseArray content (parseValue F content l) o = .ok (x, o') ∨
      parseObject content (parseValue F content l) o = .ok (x, o')) := by
  rw [parseValue] at h
  split_ifs at h
  · cases h
    exact .inl rfl
  · cases h
    exact .inl rfl
  · cases h
    exact .inl rfl
  cases hb : content[o]? with
  | none =>
      rw [hb] at h
      cases h
  | some b =>
      rw [hb] at h
      simp only at h
      by_cases hquote : b = quote
      · rw [if_pos hquote] at h
        obtain ⟨⟨s, o₁⟩, -, h⟩ := Access.bind_eq_ok.mp h
        cases h
        exact .inl rfl
      rw [if_neg hquote] at h
      by_cases hnumber : b = byte '-' ∨ isDigit b = true
      · rw [if_pos hnumber, parseNumber] at h
        split at h <;> cases h
        exact .inl rfl
      rw [if_neg hnumber] at h
      cases left with
      | zero => cases h
      | succ l =>
          simp only at h
          split_ifs at h
          · exact .inr ⟨l, rfl, .inl h⟩
          · exact .inr ⟨l, rfl, .inr h⟩

/-- What is parsed is not nested deeper than allowed. -/
lemma depth_parseValue {o o' : ℕ} {x : Item D} (h : parseValue F content left o = .ok (x, o')) :
    x.depth ≤ left := by
  induction left generalizing o o' x with
  | zero =>
      rcases parseValue_cases h with hx | ⟨l, hl, -⟩
      · exact hx.le
      · cases hl
  | succ left ih =>
      rcases parseValue_cases h with hx | ⟨l, hl, harray | hobject⟩
      · exact hx.le.trans (Nat.zero_le _)
      · obtain rfl := Nat.succ.inj hl
        rw [parseArray] at harray
        simp only at harray
        split at harray
        · cases harray
        split_ifs at harray
        · cases harray
          exact Nat.succ_le_succ (Nat.zero_le left)
        · obtain ⟨⟨child, o₁⟩, hchild, hx⟩ := Access.bind_eq_ok.mp harray
          cases hx
          exact Nat.succ_le_succ (depth_parseElements ih hchild)
      · obtain rfl := Nat.succ.inj hl
        rw [parseObject] at hobject
        simp only at hobject
        split at hobject
        · cases hobject
        split_ifs at hobject
        · cases hobject
          exact Nat.succ_le_succ (Nat.zero_le left)
        · obtain ⟨⟨child, o₁⟩, hchild, hx⟩ := Access.bind_eq_ok.mp hobject
          cases hx
          exact Nat.succ_le_succ (depth_parseMembers ih hchild)

lemma depth_parse {text : Text} {x : Item D} (h : parse F text = .ok x) : x.depth ≤ 1000 := by
  rw [parse] at h
  obtain ⟨⟨x', o⟩, hvalue, h⟩ := Access.bind_eq_ok.mp h
  cases h
  exact depth_parseValue hvalue

end Nesting

section Parse

variable {D : Type} {F : Floats D} (hF : F.Bounded) (text : Text)
include hF

lemma parse_meets : (parse F text).Meets fun _ => True := by
  have hended : Ended (text ++ [0]) := List.getLast?_concat
  have hbom : skipUtf8Bom (text ++ [0]) ≤ (text ++ [0]).length := by
    rw [skipUtf8Bom]
    split_ifs <;> omega
  have hpos : 0 < (text ++ [0]).length := by simp
  have hvalue := parseValue_advances hF hended nestingLimit _ (skipWhitespace_lt hbom hpos)
  exact hvalue.bind fun _ _ => trivial

/-- Whatever the text, `cJSON_Parse` ends, accesses only the text with its NUL and the
blocks that it has allocated, and returns an item that is nested at most 1000 deep, or
nothing. -/
theorem parse_safe : parse F text ≠ .fault ∧ ∀ x, parse F text = .ok x → x.depth ≤ 1000 :=
  ⟨(parse_meets hF text).ne_fault, fun _ => depth_parse⟩

end Parse

/-- A string with a surrogate pair, which is copied as four bytes. -/
theorem parse_safe_surrogate : parse integers (bytes "[\"\\ud83d\\ude00\"]") ≠ .fault ∧
    ∀ x, parse integers (bytes "[\"\\ud83d\\ude00\"]") = .ok x → x.depth ≤ 1000 :=
  parse_safe integers_bounded _

end Hearthbeat.CJson
