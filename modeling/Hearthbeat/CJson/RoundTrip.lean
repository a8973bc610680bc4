import Hearthbeat.CJson.Print
import Hearthbeat.CJson.Safe

/-!
The parser of `cJSON.c` on what its printer makes.

* `escape_cases`: the three forms in which a byte of a string is printed.
* `parseString_render`, `parseNumber_render`: strings and numbers are read back.
* `Item.Reads`: where the text of an item stands, the parser reads what is kept of it and
  stops behind it, or fails because it is nested too deep.
* `parse_render`: an item that is printed and parsed again is kept, exactly if it is nested
  at most 1000 deep.
-/

namespace Hearthbeat.CJson

/-! ### Strings -/

/-- A byte is printed as itself, behind a backslash, or by its number. -/
lemma escape_cases (b : Byte) :
    (escape b = [b] ∧ b ≠ quote ∧ b ≠ backslash) ∨
      (∃ e, escape b = [backslash, e] ∧ unescape e = some b) ∨
      (escape b = [backslash, byte 'u', 48, 48, hexDigit (b.toNat / 16), hexDigit (b.toNat % 16)]
        ∧ b.toNat < 32) := by
  rw [escape]
  split_ifs with h hslash hquote h8 h12 h10 h13 h9
  · exact .inl ⟨rfl, h.2.1, h.2.2⟩
  · exact .inr (.inl ⟨backslash, rfl, by rw [hslash]; rfl⟩)
  · exact .inr (.inl ⟨quote, rfl, by rw [hquote]; rfl⟩)
  · exact .inr (.inl ⟨byte 'b', rfl, by rw [h8]; rfl⟩)
  · exact .inr (.inl ⟨byte 'f', rfl, by rw [h12]; rfl⟩)
  · exact .inr (.inl ⟨byte 'n', rfl, by rw [h10]; rfl⟩)
  · exact .inr (.inl ⟨byte 'r', rfl, by rw [h13]; rfl⟩)
  · exact .inr (.inl ⟨byte 't', rfl, by rw [h9]; rfl⟩)
  · refine .inr (.inr ⟨rfl, ?_⟩)
    by_contra hge
    have hlt : 31 < b := UInt8.lt_iff_toNat_lt.mpr (show 31 < b.toNat by omega)
    exact h ⟨hlt, hquote, hslash⟩

lemma hexValue_hexDigit {n : ℕ} (hn : n < 16) : hexValue (hexDigit n) = some n := by
  revert n
  decide

lemma hexDigit_ne {n : ℕ} (hn : n < 16) : hexDigit n ≠ quote ∧ hexDigit n ≠ backslash := by
  revert n
  decide

/-- The bytes that `scan` skips in front of one. -/
def skippedAt (b : Byte) : ℕ := if (escape b).length = 1 then 0 else 1

lemma skippedAt_le (b : Byte) : skippedAt b + 1 ≤ (escape b).length := by
  rw [skippedAt]
  rcases escape_cases b with ⟨h, -⟩ | ⟨e, h, -⟩ | ⟨h, -⟩ <;> simp [h]

/-- `scan` on one byte. -/
lemma scan_escape_append (b : Byte) (s : List Byte) :
    scan (escape b ++ s)
      = (scan s).map fun (n, skipped) => (n + (escape b).length, skipped + skippedAt b) := by
  rcases escape_cases b with ⟨h, hquote, hslash⟩ | ⟨e, h, -⟩ | ⟨h, hlt⟩
  · simp only [h, skippedAt, List.cons_append, List.nil_append, scan_plain s hquote hslash]
    rfl
  · simp only [h, skippedAt, List.cons_append, List.nil_append, scan_escape]
    rfl
  · have h₁ := hexDigit_ne (n := b.toNat / 16) (by omega)
    have h₂ := hexDigit_ne (n := b.toNat % 16) (by omega)
    have h48 : (48 : Byte) ≠ quote ∧ (48 : Byte) ≠ backslash := by decide
    simp only [h, skippedAt, List.cons_append, List.nil_append, scan_escape,
      scan_plain _ h48.1 h48.2, scan_plain _ h₁.1 h₁.2, scan_plain _ h₂.1 h₂.2, Option.map_map]
    rfl

/-- The bytes that `scan` skips in a string. -/
def skippedIn (s : List Byte) : ℕ := (s.map skippedAt).sum

lemma scan_render (s rest : List Byte) :
    scan (s.flatMap escape ++ quote :: rest)
      = some ((s.flatMap escape).length, skippedIn s) := by
  induction s with
  | nil => exact scan_quote rest
  | cons b s ih =>
      rw [List.flatMap_cons, List.append_assoc, scan_escape_append, ih, Option.map_some]
      simp only [skippedIn, List.map_cons, List.sum_cons, List.length_append]
      congr 2 <;> omega

lemma skippedIn_le (s : List Byte) : skippedIn s + s.length ≤ (s.flatMap escape).length := by
  induction s with
  | nil => simp [skippedIn]
  | cons b s ih =>
      have hb := skippedAt_le b
      simp only [skippedIn, List.map_cons, List.sum_cons, List.length_cons, List.flatMap_cons,
        List.length_append] at ih ⊢
      omega

section Decode

variable {content s rest : List Byte} {i stop : ℕ}

/-- What stands at an offset. -/
lemma getElem_of_drop {b : Byte} (h : content.drop i = b :: rest) : content[i]? = some b := by
  rw [← List.head?_drop, h, List.head?_cons]

lemma drop_add {a : List Byte} (h : content.drop i = a ++ rest) :
    content.drop (i + a.length) = rest := by
  rw [← List.drop_drop, h, List.drop_left]

lemma drop_succ {b : Byte} (h : content.drop i = b :: rest) : content.drop (i + 1) = rest :=
  drop_add (a := [b]) h

/-- A byte that is printed by its number is read back. -/
lemma utf16_escape {b : Byte} (hlt : b.toNat < 32) (hstop : i + 6 ≤ stop)
    (h : content.drop i = [backslash, byte 'u', 48, 48, hexDigit (b.toNat / 16),
      hexDigit (b.toNat % 16)] ++ rest) :
    utf16LiteralToUtf8 content i stop = .ok ([b], 6) := by
  have hdigits : content.drop (i + 2)
      = 48 :: 48 :: hexDigit (b.toNat / 16) :: hexDigit (b.toNat % 16) :: rest :=
    drop_add (a := [backslash, byte 'u']) h
  have hfirst : parseHex4 content (i + 2) = .ok b.toNat := by
    have hzero : hexValue 48 = some 0 := rfl
    rw [parseHex4, hdigits]
    simp only [parseHex, hzero, hexValue_hexDigit (n := b.toNat / 16) (by omega),
      hexValue_hexDigit (n := b.toNat % 16) (by omega)]
    congr 1
    omega
  have hutf8 : utf8 b.toNat = some [b] := by
    have hmask : b.toNat &&& 0x7F = b.toNat := by
      rw [show 0x7F = 2 ^ 7 - 1 by norm_num, Nat.and_two_pow_sub_one_eq_mod]
      exact Nat.mod_eq_of_lt (by omega)
    rw [utf8, if_pos (by omega), hmask, UInt8.ofNat_toNat]
  rw [utf16LiteralToUtf8, if_neg (by omega), hfirst, Access.ok_bind, if_neg (by omega),
    if_neg (by omega), hutf8]

/-- A byte is read back from its escape. -/
lemma decodeOne_escape {b : Byte} (hstop : i + (escape b).length ≤ stop)
    (h : content.drop i = escape b ++ rest) :
    decodeOne content i stop = .ok ([b], (escape b).length) := by
  rw [decodeOne]
  rcases escape_cases b with ⟨hb, -, hslash⟩ | ⟨e, hb, he⟩ | ⟨hb, hlt⟩ <;>
    rw [hb] at h hstop ⊢
  · rw [getElem_of_drop h, Access.read_some, Access.ok_bind, if_pos hslash]
    rfl
  · have hnext : content[i + 1]? = some e := getElem_of_drop (drop_succ h)
    rw [getElem_of_drop h, Access.read_some, Access.ok_bind, if_neg (not_not.mpr rfl), hnext,
      Access.read_some, Access.ok_bind, he]
    rfl
  · have hnext : content[i + 1]? = some (byte 'u') := getElem_of_drop (drop_succ h)
    have hu : unescape (byte 'u') = none := by decide
    rw [getElem_of_drop h, Access.read_some, Access.ok_bind, if_neg (not_not.mpr rfl), hnext,
      Access.read_some, Access.ok_bind, hu]
    exact utf16_escape hlt hstop h

/-- The copy of what is left of a string. -/
lemma decode_render {size fuel : ℕ} {out : List Byte}
    (h : content.drop i = s.flatMap escape ++ rest) (hstop : stop = i + (s.flatMap escape).length)
    (hsize : out.length + s.length < size) (hfuel : s.length < fuel) :
    decode content stop size fuel i out = .ok (out ++ s) := by
  induction s generalizing i out fuel with
  | nil =>
      obtain ⟨fuel, rfl⟩ := Nat.exists_eq_add_of_lt hfuel
      simp only [List.flatMap_nil, List.length_nil, add_zero] at hstop hsize
      rw [List.length_nil, Nat.zero_add, decode, if_neg (by omega), if_pos hsize, List.append_nil]
  | cons b s ih =>
      cases fuel with
      | zero => simp at hfuel
      | succ fuel =>
          rw [List.flatMap_cons, List.append_assoc] at h
          rw [List.flatMap_cons, List.length_append] at hstop
          simp only [List.length_cons] at hsize hfuel
          have hpos := skippedAt_le b
          rw [decode, if_pos (by omega), decodeOne_escape (by omega) h, Access.ok_bind]
          simp only [List.length_singleton]
          rw [if_pos (by omega), ih (drop_add h) (by omega) (by simp; omega) (by omega),
            List.append_assoc, List.singleton_append]

lemma str_of (s : Str) : Str.of s.1 = s := Subtype.ext (cstr_of_not_mem s.2)

/-- A string is read back. -/
lemma parseString_render {s : Str} {o : ℕ} (h : content.drop o = renderString s ++ rest) :
    parseString content o = .ok (s, o + (renderString s).length) := by
  have hrender : renderString s ++ rest = quote :: (s.1.flatMap escape ++ quote :: rest) := by
    simp [renderString]
  rw [hrender] at h
  have hnext := drop_succ h
  have hle := skippedIn_le s.1
  rw [parseString, getElem_of_drop h, Access.read_some, Access.ok_bind, if_neg (not_not.mpr rfl),
    hnext, scan_render]
  simp only
  rw [decode_render hnext rfl (by rw [List.length_nil]; omega) (by omega), Access.ok_bind, List.nil_append,
    str_of]
  congr 2
  simp only [renderString, List.length_cons, List.length_append, List.length_nil]
  omega

end Decode

/-! ### Numbers -/

section Numbers

variable {D : Type} [DecidableEq D] {F : Floats D} {content rest : List Byte} {o : ℕ} {d : D}

/-- What stands behind a number does not look like a part of it. -/
def Stops (rest : List Byte) : Prop := ∀ b ∈ rest.head?, isNumberByte b = false

/-- The text of a number gives it back. -/
lemma strtod_renderNumber (hF : F.Exact) (hd : F.finite d = true) :
    F.strtod (renderNumber F d) = some (d, (renderNumber F d).length) := by
  obtain ⟨n, hn, heq⟩ := renderNumber_eq hd
  obtain ⟨d', hwhole⟩ := hF.whole hd hn
  rw [← heq] at hwhole
  have hvalue : (F.strtod (renderNumber F d)).map Prod.fst = some d := by
    rw [renderNumber, if_neg (by simp [hd])]
    split_ifs with h15
    · exact h15
    · exact hF.exact hd
  rw [hwhole, Option.map_some, Option.some.injEq] at hvalue
  obtain rfl : d' = d := hvalue
  exact hwhole

lemma parseNumber_render (hF : F.Exact) (hd : F.finite d = true)
    (h : content.drop o = renderNumber F d ++ rest) (hrest : Stops rest) :
    parseNumber F content o = .ok (.number d, o + (renderNumber F d).length) := by
  obtain ⟨n, hn, heq⟩ := renderNumber_eq hd
  have hbytes : ∀ b ∈ renderNumber F d, isNumberByte b = true := heq ▸ hF.bytes hd hn
  have hshort : (renderNumber F d).length ≤ 25 := heq ▸ hF.short hd hn
  have htext : numberText content o = renderNumber F d := by
    rw [numberText, h, List.take_append, List.take_of_length_le (by omega),
      List.takeWhile_append_of_pos hbytes]
    have hnone : (rest.take (63 - (renderNumber F d).length)).takeWhile isNumberByte = [] := by
      cases rest with
      | nil => simp
      | cons b rest =>
          have hb := hrest b rfl
          obtain ⟨k, hk⟩ := Nat.exists_eq_add_of_lt (show (renderNumber F d).length < 63 by omega)
          rw [show 63 - (renderNumber F d).length = k + 1 by omega, List.take_succ_cons,
            List.takeWhile_cons_of_neg (by simp [hb])]
    rw [hnone, List.append_nil]
  rw [parseNumber, htext, strtod_renderNumber hF hd]

end Numbers

/-! ### White space -/

section WhiteSpace

variable {content rest w : List Byte} {o : ℕ} {b : Byte}

/-- White space only. -/
def Blank (w : List Byte) : Prop := ∀ b ∈ w, b ≤ 32

lemma blank_nil : Blank [] := by simp [Blank]

lemma blank_singleton (hb : b ≤ 32) : Blank [b] := by simpa [Blank] using hb

lemma skipWhitespace_blank (hw : Blank w) (hb : 32 < b) (h : content.drop o = w ++ b :: rest) :
    skipWhitespace content o = o + w.length := by
  have hwhile : (content.drop o).takeWhile (fun b => decide (b ≤ 32)) = w := by
    rw [h, List.takeWhile_append_of_pos fun x hx => by simpa using hw x hx,
      List.takeWhile_cons_of_neg (by simpa using hb), List.append_nil]
  have hlength := congrArg List.length h
  simp only [List.length_drop, List.length_append, List.length_cons] at hlength
  simp only [skipWhitespace, hwhile]
  rw [if_neg (by omega)]

lemma skipWhitespace_of_lt (hb : 32 < b) (h : content.drop o = b :: rest) :
    skipWhitespace content o = o :=
  skipWhitespace_blank (w := []) blank_nil hb h

variable (format : Bool) (depth : ℕ)

lemma blank_tabs : Blank (tabs format depth) := by
  intro b hb
  rw [tabs] at hb
  split_ifs at hb
  · rw [List.eq_of_mem_replicate hb]
    decide
  · cases hb

lemma blank_lineBreak : Blank (lineBreak format) := by
  cases format with
  | false => exact blank_nil
  | true => exact blank_singleton (by decide)

/-- A separator is a comma, with white space. -/
lemma separator_eq : ∃ w, Blank w ∧ separator format = comma :: w := by
  cases format with
  | false => exact ⟨[], blank_nil, rfl⟩
  | true => exact ⟨[space], blank_singleton (by decide), rfl⟩

lemma nameEnd_eq : ∃ w, Blank w ∧ nameEnd format = colon :: w := by
  cases format with
  | false => exact ⟨[], blank_nil, rfl⟩
  | true => exact ⟨[tab], blank_singleton (by decide), rfl⟩

lemma Blank.append {w' : List Byte} (h : Blank w) (h' : Blank w') : Blank (w ++ w') := by
  intro b hb
  rcases List.mem_append.mp hb with hb | hb
  · exact h b hb
  · exact h' b hb

end WhiteSpace

/-! ### Values -/

section First

variable {D : Type} {F : Floats D} {content rest w : List Byte} {left o : ℕ}

/-- The literal does not stand where something else begins. -/
lemma standsAt_ne {b l : Byte} {s s' : List Byte} (h : content.drop o = b :: s) (hne : b ≠ l) :
    standsAt content o (l :: s') = false := by
  have htake : ((content.drop o).take (l :: s').length == l :: s') = false := by
    rw [h, List.length_cons, List.take_succ_cons, beq_eq_false_iff_ne]
    exact fun heq => hne (List.cons.inj heq).1
  rw [standsAt, htake, Bool.and_false]

lemma standsAt_append {b : Byte} {s : List Byte} (h : content.drop o = (b :: s) ++ rest) :
    standsAt content o (b :: s) = true := by
  have hlength := congrArg List.length h
  rw [List.length_drop, List.length_append, List.length_cons] at hlength
  rw [standsAt, h, List.take_left, beq_self_eq_true, Bool.and_true, decide_eq_true_eq,
    List.length_cons]
  omega

/-- What `parse_value` does by the first byte, if that is not one of a literal. -/
lemma parseValue_first {b : Byte} {s : List Byte} (h : content.drop o = b :: s)
    (hn : b ≠ byte 'n') (hf : b ≠ byte 'f') (ht : b ≠ byte 't') :
    parseValue F content left o =
      if b = quote then parseString content o >>= fun r => .ok (.string r.1, r.2)
      else if b = byte '-' ∨ isDigit b then parseNumber F content o
      else match left with
        | 0 => .fail
        | left + 1 =>
            if b = openBracket then parseArray content (parseValue F content left) o
            else if b = openBrace then parseObject content (parseValue F content left) o
            else .fail := by
  rw [parseValue, show bytes "null" = byte 'n' :: bytes "ull" from rfl, standsAt_ne h hn,
    show bytes "false" = byte 'f' :: bytes "alse" from rfl, standsAt_ne h hf,
    show bytes "true" = byte 't' :: bytes "rue" from rfl, standsAt_ne h ht, getElem_of_drop h]
  rfl

lemma parseValue_null (h : content.drop o = bytes "null" ++ rest) :
    parseValue F content left o = .ok (.null, o + 4) := by
  rw [parseValue, show standsAt content o (bytes "null") = true from standsAt_append h, if_pos rfl]

lemma parseValue_string {s : Str} (h : content.drop o = renderString s ++ rest) :
    parseValue F content left o = .ok (.string s, o + (renderString s).length) := by
  rw [parseValue_first h (by decide) (by decide) (by decide), if_pos rfl, parseString_render h]
  rfl

/-- The loops depend on where the next byte behind white space is. -/
lemma parseMembers_congr {value : ℕ → Access (Item D × ℕ)} {fuel o' : ℕ}
    (h : skipWhitespace content (o + 1) = skipWhitespace content (o' + 1)) :
    parseMembers content value fuel o = parseMembers content value fuel o' := by
  cases fuel with
  | zero => rfl
  | succ fuel => rw [parseMembers, h, parseMembers]

/-- An array or an object, where it is nested too deep. -/
lemma parseValue_zero {b : Byte} {s : List Byte} (h : content.drop o = b :: s)
    (hb : b = openBracket ∨ b = openBrace) : parseValue F content 0 o = .fail := by
  rcases hb with rfl | rfl <;>
    rw [parseValue_first h (by decide) (by decide) (by decide), if_neg (by decide),
      if_neg (by decide)]

lemma parseValue_array {s : List Byte} (h : content.drop o = openBracket :: s) :
    parseValue F content (left + 1) o = parseArray content (parseValue F content left) o := by
  rw [parseValue_first h (by decide) (by decide) (by decide), if_neg (by decide),
    if_neg (by decide)]
  exact if_pos rfl

lemma parseValue_object {s : List Byte} (h : content.drop o = openBrace :: s) :
    parseValue F content (left + 1) o = parseObject content (parseValue F content left) o := by
  rw [parseValue_first h (by decide) (by decide) (by decide), if_neg (by decide),
    if_neg (by decide)]
  exact (if_neg (by decide)).trans (if_pos rfl)

/-- The parser begins behind white space: a byte order mark does not begin so. -/
lemma parse_at {b : Byte} {s : List Byte} (hw : Blank w) (hb : 32 < b) (hlow : b < 128) :
    parse F (w ++ b :: s)
      = parseValue F (w ++ b :: s ++ [0]) nestingLimit w.length >>= fun r => .ok r.1 := by
  have hbom : skipUtf8Bom (w ++ b :: s ++ [0]) = 0 := by
    refine if_neg fun h => ?_
    have hfirst : (w ++ b :: s ++ [0]).head? = some 0xEF := by
      have htake := congrArg List.head? h.2
      rwa [List.head?_take, if_neg (by norm_num)] at htake
    cases w with
    | nil =>
        obtain rfl : b = 0xEF := Option.some.inj hfirst
        exact absurd hlow (by decide)
    | cons b' w =>
        obtain rfl : b' = 0xEF := Option.some.inj hfirst
        exact absurd (hw _ List.mem_cons_self) (by decide)
  have hskip : skipWhitespace (w ++ b :: s ++ [0]) 0 = 0 + w.length :=
    skipWhitespace_blank hw hb (by rw [List.drop_zero, List.append_assoc]; rfl)
  rw [Nat.zero_add] at hskip
  rw [parse]
  simp only
  rw [hbom, hskip]

end First

section Values

variable {D : Type} [DecidableEq D] {F : Floats D} {format : Bool} {content rest w : List Byte}
  {depth left o : ℕ}

/-- A number begins with a sign or a digit. -/
lemma renderNumber_first (hF : F.Exact) {d : D} (hd : F.finite d = true) :
    ∃ b s, renderNumber F d = b :: s ∧ (b = byte '-' ∨ isDigit b = true) := by
  obtain ⟨n, hn, heq⟩ := renderNumber_eq (F := F) hd
  rw [heq]
  exact hF.first hd hn

/-- The first byte of a value. -/
lemma render_first (format : Bool) (depth : ℕ) (hF : F.Exact) (x : Item D) : ∃ b s, render F format depth x = b :: s ∧
    32 < b ∧ b < 128 ∧ b ≠ closeBracket := by
  cases x with
  | null => exact ⟨_, _, rfl, by decide, by decide, by decide⟩
  | bool b => cases b <;> exact ⟨_, _, rfl, by decide, by decide, by decide⟩
  | number d =>
      rw [render]
      cases hd : F.finite d with
      | false =>
          exact ⟨byte 'n', _, by rw [renderNumber, if_pos hd]; rfl, by decide, by decide, by decide⟩
      | true =>
          obtain ⟨b, s, hbs, hfirst⟩ := renderNumber_first hF hd
          refine ⟨b, s, hbs, ?_⟩
          rcases hfirst with rfl | hdigit
          · decide
          · simp only [isDigit, Bool.and_eq_true, decide_eq_true_eq] at hdigit
            refine ⟨UInt8.lt_of_lt_of_le (by decide) hdigit.1,
              UInt8.lt_of_le_of_lt hdigit.2 (by decide), ?_⟩
            rintro rfl
            exact absurd hdigit (by decide)
  | string s => exact ⟨_, _, rfl, by decide, by decide, by decide⟩
  | array child => exact ⟨_, _, rfl, by decide, by decide, by decide⟩
  | object child => exact ⟨_, _, rfl, by decide, by decide, by decide⟩

/-- Every child takes up a byte. -/
lemma Elements.length_le (format : Bool) (depth : ℕ) (hF : F.Exact) (xs : Elements D) :
    xs.length ≤ (renderElements F format depth xs).length := by
  cases xs with
  | nil => exact le_rfl
  | cons x next =>
      have hrest := Elements.length_le format depth hF next
      obtain ⟨b, s, hbs, -⟩ := render_first format depth hF x
      simp only [Elements.length, renderElements, hbs, List.length_append, List.length_cons]
      omega

lemma Members.length_le (F : Floats D) (format : Bool) (depth : ℕ) (xs : Members D) :
    xs.length ≤ (renderMembers F format depth xs).length := by
  cases xs with
  | nil => exact le_rfl
  | cons s x next =>
      have hrest := Members.length_le F format depth next
      simp only [Members.length, renderMembers, renderString, List.length_append, List.length_cons]
      omega

lemma stops_cons {b : Byte} (hb : isNumberByte b = false) (s : List Byte) : Stops (b :: s) := by
  intro b' hb'
  obtain rfl : b = b' := Option.some.inj hb'
  exact hb

lemma stops_comma (s : List Byte) : Stops (comma :: s) := stops_cons (by decide) s

lemma stops_closeBracket (s : List Byte) : Stops (closeBracket :: s) := stops_cons (by decide) s

/-- White space is no part of a number. -/
lemma Blank.stops (hw : Blank w) (h : Stops rest) : Stops (w ++ rest) := by
  cases w with
  | nil => exact h
  | cons b w =>
      refine stops_cons (Bool.eq_false_iff.mpr fun hb => ?_) _
      have hle : b.toNat ≤ 32 := hw b List.mem_cons_self
      simp only [isNumberByte, isDigit, Bool.or_eq_true, Bool.and_eq_true, decide_eq_true_eq,
        beq_iff_eq] at hb
      rcases hb with ((((⟨hge, -⟩ | rfl) | rfl) | rfl) | rfl) | rfl
      · have hge : 48 ≤ b.toNat := hge
        omega
      all_goals exact absurd hle (by decide)

lemma parseValue_bool (b : Bool) (h : content.drop o = render F format depth (.bool b) ++ rest) :
    parseValue F content left o = .ok (.bool b, o + (render F format depth (.bool b)).length) := by
  cases b with
  | false =>
      have hnull : standsAt content o (bytes "null") = false := standsAt_ne h (by decide)
      rw [parseValue, hnull, show standsAt content o (bytes "false") = true from standsAt_append h]
      rfl
  | true =>
      have hnull : standsAt content o (bytes "null") = false := standsAt_ne h (by decide)
      have hfalse : standsAt content o (bytes "false") = false := standsAt_ne h (by decide)
      rw [parseValue, hnull, hfalse,
        show standsAt content o (bytes "true") = true from standsAt_append h]
      rfl

lemma parseValue_number (hF : F.Exact) {d : D} (h : content.drop o = renderNumber F d ++ rest)
    (hrest : Stops rest) : parseValue F content left o
      = .ok ((Item.number d).kept F, o + (renderNumber F d).length) := by
  rw [Item.kept]
  cases hd : F.finite d with
  | false =>
      have hnull : renderNumber F d = bytes "null" := by rw [renderNumber, if_pos hd]
      rw [hnull] at h ⊢
      exact parseValue_null h
  | true =>
      obtain ⟨b, s, hbs, hfirst⟩ := renderNumber_first hF hd
      have hhead : content.drop o = b :: (s ++ rest) := by rw [h, hbs]; rfl
      have hne : ∀ x : Byte, isDigit x = false → x ≠ byte '-' → b ≠ x := by
        rintro x hx hminus rfl
        rcases hfirst with rfl | hdigit
        · exact hminus rfl
        · rw [hdigit] at hx
          cases hx
      rw [parseValue_first hhead (hne _ (by decide) (by decide)) (hne _ (by decide) (by decide))
        (hne _ (by decide) (by decide)), if_neg (hne _ (by decide) (by decide)), if_pos hfirst,
        parseNumber_render hF hd h hrest]
      rfl

/-- Where the text of an item stands, the parser reads what is kept of it and stops behind
it, unless it is nested too deep. -/
def Item.Reads (F : Floats D) (format : Bool) (content : List Byte) (x : Item D) : Prop :=
  ∀ (left : ℕ) {depth o rest}, content.drop o = render F format depth x ++ rest → Stops rest →
    parseValue F content left o
      = if x.depth ≤ left then .ok (x.kept F, o + (render F format depth x).length) else .fail

/-- The same of the children of an array, behind the byte in front of them. -/
def Elements.Reads (F : Floats D) (format : Bool) (content : List Byte) (xs : Elements D) : Prop :=
  ∀ {left depth fuel o w rest}, Blank w →
    content.drop (o + 1) = w ++ (renderElements F format depth xs ++ closeBracket :: rest) →
    xs.length ≤ fuel → xs ≠ .nil →
    parseElements content (parseValue F content left) fuel o
      = if xs.depth ≤ left then
          .ok (xs.kept F, o + 1 + w.length + (renderElements F format depth xs).length + 1)
        else .fail

variable (F format depth) in
/-- What stands behind a child, up to the bracket. -/
lemma renderElements_cons (x : Item D) (next : Elements D) :
    ∃ tail, renderElements F format depth (.cons x next) = render F format depth x ++ tail ∧
      (next = .nil ∧ tail = [] ∨ next ≠ .nil ∧ ∃ w, Blank w ∧
        tail = comma :: (w ++ renderElements F format depth next)) := by
  cases next with
  | nil => exact ⟨[], by simp [renderElements, Elements.separator], .inl ⟨rfl, rfl⟩⟩
  | cons y n =>
      obtain ⟨w, hw, hsep⟩ := separator_eq format
      refine ⟨_, ?_, .inr ⟨by simp, w, hw, rfl⟩⟩
      rw [renderElements, Elements.separator, hsep, List.append_assoc, List.cons_append]

lemma Elements.reads_cons (hF : F.Exact) {x : Item D} {next : Elements D}
    (hx : x.Reads F format content) (hnext : next.Reads F format content) :
    (Elements.cons x next).Reads F format content := by
  intro left depth fuel o w rest hw h hfuel _
  simp only [Elements.length] at hfuel
  obtain ⟨fuel, rfl⟩ : ∃ k, fuel = k + 1 := Nat.exists_eq_add_one.mpr (by omega)
  obtain ⟨b, s, hbs, hb, -⟩ := render_first format depth hF x
  obtain ⟨tail, htail, hnexts⟩ := renderElements_cons F format depth x
    next
  rw [htail, List.append_assoc] at h
  have hskip : skipWhitespace content (o + 1) = o + 1 + w.length :=
    skipWhitespace_blank hw hb (by rw [h, hbs]; rfl)
  have hx := hx left (drop_add h)
  have hbehind := drop_add (drop_add h)
  rw [parseElements, hskip, htail, List.length_append]
  generalize o + 1 + w.length = o₁ at hx hbehind ⊢
  simp only [Elements.depth, max_le_iff]
  by_cases hdepth : x.depth ≤ left
  · rcases hnexts with ⟨rfl, rfl⟩ | ⟨hne, w', hw', rfl⟩
    · rw [hx (stops_closeBracket rest), if_pos hdepth, Access.ok_bind]
      simp only
      rw [skipWhitespace_of_lt (by decide) hbehind, getElem_of_drop hbehind, if_neg (by decide),
        if_pos rfl, if_pos ⟨hdepth, Nat.zero_le left⟩]
      rfl
    · rw [List.cons_append, List.append_assoc] at hx hbehind
      rw [hx (stops_comma _), if_pos hdepth, Access.ok_bind]
      simp only
      rw [skipWhitespace_of_lt (by decide) hbehind, getElem_of_drop hbehind, if_pos rfl,
        hnext hw' (drop_succ hbehind) (by omega) hne]
      by_cases hrest : next.depth ≤ left
      · rw [if_pos hrest, if_pos ⟨hdepth, hrest⟩, Access.ok_bind, List.length_cons,
          List.length_append, Elements.kept]
        congr 2
        omega
      · rw [if_neg hrest, if_neg fun h => hrest h.2]
        rfl
  · have hstops : Stops (tail ++ closeBracket :: rest) := by
      rcases hnexts with ⟨-, rfl⟩ | ⟨-, w', -, rfl⟩
      · exact stops_closeBracket rest
      · exact stops_comma _
    rw [hx hstops, if_neg hdepth, if_neg fun h => hdepth h.1]
    rfl

/-- The same for an object; its members stand in lines of their own, and white space stands
in front of its brace. -/
def Members.Reads (F : Floats D) (format : Bool) (content : List Byte) (xs : Members D) : Prop :=
  ∀ {left depth fuel o w w' rest}, Blank w → Blank w' →
    content.drop (o + 1)
      = w ++ (renderMembers F format depth xs ++ (w' ++ closeBrace :: rest)) →
    xs.length ≤ fuel → xs ≠ .nil →
    parseMembers content (parseValue F content left) fuel o
      = if xs.depth ≤ left then
          .ok (xs.kept F,
            o + 1 + w.length + (renderMembers F format depth xs).length + w'.length + 1)
        else .fail

variable (F format depth) in
/-- What stands behind a member, up to the brace. -/
lemma renderMembers_cons (s : Str) (x : Item D) (next : Members D) :
    ∃ w w' tail, Blank w ∧ Blank w' ∧ renderMembers F format depth (.cons s x next)
        = w ++ (renderString s ++ colon :: (w' ++ (render F format depth x ++ tail))) ∧
      (next = .nil ∧ Blank tail ∨ next ≠ .nil ∧ ∃ w, Blank w ∧
        tail = comma :: (w ++ renderMembers F format depth next)) := by
  obtain ⟨w', hw', hname⟩ := nameEnd_eq format
  cases next with
  | nil =>
      refine ⟨_, w', lineBreak format, blank_tabs format depth, hw', ?_,
        .inl ⟨rfl, blank_lineBreak format⟩⟩
      rw [renderMembers, hname]
      simp only [renderMembers, Members.separator, List.append_assoc, List.cons_append,
        List.append_nil]
  | cons s' y n =>
      refine ⟨_, w', comma :: (lineBreak format ++ renderMembers F format depth (.cons s' y n)),
        blank_tabs format depth, hw', ?_, .inr ⟨by simp, _, blank_lineBreak format, rfl⟩⟩
      rw [renderMembers, hname, Members.separator]
      simp only [List.append_assoc, List.cons_append, List.nil_append]

lemma Members.reads_cons {s : Str} {x : Item D} {next : Members D} (hF : F.Exact)
    (hx : x.Reads F format content) (hnext : next.Reads F format content) :
    (Members.cons s x next).Reads F format content := by
  intro left depth fuel o w w' rest hw hw' h hfuel _
  simp only [Members.length] at hfuel
  obtain ⟨fuel, rfl⟩ : ∃ k, fuel = k + 1 := Nat.exists_eq_add_one.mpr (by omega)
  obtain ⟨b, t, hbt, hb, -⟩ := render_first format depth hF x
  obtain ⟨w₁, w₂, tail, hw₁, hw₂, htail, hnexts⟩ :=
    renderMembers_cons F format depth s x next
  rw [htail] at h ⊢
  simp only [List.append_assoc, List.cons_append] at h
  rw [← List.append_assoc] at h
  -- the name and its colon
  have hskip : skipWhitespace content (o + 1) = o + 1 + (w ++ w₁).length :=
    skipWhitespace_blank (b := quote) (hw.append hw₁) (by decide) (by rw [h]; rfl)
  have hname := parseString_render (drop_add h)
  have hcolon := drop_add (drop_add h)
  rw [parseMembers, hskip, hname, Access.ok_bind]
  simp only
  rw [skipWhitespace_of_lt (by decide) hcolon, getElem_of_drop hcolon, if_neg (not_not.mpr rfl)]
  -- the value
  have hvalue := drop_succ hcolon
  rw [skipWhitespace_blank hw₂ hb (by rw [hvalue, hbt]; rfl)]
  have hx := hx left (drop_add hvalue)
  have hbehind := drop_add (drop_add hvalue)
  simp only [Members.depth, max_le_iff, List.length_append, List.length_cons] at hx hbehind ⊢
  have hend : Stops (w' ++ closeBrace :: rest) := hw'.stops (stops_cons (by decide) rest)
  -- a value too deep stops the parser, any other comes before the brace or the next member
  by_cases hdepth : x.depth ≤ left
  · rcases hnexts with ⟨rfl, hblank⟩ | ⟨hne, w₃, hw₃, rfl⟩
    · rw [hx (hblank.stops hend), if_pos hdepth, Access.ok_bind]
      rw [← List.append_assoc] at hbehind
      simp only
      rw [skipWhitespace_blank (hblank.append hw') (by decide) hbehind,
        getElem_of_drop (drop_add hbehind), if_neg (by decide), if_pos rfl,
        if_pos ⟨hdepth, Nat.zero_le left⟩, Members.kept, Members.kept, List.length_append]
      congr 2
      omega
    · rw [List.cons_append, List.append_assoc] at hx hbehind
      rw [hx (stops_comma _), if_pos hdepth, Access.ok_bind]
      simp only
      rw [skipWhitespace_of_lt (by decide) hbehind, getElem_of_drop hbehind, if_pos rfl,
        hnext hw₃ hw' (drop_succ hbehind) (by omega) hne]
      by_cases hrest : next.depth ≤ left
      · rw [if_pos hrest, if_pos ⟨hdepth, hrest⟩, Access.ok_bind, Members.kept]
        congr 2
        simp only [List.length_cons, List.length_append]
        omega
      · rw [if_neg hrest, if_neg fun h => hrest h.2]
        rfl
  · have hstops : Stops (tail ++ (w' ++ closeBrace :: rest)) := by
      rcases hnexts with ⟨-, hblank⟩ | ⟨-, w₃, -, rfl⟩
      · exact hblank.stops hend
      · exact stops_comma _
    rw [hx hstops, if_neg hdepth, if_neg fun h => hdepth h.1]
    rfl

lemma Item.reads_array {child : Elements D} (hF : F.Exact)
    (hchild : child.Reads F format content) : (Item.array child).Reads F format content := by
  intro left depth o rest h _
  simp only [render, List.cons_append, List.append_assoc, List.nil_append] at h
  rw [Item.depth, Item.kept, render, List.length_cons, List.length_append, List.length_singleton]
  cases left with
  | zero => rw [parseValue_zero h (.inl rfl), if_neg (by omega)]
  | succ left =>
      have hnext := drop_succ h
      rw [parseValue_array h, parseArray]
      simp only [Nat.add_le_add_iff_right]
      cases child with
      | nil =>
          rw [renderElements, List.nil_append] at hnext
          rw [skipWhitespace_of_lt (by decide) hnext, getElem_of_drop hnext]
          simp only [if_true, Elements.depth, Nat.zero_le, Elements.kept, renderElements,
            List.length_nil]
      | cons x next =>
          obtain ⟨b, s, hbs, hb, -, hclose⟩ := render_first format (depth + 1) hF x
          obtain ⟨tail, htail, -⟩ :=
            renderElements_cons F format (depth + 1) x next
          have hhead : content.drop (o + 1) = b :: (s ++ tail ++ closeBracket :: rest) := by
            rw [hnext, htail, hbs]
            rfl
          have hlength := congrArg List.length hnext
          have hfuel := Elements.length_le format (depth + 1) hF (.cons x next)
          rw [List.length_drop, List.length_append] at hlength
          rw [skipWhitespace_of_lt hb hhead, getElem_of_drop hhead]
          simp only
          rw [if_neg hclose, Nat.add_sub_cancel, hchild (w := []) blank_nil hnext (by omega)
            (by simp)]
          split_ifs
          · rw [Access.ok_bind, List.length_nil]
            congr 2
            simp only
            omega
          · rfl

lemma Item.reads_object {child : Members D} (hchild : child.Reads F format content) :
    (Item.object child).Reads F format content := by
  intro left depth o rest h _
  simp only [render, List.cons_append, List.append_assoc, List.nil_append] at h
  simp only [Item.depth, Item.kept, render, List.length_cons, List.length_append, List.length_nil]
  cases left with
  | zero => rw [parseValue_zero h (.inr rfl), if_neg (by omega)]
  | succ left =>
      have hnext := drop_succ h
      have hline := blank_lineBreak format
      have htabs := blank_tabs format depth
      rw [parseValue_object h, parseObject]
      simp only [Nat.add_le_add_iff_right]
      cases child with
      | nil =>
          rw [renderMembers, List.nil_append, ← List.append_assoc] at hnext
          rw [skipWhitespace_blank (hline.append htabs) (by decide) hnext,
            getElem_of_drop (drop_add hnext)]
          simp only [if_true, Members.depth, Nat.zero_le, Members.kept, renderMembers,
            List.length_nil, List.length_append]
          congr 2
          omega
      | cons s x next =>
          obtain ⟨w₁, w₂, tail, hw₁, -, htail, -⟩ :=
            renderMembers_cons F format (depth + 1) s x next
          have hname : content.drop (o + 1) = (lineBreak format ++ w₁) ++ quote ::
              (s.1.flatMap escape ++ [quote] ++ colon :: (w₂ ++ (render F format (depth + 1) x ++ tail))
                ++ (tabs format depth ++ closeBrace :: rest)) := by
            rw [hnext, htail, renderString]
            simp only [List.append_assoc, List.cons_append]
          have hskip := skipWhitespace_blank (hline.append hw₁) (by decide) hname
          have hquote := drop_add hname
          have hlength := congrArg List.length hnext
          have hfuel := Members.length_le F format (depth + 1) (.cons s x next)
          simp only [List.length_drop, List.length_append] at hlength
          -- the loop begins in front of the name, which has been found already
          have hback : skipWhitespace content (o + 1 + (lineBreak format ++ w₁).length - 1 + 1)
              = skipWhitespace content (o + 1) := by
            rw [Nat.sub_add_cancel (by omega), skipWhitespace_of_lt (by decide) hquote, hskip]
          rw [hskip, getElem_of_drop hquote]
          simp only
          rw [if_neg (by decide), parseMembers_congr hback, hchild hline htabs hnext (by omega)
            (by simp)]
          split_ifs
          · rw [Access.ok_bind]
            congr 2
            omega
          · rfl

mutual

/-- The text of an item is read back. -/
lemma Item.reads (hF : F.Exact) : ∀ x : Item D, x.Reads F format content
  | .null => fun _ _ _ _ h _ => parseValue_null h
  | .bool b => fun _ _ _ _ h _ => parseValue_bool b h
  | .number _ => fun _ _ _ _ h hrest => parseValue_number hF h hrest
  | .string _ => fun _ _ _ _ h _ => parseValue_string h
  | .array child => Item.reads_array hF (Elements.reads hF child)
  | .object child => Item.reads_object (Members.reads hF child)

lemma Elements.reads (hF : F.Exact) : ∀ xs : Elements D, xs.Reads F format content
  | .nil => fun _ _ _ h => absurd rfl h
  | .cons x next => Elements.reads_cons hF (Item.reads hF x) (Elements.reads hF next)

lemma Members.reads (hF : F.Exact) : ∀ xs : Members D, xs.Reads F format content
  | .nil => fun _ _ _ _ h => absurd rfl h
  | .cons _ x next => Members.reads_cons hF (Item.reads hF x) (Members.reads hF next)

end

/-! ### Whole texts -/

lemma Stops.concat (h : Stops rest) : Stops (rest ++ [0]) := by
  cases rest with
  | nil => exact stops_cons (by decide) []
  | cons b rest => exact stops_cons (h b rfl) _

/-- The text of an item between white space and something else. -/
lemma parseValue_render (hF : F.Exact) (x : Item D) (hrest : Stops rest) :
    parseValue F (w ++ (render F format 0 x ++ rest) ++ [0]) nestingLimit w.length
      = if x.depth ≤ 1000 then .ok (x.kept F, w.length + (render F format 0 x).length)
        else .fail := by
  refine Item.reads hF x nestingLimit ?_ hrest.concat
  rw [List.append_assoc, List.append_assoc, List.drop_left]

/-- The parser begins at the text of an item. -/
lemma parse_of_render (format : Bool) (hF : F.Exact) (x : Item D) (hw : Blank w) :
    parse F (w ++ (render F format 0 x ++ rest))
      = parseValue F (w ++ (render F format 0 x ++ rest) ++ [0]) nestingLimit w.length >>=
        fun r => .ok r.1 := by
  obtain ⟨b, s, hbs, hb, hlow, -⟩ := render_first format 0 hF x
  rw [hbs, List.cons_append]
  exact parse_at hw hb hlow

/-- An item that is printed is parsed again exactly if it is nested at most 1000 deep, and
then everything that printing keeps of it is there. This holds in both formats, behind white
space, and whatever follows, unless that reads on as a part of a number. -/
theorem parse_render (hF : F.Exact) (format : Bool) (x : Item D) {w rest : Text} (hw : Blank w)
    (hrest : Stops rest) : parse F (w ++ (render F format 0 x ++ rest))
      = if x.depth ≤ 1000 then .ok (x.kept F) else .fail := by
  rw [parse_of_render format hF x hw, parseValue_render hF x hrest]
  split_ifs <;> rfl

theorem parse_render_message :
    parse integers ([space] ++ (render integers true 0
        (.object (.cons (Str.of (bytes "chat_id")) (.number (-12))
          (.cons (Str.of (bytes "text")) (.array .nil) .nil))) ++ [closeBrace]))
      = if (Item.object (.cons (Str.of (bytes "chat_id")) (.number (-12))
          (.cons (Str.of (bytes "text")) (.array .nil) .nil))).depth ≤ 1000 then
          .ok ((Item.object (.cons (Str.of (bytes "chat_id")) (.number (-12))
            (.cons (Str.of (bytes "text")) (.array .nil) .nil))).kept integers)
        else .fail :=
  parse_render integers_exact true _ (blank_singleton (by decide)) (stops_cons (by decide) [])

end Values

/-! ### Printed again -/

section Kept

variable {D : Type} [DecidableEq D] {F : Floats D} (format : Bool)

omit [DecidableEq D] in
lemma Elements.separator_kept (xs : Elements D) :
    (xs.kept F).separator format = xs.separator format := by cases xs <;> rfl

omit [DecidableEq D] in
lemma Members.separator_kept (xs : Members D) : (xs.kept F).separator = xs.separator := by
  cases xs <;> rfl

mutual

/-- What printing keeps is printed in the same way. -/
lemma Item.render_kept (depth : ℕ) : ∀ x : Item D, render F format depth (x.kept F)
    = render F format depth x
  | .null => rfl
  | .bool _ => rfl
  | .number d => by
      rw [Item.kept]
      split_ifs with hd
      · rw [render, render, renderNumber, if_pos hd]
      · rfl
  | .string _ => rfl
  | .array child => by rw [Item.kept, render, render, Elements.render_kept]
  | .object child => by rw [Item.kept, render, render, Members.render_kept]

lemma Elements.render_kept (depth : ℕ) : ∀ xs : Elements D,
    renderElements F format depth (xs.kept F) = renderElements F format depth xs
  | .nil => rfl
  | .cons x next => by
      rw [Elements.kept, renderElements, renderElements, Item.render_kept, Elements.render_kept,
        next.separator_kept]

lemma Members.render_kept (depth : ℕ) : ∀ xs : Members D,
    renderMembers F format depth (xs.kept F) = renderMembers F format depth xs
  | .nil => rfl
  | .cons s x next => by
      rw [Members.kept, renderMembers, renderMembers, Item.render_kept, Members.render_kept,
        next.separator_kept]

end

/-- The text of an item that is not nested too deep, and nothing else. -/
lemma parse_text (hF : F.Exact) (x : Item D) (hx : x.depth ≤ 1000) :
    parse F (render F format 0 x) = .ok (x.kept F) := by
  have hparse : parse F ([] ++ (render F format 0 x ++ [])) = _ :=
    parse_of_render format hF x blank_nil
  rw [parseValue_render hF x (by simp [Stops]), if_pos hx] at hparse
  rwa [List.nil_append, List.append_nil] at hparse

/-- A text that is parsed and printed comes to rest: it is parsed again, to the same item but
for numbers that are not finite, and that item is printed as the same text. -/
theorem parse_render_parse (hF : F.Exact) {text : Text} {x : Item D} (h : parse F text = .ok x) :
    parse F (render F format 0 x) = .ok (x.kept F) ∧
      render F format 0 (x.kept F) = render F format 0 x := by
  exact ⟨parse_text format hF x (depth_parse h), Item.render_kept format 0 x⟩

theorem parse_render_parse_array :
    parse integers (render integers true 0 (.array (.cons (.bool true) (.cons .null .nil))))
        = .ok ((Item.array (.cons (.bool true) (.cons .null .nil))).kept integers) ∧
      render integers true 0 ((Item.array (.cons (.bool true) (.cons .null .nil))).kept integers)
        = render integers true 0 (.array (.cons (.bool true) (.cons .null .nil))) :=
  parse_render_parse true integers_exact
    (show parse integers (bytes "[true,null]x") = _ by decide +kernel)

end Kept

end Hearthbeat.CJson
