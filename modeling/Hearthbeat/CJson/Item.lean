import Hearthbeat.Text.Decimal

/-!
`cJSON.c`: the items, and the text that an item is printed as.

* `Item`: an item with its children, which are a list linked by `next`. A raw item and an
  invalid one are never made here; `valueint` is not kept, since nothing reads it.
* `Floats`: the numbers, with what `sprintf` and `strtod` do with them.
* `render`: the text. `Item.kept` is what a text keeps of an item: a number that is not
  finite is printed as null.
-/

namespace Hearthbeat

/-- A C string: bytes without a NUL. -/
abbrev Str := { s : Text // (0 : Byte) ∉ s }

/-- The C string at the start of a buffer. -/
def Str.of (buffer : List Byte) : Str :=
  ⟨cstr buffer, fun h => by simpa using (List.mem_takeWhile_imp h)⟩

namespace CJson

mutual

/-- A `cJSON`, but for its links to others. -/
inductive Item (D : Type) where
  | null
  | bool (b : Bool)
  | number (valuedouble : D)
  | string (valuestring : Str)
  | array (child : Elements D)
  | object (child : Members D)
  deriving DecidableEq

/-- The children of an array. -/
inductive Elements (D : Type) where
  | nil
  | cons (item : Item D) (next : Elements D)
  deriving DecidableEq

/-- The children of an object, each with its name. -/
inductive Members (D : Type) where
  | nil
  | cons (string : Str) (item : Item D) (next : Members D)
  deriving DecidableEq

end

/-- The doubles of the C library, as far as they are used here: `d * 0 == 0`, the text of
`%1.<n>g`, and the number at the start of a text with the bytes that it takes up, none
where there is no number. -/
structure Floats (D : Type) where
  finite : D → Bool
  format : ℕ → D → Text
  strtod : Text → Option (D × ℕ)

/-- The bytes that `parse_number` takes for a part of a number. -/
def isNumberByte (b : Byte) : Bool :=
  isDigit b || b == byte '+' || b == byte '-' || b == byte 'e' || b == byte 'E' || b == byte '.'

/-- `strtod` takes up some bytes of the text, and none behind it. -/
def Floats.Bounded {D : Type} (F : Floats D) : Prop :=
  ∀ text d n, F.strtod text = some (d, n) → 0 < n ∧ n ≤ text.length

/-- The C library on finite doubles: a text of up to 17 digits is a short number and read as
a whole, and 17 digits give the double back. -/
structure Floats.Exact {D : Type} (F : Floats D) : Prop where
  whole : ∀ {n d}, F.finite d = true → n ≤ 17 →
    ∃ d', F.strtod (F.format n d) = some (d', (F.format n d).length)
  exact : ∀ {d}, F.finite d = true → (F.strtod (F.format 17 d)).map Prod.fst = some d
  bytes : ∀ {n d}, F.finite d = true → n ≤ 17 → ∀ b ∈ F.format n d, isNumberByte b = true
  first : ∀ {n d}, F.finite d = true → n ≤ 17 →
    ∃ b s, F.format n d = b :: s ∧ (b = byte '-' ∨ isDigit b = true)
  short : ∀ {n d}, F.finite d = true → n ≤ 17 → (F.format n d).length ≤ 25

/-- The length of the sign in front of a number. -/
def signLength : Text → ℕ
  | [] => 0
  | b :: _ => if b = byte '-' ∨ b = byte '+' then 1 else 0

/-- The integers of up to 15 digits, which are printed as such. -/
def integers : Floats ℤ where
  finite d := decide (d.natAbs < 10 ^ 15)
  format _ d := signedDecimal d
  strtod text :=
    let digits := (text.drop (signLength text)).takeWhile isDigit
    if digits = [] then none else some (signedValue text, signLength text + digits.length)

lemma integers_bounded : integers.Bounded := by
  intro text d n h
  simp only [integers] at h
  split_ifs at h with hdigits
  cases h
  have hle := (List.takeWhile_sublist isDigit (l := text.drop (signLength text))).length_le
  have hpos := List.length_pos_of_ne_nil hdigits
  rw [List.length_drop] at hle
  omega

/-- The text of an integer is read as a whole. -/
lemma strtod_signedDecimal (d : ℤ) :
    integers.strtod (signedDecimal d) = some (d, (signedDecimal d).length) := by
  have hne := decimal_ne_nil d.natAbs
  have hdigits : (decimal d.natAbs).takeWhile isDigit = decimal d.natAbs :=
    List.takeWhile_eq_self_iff.mpr fun _ => mem_decimal _
  obtain ⟨k, hsign, hdrop, hlength⟩ : ∃ k, signLength (signedDecimal d) = k ∧
      (signedDecimal d).drop k = decimal d.natAbs ∧
      k + (decimal d.natAbs).length = (signedDecimal d).length := by
    rw [signedDecimal]
    split_ifs
    · exact ⟨1, rfl, rfl, Nat.add_comm _ _⟩
    · refine ⟨0, ?_, rfl, Nat.zero_add _⟩
      obtain ⟨b, s, hs⟩ := List.exists_cons_of_ne_nil hne
      have hb : isDigit b = true := mem_decimal d.natAbs (by rw [hs]; exact List.mem_cons_self)
      rw [hs, signLength]
      refine if_neg ?_
      rintro (rfl | rfl) <;> revert hb <;> decide
  simp only [integers, hsign, hdrop, hdigits, signedValue_signedDecimal, hlength]
  exact if_neg hne

lemma integers_exact : integers.Exact where
  whole _ _ := ⟨_, strtod_signedDecimal _⟩
  exact _ := congrArg (Option.map Prod.fst) (strtod_signedDecimal _)
  bytes _ _ b hb := by
    rcases mem_signedDecimal _ hb with rfl | hdigit
    · decide
    · simp [isNumberByte, hdigit]
  first {n d} _ _ := by
    have hne : signedDecimal d ≠ [] := by
      intro h
      have hlength := strtod_signedDecimal d
      rw [h] at hlength
      cases hlength
    obtain ⟨b, s, hs⟩ := List.exists_cons_of_ne_nil hne
    exact ⟨b, s, hs, mem_signedDecimal d (hs ▸ List.mem_cons_self)⟩
  short {n d} hd _ := by
    have hlength := length_signedDecimal d (k := 15) (by norm_num) (of_decide_eq_true hd)
    exact hlength.trans (by norm_num)

/-- The byte at both ends of a string. -/
def quote : Byte := 34

/-- The byte that begins an escape. -/
def backslash : Byte := 92

/-- The byte between two children. -/
def comma : Byte := 44

/-- The byte behind a name. -/
def colon : Byte := 58

/-- The byte that indents a line. -/
def tab : Byte := 9

/-- The byte behind a comma. -/
def space : Byte := 32

/-- The byte that ends a line of an object. -/
def lineFeed : Byte := 10

/-- The byte that begins an array. -/
def openBracket : Byte := 91

/-- The byte that ends an array. -/
def closeBracket : Byte := 93

/-- The byte that begins an object. -/
def openBrace : Byte := 123

/-- The byte that ends an object. -/
def closeBrace : Byte := 125

/-! ### Numbers and strings -/

section Render

variable {D : Type} [DecidableEq D] (F : Floats D)

/-- The text of `print_number`: 15 digits where they give the number back, else 17. A zero
is printed with its sign, so that the comparison of doubles is equality there. -/
def renderNumber (d : D) : Text :=
  if F.finite d = false then bytes "null"
  else if (F.strtod (F.format 15 d)).map Prod.fst = some d then F.format 15 d
  else F.format 17 d

variable {F} in
/-- A finite number is printed with up to 17 digits. -/
lemma renderNumber_eq {d : D} (hd : F.finite d = true) : ∃ n ≤ 17, renderNumber F d = F.format n d := by
  rw [renderNumber, if_neg (by simp [hd])]
  split_ifs
  · exact ⟨15, by omega, rfl⟩
  · exact ⟨17, le_rfl, rfl⟩

/-- The digits of `%x`. -/
def hexDigit (n : ℕ) : Byte := if n < 10 then 48 + UInt8.ofNat n else 87 + UInt8.ofNat n

/-- What `print_string_ptr` copies for a byte. -/
def escape (b : Byte) : Text :=
  if 31 < b ∧ b ≠ quote ∧ b ≠ backslash then [b]
  else if b = backslash then [backslash, backslash]
  else if b = quote then [backslash, quote]
  else if b = 8 then [backslash, byte 'b']
  else if b = 12 then [backslash, byte 'f']
  else if b = 10 then [backslash, byte 'n']
  else if b = 13 then [backslash, byte 'r']
  else if b = 9 then [backslash, byte 't']
  else [backslash, byte 'u', 48, 48, hexDigit (b.toNat / 16), hexDigit (b.toNat % 16)]

/-- The text of `print_string_ptr`. -/
def renderString (s : Str) : Text := quote :: (s.1.flatMap escape ++ [quote])

/-! ### Values -/

variable (format : Bool)

/-- What stands between two elements. -/
def separator : Text := if format then [comma, space] else [comma]

/-- What stands in front of the elements that are left. -/
def Elements.separator : Elements D → Text
  | .nil => []
  | .cons _ _ => CJson.separator format

/-- What stands in front of the members that are left, on the line of the one before. -/
def Members.separator : Members D → Text
  | .nil => []
  | .cons _ _ _ => [comma]

/-- The tabs in front of a line. -/
def tabs (depth : ℕ) : Text := if format then List.replicate depth tab else []

/-- The line break inside an object. -/
def lineBreak : Text := if format then [lineFeed] else []

/-- What stands between a name and its value. -/
def nameEnd : Text := if format then [colon, tab] else [colon]

mutual

/-- The text of an item at a depth. -/
def render (depth : ℕ) : Item D → Text
  | .null => bytes "null"
  | .bool b => if b then bytes "true" else bytes "false"
  | .number d => renderNumber F d
  | .string s => renderString s
  | .array child => openBracket :: (renderElements (depth + 1) child ++ [closeBracket])
  | .object child =>
      openBrace :: (lineBreak format ++ renderMembers (depth + 1) child ++ tabs format depth
        ++ [closeBrace])

/-- The text between the brackets of an array. -/
def renderElements (depth : ℕ) : Elements D → Text
  | .nil => []
  | .cons x next =>
      render depth x ++ next.separator format ++ renderElements depth next

/-- The text between the braces of an object. -/
def renderMembers (depth : ℕ) : Members D → Text
  | .nil => []
  | .cons s x next =>
      tabs format depth ++ renderString s ++ nameEnd format ++ render depth x ++ next.separator
        ++ lineBreak format ++ renderMembers depth next

end

end Render

/-! ### Depth, and what is kept -/

section Kept

variable {D : Type} (F : Floats D)

/-- The number of children. -/
def Elements.length : Elements D → ℕ
  | .nil => 0
  | .cons _ next => next.length + 1

/-- The number of members. -/
def Members.length : Members D → ℕ
  | .nil => 0
  | .cons _ _ next => next.length + 1

mutual

/-- How deep arrays and objects are nested. -/
def Item.depth : Item D → ℕ
  | .array child => child.depth + 1
  | .object child => child.depth + 1
  | _ => 0

/-- How deep the deepest element is nested. -/
def Elements.depth : Elements D → ℕ
  | .nil => 0
  | .cons x next => max x.depth next.depth

/-- How deep the deepest member is nested. -/
def Members.depth : Members D → ℕ
  | .nil => 0
  | .cons _ x next => max x.depth next.depth

end

mutual

/-- What printing keeps of an item. -/
def Item.kept : Item D → Item D
  | .null => .null
  | .bool b => .bool b
  | .number d => if F.finite d = false then .null else .number d
  | .string s => .string s
  | .array child => .array child.kept
  | .object child => .object child.kept

/-- What printing keeps of elements. -/
def Elements.kept : Elements D → Elements D
  | .nil => .nil
  | .cons x next => .cons x.kept next.kept

/-- What printing keeps of members, which is their names in any case. -/
def Members.kept : Members D → Members D
  | .nil => .nil
  | .cons s x next => .cons s x.kept next.kept

end

end Kept

end CJson

end Hearthbeat
