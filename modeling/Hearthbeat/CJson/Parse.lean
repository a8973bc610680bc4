import Hearthbeat.CJson.Item
import Hearthbeat.Memory.Access

/-!
`cJSON.c`: the parser, on the bytes of a C string and its NUL.

* `scan`, `decode`: the two loops of `parse_string`, which find the end of the string and
  copy it into a block that the first has measured.
* `parseValue`, with `parseArray` and `parseObject`: `left` says how much deeper the
  nesting may get, so the recursion is on it.
* `parse`: `cJSON_Parse`.
-/

namespace Hearthbeat.CJson

/-- The limit of the nesting. -/
def nestingLimit : ℕ := 1000

variable {D : Type} (F : Floats D) (content : List Byte)

/-- The literal stands at the offset. -/
def standsAt (o : ℕ) (literal : Text) : Bool :=
  decide (o + literal.length ≤ content.length) &&
    ((content.drop o).take literal.length == literal)

/-- `buffer_skip_whitespace`: at the end of the buffer, back to its last byte. -/
def skipWhitespace (o : ℕ) : ℕ :=
  let o' := o + ((content.drop o).takeWhile fun b => decide (b ≤ 32)).length
  if o' = content.length then o' - 1 else o'

/-- `skip_utf8_bom`, at the start of the buffer. -/
def skipUtf8Bom : ℕ := if 4 < content.length ∧ content.take 3 = [0xEF, 0xBB, 0xBF] then 3 else 0

/-! ### Numbers -/

/-- What `parse_number` copies into its buffer of 64 bytes. -/
def numberText (o : ℕ) : Text := ((content.drop o).take 63).takeWhile isNumberByte

/-- The source's `parse_number`, with what `strtod` makes of the copied bytes. -/
def parseNumber (o : ℕ) : Access (Item D × ℕ) :=
  match F.strtod (numberText content o) with
  | none => .fail
  | some (d, n) => .ok (.number d, o + n)

/-! ### Strings -/

/-- The first loop of `parse_string`: how far the closing quote is, and how many bytes
are skipped on the way. -/
def scan : List Byte → Option (ℕ × ℕ)
  | [] => none
  | b :: s =>
      if b = quote then some (0, 0)
      else if b = backslash then
        match s with
        | [] => none
        | _ :: s => (scan s).map fun (n, skipped) => (n + 2, skipped + 1)
      else (scan s).map fun (n, skipped) => (n + 1, skipped)

section Scan

variable (b : Byte) (s : List Byte)

@[simp] lemma scan_quote : scan (quote :: s) = some (0, 0) := by cases s <;> rfl

@[simp] lemma scan_escape :
    scan (backslash :: b :: s) = (scan s).map fun (n, skipped) => (n + 2, skipped + 1) := rfl

variable {b} in
lemma scan_plain (hquote : b ≠ quote) (hslash : b ≠ backslash) :
    scan (b :: s) = (scan s).map fun (n, skipped) => (n + 1, skipped) := by
  cases s <;> simp [scan, hquote, hslash]

end Scan

/-- The value of a hexadecimal digit, of either case. -/
def hexValue (b : Byte) : Option ℕ :=
  if 48 ≤ b ∧ b ≤ 57 then some (b.toNat - 48)
  else if 65 ≤ b ∧ b ≤ 70 then some (10 + b.toNat - 65)
  else if 97 ≤ b ∧ b ≤ 102 then some (10 + b.toNat - 97)
  else none

/-- The source's `parse_hex4`, from its `k` last digits on: 0 from the first byte that is
none. -/
def parseHex : ℕ → ℕ → List Byte → Access ℕ
  | 0, h, _ => .ok h
  | _ + 1, _, [] => .fault
  | k + 1, h, b :: s =>
      match hexValue b with
      | none => .ok 0
      | some d => parseHex k (h * 16 + d) s

/-- The source's `parse_hex4`. -/
def parseHex4 (i : ℕ) : Access ℕ := parseHex 4 0 (content.drop i)

/-- The bytes of a code point behind the first, and what is left of it. -/
def continuation : ℕ → ℕ → List Byte → ℕ × List Byte
  | 0, codepoint, tail => (codepoint, tail)
  | k + 1, codepoint, tail =>
      continuation k (codepoint >>> 6) (UInt8.ofNat ((codepoint ||| 0x80) &&& 0xBF) :: tail)

/-- The UTF-8 of a code point, none if it is too large. -/
def utf8 (codepoint : ℕ) : Option (List Byte) :=
  if codepoint < 0x80 then some [UInt8.ofNat (codepoint &&& 0x7F)]
  else if codepoint < 0x800 then some (encode 1 0xC0)
  else if codepoint < 0x10000 then some (encode 2 0xE0)
  else if codepoint ≤ 0x10FFFF then some (encode 3 0xF0)
  else none
where
  encode (k mark : ℕ) : List Byte :=
    let (first, tail) := continuation k codepoint []
    UInt8.ofNat ((first ||| mark) &&& 0xFF) :: tail

/-- The source's `utf16_literal_to_utf8`: the bytes, and the length of the literal. -/
def utf16LiteralToUtf8 (i stop : ℕ) : Access (List Byte × ℕ) :=
  if stop < i + 6 then .fail
  else do
    let first ← parseHex4 content (i + 2)
    if 0xDC00 ≤ first ∧ first ≤ 0xDFFF then .fail
    else if 0xD800 ≤ first ∧ first ≤ 0xDBFF then
      if stop < i + 12 then .fail
      else do
        let b₀ ← .read content[i + 6]?
        if b₀ ≠ backslash then .fail
        else do
          let b₁ ← .read content[i + 7]?
          if b₁ ≠ byte 'u' then .fail
          else do
            let second ← parseHex4 content (i + 8)
            if second < 0xDC00 ∨ 0xDFFF < second then .fail
            else match utf8 (0x10000 + (((first &&& 0x3FF) <<< 10) ||| (second &&& 0x3FF))) with
              | none => .fail
              | some bytes => .ok (bytes, 12)
    else match utf8 first with
      | none => .fail
      | some bytes => .ok (bytes, 6)

/-- The escapes of one byte. -/
def unescape (b : Byte) : Option Byte :=
  if b = byte 'b' then some 8
  else if b = byte 'f' then some 12
  else if b = byte 'n' then some 10
  else if b = byte 'r' then some 13
  else if b = byte 't' then some 9
  else if b = quote ∨ b = backslash ∨ b = byte '/' then some b
  else none

/-- What stands for bytes of the string at `i`, and how long it is. -/
def decodeOne (i stop : ℕ) : Access (List Byte × ℕ) := do
  let b ← .read content[i]?
  if b ≠ backslash then .ok ([b], 1)
  else do
    let e ← .read content[i + 1]?
    match unescape e with
    | some x => .ok ([x], 2)
    | none => if e = byte 'u' then utf16LiteralToUtf8 content i stop else .fail

/-- The second loop of `parse_string`, into a block of `size` bytes; the NUL behind the
copy needs room, too. -/
def decode (stop size : ℕ) : ℕ → ℕ → List Byte → Access (List Byte)
  | 0, _, _ => .fault
  | fuel + 1, i, out =>
      if i < stop then do
        let (x, n) ← decodeOne content i stop
        if out.length + x.length ≤ size then decode stop size fuel (i + n) (out ++ x) else .fault
      else if out.length < size then .ok out else .fault

/-- The source's `parse_string`: the string, and the offset behind its closing quote. -/
def parseString (o : ℕ) : Access (Str × ℕ) := do
  let b ← .read content[o]?
  if b ≠ quote then .fail
  else match scan (content.drop (o + 1)) with
    | none => .fail
    | some (n, skipped) => do
        let out ← decode content (o + 1 + n) (n + 1 - skipped + 1) (n + 1) (o + 1) []
        .ok (Str.of out, o + 1 + n + 1)

/-! ### Values -/

variable (value : ℕ → Access (Item D × ℕ))

/-- The loop of `parse_array`, from the byte before an element on. -/
def parseElements : ℕ → ℕ → Access (Elements D × ℕ)
  | 0, _ => .fault
  | fuel + 1, o => do
      let (x, o) ← value (skipWhitespace content (o + 1))
      let o := skipWhitespace content o
      if content[o]? = some comma then do
        let (next, o) ← parseElements fuel o
        .ok (.cons x next, o)
      else if content[o]? = some closeBracket then .ok (.cons x .nil, o + 1) else .fail

/-- The source's `parse_array` at its bracket. -/
def parseArray (o : ℕ) : Access (Item D × ℕ) := do
  let o := skipWhitespace content (o + 1)
  match content[o]? with
  | none => .fail
  | some b =>
      if b = closeBracket then .ok (.array .nil, o + 1)
      else do
        let (child, o) ← parseElements content value content.length (o - 1)
        .ok (.array child, o)

/-- The loop of `parse_object`, from the byte before a name on. -/
def parseMembers : ℕ → ℕ → Access (Members D × ℕ)
  | 0, _ => .fault
  | fuel + 1, o => do
      let (s, o) ← parseString content (skipWhitespace content (o + 1))
      let o := skipWhitespace content o
      if content[o]? ≠ some colon then .fail
      else do
        let (x, o) ← value (skipWhitespace content (o + 1))
        let o := skipWhitespace content o
        if content[o]? = some comma then do
          let (next, o) ← parseMembers fuel o
          .ok (.cons s x next, o)
        else if content[o]? = some closeBrace then .ok (.cons s x .nil, o + 1) else .fail

/-- The source's `parse_object` at its brace. -/
def parseObject (o : ℕ) : Access (Item D × ℕ) := do
  let o := skipWhitespace content (o + 1)
  match content[o]? with
  | none => .fail
  | some b =>
      if b = closeBrace then .ok (.object .nil, o + 1)
      else do
        let (child, o) ← parseMembers content value content.length (o - 1)
        .ok (.object child, o)

/-- The source's `parse_value`, where arrays and objects may be nested `left` deep. -/
def parseValue (left o : ℕ) : Access (Item D × ℕ) :=
  if standsAt content o (bytes "null") then .ok (.null, o + 4)
  else if standsAt content o (bytes "false") then .ok (.bool false, o + 5)
  else if standsAt content o (bytes "true") then .ok (.bool true, o + 4)
  else match content[o]? with
    | none => .fail
    | some b =>
        if b = quote then do
          let (s, o) ← parseString content o
          .ok (.string s, o)
        else if b = byte '-' ∨ isDigit b then parseNumber F content o
        else match left with
          | 0 => .fail
          | left + 1 =>
              if b = openBracket then parseArray content (parseValue left) o
              else if b = openBrace then parseObject content (parseValue left) o
              else .fail

/-- The source's `cJSON_Parse`: the item at the start of a text, whatever stands behind
it. -/
def parse (text : Text) : Access (Item D) := do
  let content := text ++ [0]
  let (x, _) ← parseValue F content nestingLimit (skipWhitespace content (skipUtf8Bom content))
  .ok x

end Hearthbeat.CJson
