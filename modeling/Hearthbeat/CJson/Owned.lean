import Hearthbeat.CJson.Safe
import Hearthbeat.Memory.Pool

/-!
The parser of `cJSON.c` with the blocks that it allocates, any of which may fail.

* `Node`: items in memory, linked as a `cJSON` is. `Node.items` are the items that it stands
  for, `Node.blocks` the blocks that it is made of, and `Node.delete` frees them.
* `Owned.parseValue` and what it calls: the parser. Where a loop fails it deletes the list that
  it has built, with the item that it is at.
* `Stores`: they return what the parser on values returns, in new blocks, or leave no block
  behind (`parseElements_yields`, `parseMembers_yields`, `parseValue_stores`).
* `parse_owned`: so does `cJSON_Parse`, and `cJSON_Delete` frees what it returns.
-/

namespace Hearthbeat.CJson

/-- The types of items, a number with its double. -/
inductive Kind (D : Type) where
  | invalid
  | false
  | true
  | null
  | number (valuedouble : D)
  | string
  | array
  | object
  deriving DecidableEq

/-- A pointer to a `cJSON`: the null pointer, or the number of a block and what is in it. A
string has a block of its own. -/
inductive Node (D : Type) where
  | null
  | item (block : ℕ) (type : Kind D) (valuestring string : Option (ℕ × Str)) (child next : Node D)
  deriving DecidableEq

/-- What `parse_value` stores in the item that it is called with. -/
structure Fields (D : Type) where
  type : Kind D
  valuestring : Option (ℕ × Str)
  child : Node D

variable {D : Type}

/-! ### Items in memory -/

/-- A new item, as `cJSON_New_Item` clears it. -/
def Fields.zero : Fields D := ⟨.invalid, none, .null⟩

/-- An item that is the last of its list. -/
def Fields.node (f : Fields D) (block : ℕ) (string : Option (ℕ × Str)) : Node D :=
  .item block f.type f.valuestring string f.child .null

/-- The elements of a list, whatever their names are. -/
def Elements.of : List (Option Str × Item D) → Elements D
  | [] => .nil
  | x :: xs => .cons x.2 (Elements.of xs)

/-- The members of a list, none where one has no name. -/
def Members.of : List (Option Str × Item D) → Option (Members D)
  | [] => some .nil
  | x :: xs => do
      let s ← x.1
      let next ← Members.of xs
      some (.cons s x.2 next)

/-- Members with their names. -/
def Members.list : List (Str × Item D) → Members D
  | [] => .nil
  | x :: xs => .cons x.1 x.2 (Members.list xs)

/-- The item of a type, with its string and its children. -/
def Kind.item (valuestring : Option Str) (child : List (Option Str × Item D)) :
    Kind D → Option (Item D)
  | .invalid => none
  | .false => some (.bool Bool.false)
  | .true => some (.bool Bool.true)
  | .null => some .null
  | .number d => some (.number d)
  | .string => valuestring.map .string
  | .array => some (.array (Elements.of child))
  | .object => (Members.of child).map .object

namespace Node

/-- The items of a list with their names, none where one of them is not valid. -/
def items : Node D → Option (List (Option Str × Item D))
  | null => some []
  | item _ type valuestring string child next => do
      let children ← child.items
      let x ← type.item (valuestring.map Prod.snd) children
      let xs ← next.items
      some ((string.map Prod.snd, x) :: xs)

/-- The source's attachment of an item at the end of a list. -/
def append : Node D → Node D → Node D
  | null, last => last
  | item block type valuestring string child next, last =>
      item block type valuestring string child (next.append last)

/-- The block of a string, if there is one. -/
def stringBlock : Option (ℕ × Str) → Multiset ℕ
  | none => 0
  | some s => {s.1}

/-- The blocks of the items of a list and of all that is below them. -/
def blocks : Node D → Multiset ℕ
  | null => 0
  | item block _ valuestring string child next =>
      child.blocks + (stringBlock valuestring + (stringBlock string + ({block} + next.blocks)))

/-- A string is freed if there is one. -/
def freeString (s : Option (ℕ × Str)) (p : Pool) : Access Pool :=
  match s with
  | none => .ok p
  | some s => p.free s.1

/-- The source's `cJSON_Delete`. -/
def delete : Node D → Pool → Access Pool
  | null, p => .ok p
  | item block _ valuestring string child next, p => do
      let p ← child.delete p
      let p ← freeString valuestring p
      let p ← freeString string p
      let p ← p.free block
      next.delete p

end Node

/-- The blocks of the fields. -/
def Fields.blocks (f : Fields D) : Multiset ℕ := f.child.blocks + Node.stringBlock f.valuestring

/-- The item that the fields stand for, if they are valid. -/
def Fields.item (f : Fields D) : Option (Item D) :=
  f.child.items.bind fun xs => f.type.item (f.valuestring.map Prod.snd) xs

lemma Members.of_map (xs : List (Str × Item D)) :
    Members.of (xs.map fun x => (some x.1, x.2)) = some (Members.list xs) := by
  induction xs with
  | nil => rfl
  | cons x xs ih =>
      rw [List.map_cons, Members.of, ih]
      rfl

namespace Node

variable {n last : Node D} {p : Pool} {rest : Multiset ℕ}

lemma freeString_spec {s : Option (ℕ × Str)} (h : p.live.val = stringBlock s + rest) :
    (freeString s p).Spec False (p.Left rest) := by
  cases s with
  | none => exact ⟨h.trans (zero_add rest), rfl⟩
  | some s => exact Pool.free_spec h

/-- `cJSON_Delete` frees every block of a list, once. -/
lemma delete_spec (h : p.live.val = n.blocks + rest) :
    (n.delete p).Spec False (p.Left rest) := by
  induction n generalizing p rest with
  | null => exact ⟨h.trans (zero_add rest), rfl⟩
  | item block type valuestring string child next ihchild ihnext =>
      simp only [blocks, add_assoc] at h
      rw [delete]
      refine (ihchild h).bind fun p₁ h₁ => ?_
      refine (freeString_spec h₁.live).bind fun p₂ h₂ => ?_
      refine (freeString_spec h₂.live).bind fun p₃ h₃ => ?_
      refine (Pool.free_spec h₃.live).bind fun p₄ h₄ => ?_
      exact (ihnext h₄.live).imp fun p₅ h₅ => (((h₁.trans h₂).trans h₃).trans h₄).trans h₅

lemma blocks_append : (n.append last).blocks = n.blocks + last.blocks := by
  induction n with
  | null => exact (zero_add _).symm
  | item block type valuestring string child next _ ih => simp only [append, blocks, ih, add_assoc]

lemma items_append {xs ys : List (Option Str × Item D)} (hn : n.items = some xs)
    (hlast : last.items = some ys) : (n.append last).items = some (xs ++ ys) := by
  induction n generalizing xs with
  | null =>
      obtain rfl := Option.some.inj hn
      exact hlast
  | item block type valuestring string child next _ ih =>
      rw [items] at hn
      obtain ⟨children, hchildren, hn⟩ := Option.bind_eq_some_iff.mp hn
      obtain ⟨x, hx, hn⟩ := Option.bind_eq_some_iff.mp hn
      obtain ⟨zs, hzs, hn⟩ := Option.bind_eq_some_iff.mp hn
      obtain rfl := Option.some.inj hn
      simp only [append, items, hchildren, hx, ih hzs, Option.bind_eq_bind, Option.bind_some,
        List.cons_append]

end Node

section Fields

variable {x : Fields D} {block : ℕ} {string : Option (ℕ × Str)}

lemma Fields.blocks_node :
    (x.node block string).blocks = x.blocks + (Node.stringBlock string + {block}) := by
  simp only [node, Node.blocks, blocks, add_zero, add_assoc]

lemma Fields.blocks_zero : (zero : Fields D).blocks = 0 := rfl

/-- A list with a new item has the blocks of the item in addition. -/
lemma Node.blocks_append_node {head : Node D} {base : Multiset ℕ} :
    (head.append (x.node block string)).blocks + base
      = x.blocks + (stringBlock string + ({block} + (head.blocks + base))) := by
  rw [blocks_append, Fields.blocks_node]
  abel

variable (block string) in
lemma Fields.items_node {y : Item D} (h : x.item = some y) :
    (x.node block string).items = some [(string.map Prod.snd, y)] := by
  obtain ⟨xs, hxs, hy⟩ := Option.bind_eq_some_iff.mp h
  simp only [node, Node.items, hxs, hy, Option.bind_eq_bind, Option.bind_some]

end Fields

/-! ### The parser with its blocks -/

namespace Owned

variable (F : Floats D) (answers : ℕ → Bool) (content : List Byte)

/-- The end of a function that fails: what it has built so far is deleted. -/
def fail {α : Type} (head : Node D) (p : Pool) : Access (Option α × Pool) := do
  let p ← head.delete p
  .ok (none, p)

/-- The source's `parse_string`, with the block of its output. -/
def parseString (o : ℕ) (p : Pool) : Access (Option ((ℕ × Str) × ℕ) × Pool) := do
  let b ← .read content[o]?
  if b ≠ quote then .ok (none, p)
  else match scan (content.drop (o + 1)) with
    | none => .ok (none, p)
    | some (n, skipped) =>
        match p.malloc answers with
        | (none, p) => .ok (none, p)
        | (some output, p) =>
            match decode content (o + 1 + n) (n + 1 - skipped + 1) (n + 1) (o + 1) [] with
            | .fault => .fault
            | .fail => do
                let p ← p.free output
                .ok (none, p)
            | .ok out => .ok (some ((output, Str.of out), o + 1 + n + 1), p)

/-- The source's `parse_number`, which needs no block. -/
def parseNumber (o : ℕ) (p : Pool) : Access (Option (Fields D × ℕ) × Pool) :=
  match F.strtod (numberText content o) with
  | none => .ok (none, p)
  | some (d, n) => .ok (some (⟨.number d, none, .null⟩, o + n), p)

variable (value : ℕ → Pool → Access (Option (Fields D × ℕ) × Pool))

/-- The loop of `parse_array`, with the list that it has built so far. -/
def parseElements : ℕ → ℕ → Node D → Pool → Access (Option (Node D × ℕ) × Pool)
  | 0, _, _, _ => .fault
  | fuel + 1, o, head, p =>
      match p.malloc answers with
      | (none, p) => fail head p
      | (some block, p) => do
          let (r, p) ← value (skipWhitespace content (o + 1)) p
          match r with
          | none => fail (head.append (Fields.zero.node block none)) p
          | some (x, o) =>
              let head := head.append (x.node block none)
              let o := skipWhitespace content o
              if content[o]? = some comma then parseElements fuel o head p
              else if content[o]? = some closeBracket then .ok (some (head, o + 1), p)
              else fail head p

/-- The source's `parse_array` at its bracket. -/
def parseArray (o : ℕ) (p : Pool) : Access (Option (Fields D × ℕ) × Pool) :=
  let o := skipWhitespace content (o + 1)
  match content[o]? with
  | none => .ok (none, p)
  | some b =>
      if b = closeBracket then .ok (some (⟨.array, none, .null⟩, o + 1), p)
      else do
        let (r, p) ← parseElements answers content value content.length (o - 1) .null p
        .ok (r.map fun (head, o) => (⟨.array, none, head⟩, o), p)

/-- The loop of `parse_object`, with the list that it has built so far. -/
def parseMembers : ℕ → ℕ → Node D → Pool → Access (Option (Node D × ℕ) × Pool)
  | 0, _, _, _ => .fault
  | fuel + 1, o, head, p =>
      match p.malloc answers with
      | (none, p) => fail head p
      | (some block, p) => do
          let (r, p) ← parseString answers content (skipWhitespace content (o + 1)) p
          match r with
          | none => fail (head.append (Fields.zero.node block none)) p
          | some (s, o) =>
              -- the name is the string of the item from here on
              let named : Fields D := ⟨.string, none, .null⟩
              let o := skipWhitespace content o
              if content[o]? ≠ some colon then fail (head.append (named.node block (some s))) p
              else do
                let (r, p) ← value (skipWhitespace content (o + 1)) p
                match r with
                | none => fail (head.append (named.node block (some s))) p
                | some (x, o) =>
                    let head := head.append (x.node block (some s))
                    let o := skipWhitespace content o
                    if content[o]? = some comma then parseMembers fuel o head p
                    else if content[o]? = some closeBrace then .ok (some (head, o + 1), p)
                    else fail head p

/-- The source's `parse_object` at its brace. -/
def parseObject (o : ℕ) (p : Pool) : Access (Option (Fields D × ℕ) × Pool) :=
  let o := skipWhitespace content (o + 1)
  match content[o]? with
  | none => .ok (none, p)
  | some b =>
      if b = closeBrace then .ok (some (⟨.object, none, .null⟩, o + 1), p)
      else do
        let (r, p) ← parseMembers answers content value content.length (o - 1) .null p
        .ok (r.map fun (head, o) => (⟨.object, none, head⟩, o), p)

/-- The source's `parse_value`, where arrays and objects may be nested `left` deep. -/
def parseValue (left o : ℕ) (p : Pool) : Access (Option (Fields D × ℕ) × Pool) :=
  if standsAt content o (bytes "null") then .ok (some (⟨.null, none, .null⟩, o + 4), p)
  else if standsAt content o (bytes "false") then .ok (some (⟨.false, none, .null⟩, o + 5), p)
  else if standsAt content o (bytes "true") then .ok (some (⟨.true, none, .null⟩, o + 4), p)
  else match content[o]? with
    | none => .ok (none, p)
    | some b =>
        if b = quote then do
          let (r, p) ← parseString answers content o p
          .ok (r.map fun (s, o) => (⟨.string, some s, .null⟩, o), p)
        else if b = byte '-' ∨ isDigit b then parseNumber F content o p
        else match left with
          | 0 => .ok (none, p)
          | left + 1 =>
              if b = openBracket then parseArray answers content (parseValue left) o p
              else if b = openBrace then parseObject answers content (parseValue left) o p
              else .ok (none, p)

/-- The source's `cJSON_Parse`; a null pointer where it returns none. -/
def parse (text : Text) (p : Pool) : Access (Node D × Pool) :=
  let content := text ++ [0]
  match p.malloc answers with
  | (none, p) => .ok (.null, p)
  | (some block, p) => do
      let o := skipWhitespace content (skipUtf8Bom content)
      let (r, p) ← parseValue F answers content nestingLimit o p
      match r with
      | none => do
          let p ← (Fields.zero.node block none : Node D).delete p
          .ok (.null, p)
      | some (x, _) => .ok (x.node block none, p)

/-! ### What it leaves in memory -/

section Stores

variable {F answers content}

lemma fail_yields {α β : Type} {plain : Access β} {rel : α → β → Prop} {own : α → Multiset ℕ}
    {before p : Pool} {base : Multiset ℕ} {head : Node D}
    (hfail : plain = .fail ∨ p.refused = true) (hlive : p.live.val = head.blocks + base) :
    Yields plain rel own before base (fail head p) :=
  yields_none hfail (Node.delete_spec hlive)

lemma parseString_yields (o : ℕ) (p : Pool) :
    Yields (CJson.parseString content o) (fun a b => a.1.2 = b.1 ∧ a.2 = b.2)
      (fun a => {a.1.1}) p p.live.val (parseString answers content o p) := by
  rw [parseString, CJson.parseString]
  cases content[o]? with
  | none => exact rfl
  | some b =>
      simp only [Access.read_some, Access.ok_bind]
      split_ifs
      · exact ⟨.inl rfl, rfl⟩
      cases scan (content.drop (o + 1)) with
      | none => exact ⟨.inl rfl, rfl⟩
      | some r =>
          obtain ⟨n, skipped⟩ := r
          simp only
          rcases p.malloc_cases answers with ⟨output, p₁, hmalloc, h₁⟩ | ⟨p₁, hmalloc, h₁, hfailed⟩
          all_goals rw [hmalloc]
          · simp only
            cases decode content (o + 1 + n) (n + 1 - skipped + 1) (n + 1) (o + 1) [] with
            | ok out => exact ⟨⟨_, rfl, rfl, rfl⟩, h₁⟩
            | fail => exact yields_none (.inl rfl) (Pool.free_spec h₁.live)
            | fault => exact rfl
          · exact ⟨.inr hfailed, h₁⟩

/-- What is stored is the item, and its blocks are new. -/
def Stores (plain : ℕ → Access (Item D × ℕ))
    (value : ℕ → Pool → Access (Option (Fields D × ℕ) × Pool)) : Prop :=
  ∀ o p, Yields (plain o) (fun a b => a.1.item = some b.1 ∧ a.2 = b.2)
    (fun a => a.1.blocks) p p.live.val (value o p)

lemma parseNumber_stores :
    Stores (CJson.parseNumber F content) (parseNumber F content) := by
  intro o p
  rw [parseNumber, CJson.parseNumber]
  cases F.strtod (numberText content o) with
  | none => exact ⟨.inl rfl, rfl⟩
  | some r => exact ⟨⟨_, rfl, rfl, rfl⟩, (zero_add _).symm, rfl⟩

variable {plain : ℕ → Access (Item D × ℕ)} {value}

/-- The list of an array, from the elements on that are there already. -/
lemma parseElements_yields (hvalue : Stores plain value) {fuel o : ℕ} {head : Node D}
    {p : Pool} {xs : List (Option Str × Item D)} {base : Multiset ℕ} (hhead : head.items = some xs)
    (hlive : p.live.val = head.blocks + base) :
    Yields (CJson.parseElements content plain fuel o)
      (fun a b => (∃ ys, a.1.items = some (xs ++ ys) ∧ Elements.of ys = b.1) ∧ a.2 = b.2)
      (fun a => a.1.blocks) p base (parseElements answers content value fuel o head p) := by
  induction fuel generalizing o head p xs with
  | zero => exact rfl
  | succ fuel ih =>
      rw [parseElements]
      rcases p.malloc_cases answers with ⟨block, p₁, hmalloc, h₁⟩ | ⟨p₁, hmalloc, h₁, hfailed⟩ <;>
        rw [hmalloc]
      · rw [CJson.parseElements]
        refine (hvalue _ p₁).bind (fun a b p₂ hrel h₂ => ?_) fun p₂ h₂ x hx => ?_
        · obtain ⟨x, o₁⟩ := a
          obtain ⟨y, o₂⟩ := b
          obtain ⟨hitem, rfl⟩ := hrel
          have hitems := Node.items_append hhead (Fields.items_node block none hitem)
          have hblocks : p₂.live.val = (head.append (x.node block none)).blocks + base := by
            rw [h₂.live, h₁.live, hlive, Node.blocks_append_node, Node.stringBlock, zero_add]
          simp only
          split_ifs
          · refine ((ih hitems hblocks).after (h₁.trans h₂)).map fun a b hrel => ?_
            obtain ⟨⟨ys, hys, hof⟩, ho⟩ := hrel
            refine ⟨_, rfl, ⟨(none, y) :: ys, ?_, ?_⟩, ho⟩
            · rw [hys, List.append_assoc]
              rfl
            · rw [Elements.of, hof]
          · exact ⟨⟨_, rfl, ⟨[(none, y)], hitems, rfl⟩, rfl⟩, hblocks, (h₁.trans h₂).refused⟩
          · exact fail_yields (.inl rfl) hblocks
        · refine fail_yields hx ?_
          rw [h₂, h₁.live, hlive, Node.blocks_append_node, Fields.blocks_zero, zero_add,
            Node.stringBlock, zero_add]
      · exact fail_yields (.inr hfailed) (h₁.trans hlive)

lemma parseArray_stores (hvalue : Stores plain value) :
    Stores (CJson.parseArray content plain) (parseArray answers content value) := by
  intro o p
  rw [parseArray, CJson.parseArray]
  simp only
  cases content[skipWhitespace content (o + 1)]? with
  | none => exact ⟨.inl rfl, rfl⟩
  | some b =>
      simp only
      split_ifs
      · exact ⟨⟨_, rfl, rfl, rfl⟩, (zero_add _).symm, rfl⟩
      have hempty : (Node.null : Node D).items = some [] := rfl
      refine (parseElements_yields hvalue hempty (zero_add _).symm).bind
        (fun a b p₁ hrel h₁ => ?_) fun p₁ h₁ x hx => ⟨hx, h₁⟩
      obtain ⟨⟨ys, hys, hof⟩, ho⟩ := hrel
      refine ⟨⟨_, rfl, ?_, ho⟩, ?_, h₁.refused⟩
      swap
      · simpa [Fields.blocks, Node.stringBlock] using h₁.live
      simp only [Fields.item, hys, Option.bind_some, List.nil_append, Kind.item, hof]

/-- The list of an object, from the members on that are there already. -/
lemma parseMembers_yields (hvalue : Stores plain value) {fuel o : ℕ} {head : Node D}
    {p : Pool} {xs : List (Option Str × Item D)} {base : Multiset ℕ} (hhead : head.items = some xs)
    (hlive : p.live.val = head.blocks + base) :
    Yields (CJson.parseMembers content plain fuel o)
      (fun a b => (∃ ys, a.1.items = some (xs ++ ys) ∧ Members.of ys = some b.1) ∧ a.2 = b.2)
      (fun a => a.1.blocks) p base (parseMembers answers content value fuel o head p) := by
  induction fuel generalizing o head p xs with
  | zero => exact rfl
  | succ fuel ih =>
      rw [parseMembers]
      -- the block of the next member
      rcases p.malloc_cases answers with ⟨block, p₁, hmalloc, h₁⟩ | ⟨p₁, hmalloc, h₁, hfailed⟩ <;>
        rw [hmalloc]
      · rw [CJson.parseMembers]
        refine (parseString_yields _ p₁).bind (fun a b p₂ hrel h₂ => ?_) fun p₂ h₂ x hx => ?_
        · obtain ⟨s, o₁⟩ := a
          obtain ⟨t, o₂⟩ := b
          obtain ⟨rfl, rfl⟩ := hrel
          have hnamed : p₂.live.val
              = (head.append ((⟨.string, none, .null⟩ : Fields D).node block (some s))).blocks
                + base := by
            rw [h₂.live, h₁.live, hlive, Node.blocks_append_node, Node.stringBlock]
            exact (zero_add _).symm
          simp only
          split_ifs
          · exact fail_yields (.inl rfl) hnamed
          -- its value, which leaves the blocks of the name and of the members before it
          refine (hvalue _ p₂).bind (fun a b p₃ hrel h₃ => ?_) fun p₃ h₃ x hx => ?_
          · obtain ⟨x, o₃⟩ := a
            obtain ⟨y, o₄⟩ := b
            obtain ⟨hitem, rfl⟩ := hrel
            have hitems := Node.items_append hhead (Fields.items_node block (some s) hitem)
            have hblocks : p₃.live.val = (head.append (x.node block (some s))).blocks + base := by
              rw [h₃.live, h₂.live, h₁.live, hlive, Node.blocks_append_node, Node.stringBlock]
            simp only
            split_ifs
            · refine ((ih hitems hblocks).after ((h₁.trans h₂).trans h₃)).map fun a b hrel => ?_
              obtain ⟨⟨ys, hys, hof⟩, ho⟩ := hrel
              refine ⟨_, rfl, ⟨(some s.2, y) :: ys, ?_, ?_⟩, ho⟩
              · rw [hys, List.append_assoc]
                rfl
              · rw [Members.of, hof]
                rfl
            · exact ⟨⟨_, rfl, ⟨[(some s.2, y)], hitems, rfl⟩, rfl⟩, hblocks,
                ((h₁.trans h₂).trans h₃).refused⟩
            · exact fail_yields (.inl rfl) hblocks
          · exact fail_yields hx (h₃.trans hnamed)
        · refine fail_yields hx ?_
          rw [h₂, h₁.live, hlive, Node.blocks_append_node, Fields.blocks_zero, zero_add,
            Node.stringBlock, zero_add]
      · exact fail_yields (.inr hfailed) (h₁.trans hlive)

lemma parseObject_stores (hvalue : Stores plain value) :
    Stores (CJson.parseObject content plain) (parseObject answers content value) := by
  intro o p
  rw [parseObject, CJson.parseObject]
  simp only
  cases content[skipWhitespace content (o + 1)]? with
  | none => exact ⟨.inl rfl, rfl⟩
  | some b =>
      simp only
      split_ifs
      · exact ⟨⟨_, rfl, rfl, rfl⟩, (zero_add _).symm, rfl⟩
      have hempty : (Node.null : Node D).items = some [] := rfl
      refine (parseMembers_yields hvalue hempty (zero_add _).symm).bind
        (fun a b p₁ hrel h₁ => ?_) fun p₁ h₁ x hx => ⟨hx, h₁⟩
      obtain ⟨⟨ys, hys, hof⟩, ho⟩ := hrel
      refine ⟨⟨_, rfl, ?_, ho⟩, ?_, h₁.refused⟩
      swap
      · simpa [Fields.blocks, Node.stringBlock] using h₁.live
      simp only [Fields.item, hys, Option.bind_some, List.nil_append, Kind.item, hof,
        Option.map_some]

/-- A value is stored, if those nested in it are. -/
lemma parseValue_step {left : ℕ}
    (hnested : ∀ l, left = l + 1 →
      Stores (CJson.parseValue F content l) (parseValue F answers content l)) :
    Stores (CJson.parseValue F content left) (parseValue F answers content left) := by
  intro o p
  rw [parseValue, CJson.parseValue]
  split_ifs
  · exact ⟨⟨_, rfl, rfl, rfl⟩, (zero_add _).symm, rfl⟩
  · exact ⟨⟨_, rfl, rfl, rfl⟩, (zero_add _).symm, rfl⟩
  · exact ⟨⟨_, rfl, rfl, rfl⟩, (zero_add _).symm, rfl⟩
  cases content[o]? with
  | none => exact ⟨.inl rfl, rfl⟩
  | some b =>
      simp only
      by_cases hquote : b = quote
      · rw [if_pos hquote, if_pos hquote]
        refine (parseString_yields o p).bind (fun a b p₁ hrel h₁ => ?_) fun p₁ h₁ x hx => ⟨hx, h₁⟩
        obtain ⟨hs, ho⟩ := hrel
        refine ⟨⟨_, rfl, ?_, ho⟩, ?_, h₁.refused⟩
        swap
        · simpa [Fields.blocks, Node.blocks, Node.stringBlock] using h₁.live
        simp only [Fields.item, Node.items, Option.bind_some, Kind.item, Option.map_some, hs]
      rw [if_neg hquote, if_neg hquote]
      by_cases hnumber : b = byte '-' ∨ isDigit b = true
      · rw [if_pos hnumber, if_pos hnumber]
        exact parseNumber_stores o p
      rw [if_neg hnumber, if_neg hnumber]
      cases left with
      | zero => exact ⟨.inl rfl, rfl⟩
      | succ left =>
          have hvalue := hnested left rfl
          simp only
          split_ifs
          · exact parseArray_stores hvalue o p
          · exact parseObject_stores hvalue o p
          · exact ⟨.inl rfl, rfl⟩

lemma parseValue_stores (left : ℕ) :
    Stores (CJson.parseValue F content left) (parseValue F answers content left) := by
  induction left with
  | zero => exact parseValue_step fun l hl => absurd hl (Nat.succ_ne_zero l).symm
  | succ left ih => exact parseValue_step fun l hl => Nat.succ.inj hl ▸ ih

/-- What `cJSON_Parse` returns has new blocks, and none was refused; or there are none. -/
lemma parse_spec (hF : F.Bounded) (text : Text) (p : Pool) :
    (parse F answers text p).Spec False fun r =>
      (r.1 = .null ∧ r.2.live.val = p.live.val ∧
          (CJson.parse F text = .fail ∨ r.2.refused = true)) ∨
        ∃ x, CJson.parse F text = .ok x ∧ r.1.items = some [(none, x)] ∧
          p.Left (r.1.blocks + p.live.val) r.2 := by
  rw [parse]
  -- the block of the item itself
  rcases p.malloc_cases answers with ⟨block, p₁, hmalloc, h₁⟩ | ⟨p₁, hmalloc, h₁, hfailed⟩
  swap
  · rw [hmalloc]
    exact .inl ⟨rfl, h₁, .inr hfailed⟩
  -- what is stored in it, at the place behind the white space
  have hstores : Stores (CJson.parseValue F (text ++ [0]) nestingLimit)
      (parseValue F answers (text ++ [0]) nestingLimit) := parseValue_stores nestingLimit
  have hyields := hstores (skipWhitespace (text ++ [0]) (skipUtf8Bom (text ++ [0]))) p₁
  have hsafe := (parse_meets hF text).ne_fault
  simp only [CJson.parse] at hsafe ⊢
  simp only [hmalloc]
  generalize text ++ [0] = content at hyields hsafe ⊢
  generalize skipWhitespace content (skipUtf8Bom content) = o at hyields hsafe ⊢
  cases hr : parseValue F answers content nestingLimit o p₁ with
  | fail =>
      rw [hr] at hyields
      exact hyields.elim
  | fault =>
      -- the parser on values would fault, too
      rw [hr] at hyields
      have hfault : CJson.parseValue F content nestingLimit o = .fault := hyields
      exact absurd (by rw [hfault, Access.fault_bind]) hsafe
  | ok r =>
      rw [hr] at hyields
      obtain ⟨r, p₂⟩ := r
      cases r with
      | none =>
          -- nothing is stored, and the item is deleted
          obtain ⟨hfail, h₂⟩ := hyields
          have hnew : p₂.live.val = (Fields.zero.node block none : Node D).blocks + p.live.val := by
            rw [h₂, h₁.live, Fields.blocks_node, Fields.blocks_zero]
            simp [Node.stringBlock]
          refine (Node.delete_spec hnew).bind fun p₃ h₃ => .inl ⟨rfl, h₃.live, ?_⟩
          refine hfail.imp (fun h => ?_) fun h => h₃.refused.trans h
          rw [h, Access.fail_bind]
      | some r =>
          obtain ⟨x, o'⟩ := r
          obtain ⟨⟨⟨y, o''⟩, hvalue, hitem, -⟩, h₂⟩ := hyields
          refine .inr ⟨y, ?_, Fields.items_node block none hitem, ?_, (h₁.trans h₂).refused⟩
          · rw [hvalue]
            rfl
          · simp only
            rw [h₂.live, h₁.live, Fields.blocks_node]
            simp only [Node.stringBlock]
            abel

end Stores

end Owned

/-- Whatever the text and the answers of the allocator, `cJSON_Parse` frees no block that is
not live. If it returns nothing it has freed all that it had allocated, and either the text
is no item or a block was refused. Else it returns the item of the text, whose blocks
are the new ones, and `cJSON_Delete` frees just these. -/
theorem parse_owned {F : Floats D} (hF : F.Bounded) (text : Text) (answers : ℕ → Bool) (p : Pool) :
    ∃ n p', Owned.parse F answers text p = .ok (n, p') ∧
      (n = .null ∧ p'.live = p.live ∧
          (parse F text = .fail ∨ p'.refused = true) ∨
        ∃ x, parse F text = .ok x ∧ n.items = some [(none, x)] ∧
          p'.live.val = n.blocks + p.live.val ∧
          ∃ p'', n.delete p' = .ok p'' ∧ p''.live = p.live) := by
  obtain ⟨⟨n, p'⟩, hparse, h⟩ := (Owned.parse_spec hF text p).exists_ok
  refine ⟨n, p', hparse, ?_⟩
  rcases h with ⟨hnull, hlive, hfail⟩ | ⟨x, hx, hitems, hlive⟩
  · exact .inl ⟨hnull, Finset.val_inj.mp hlive, hfail⟩
  · obtain ⟨p'', hdelete, hleft⟩ := (Node.delete_spec hlive.live).exists_ok
    exact .inr ⟨x, hx, hitems, hlive.live, p'', hdelete, Finset.val_inj.mp hleft.live⟩

/-- The third block, for the string in an array, is not given. -/
theorem parse_owned_halfway :
    ∃ n p', Owned.parse integers (fun i => decide (i < 2)) (bytes "[\"a\", 1]") Pool.start
        = .ok (n, p') ∧
      (n = .null ∧ p'.live = Pool.start.live ∧
          (parse integers (bytes "[\"a\", 1]") = .fail ∨ p'.refused = true) ∨
        ∃ x, parse integers (bytes "[\"a\", 1]") = .ok x ∧ n.items = some [(none, x)] ∧
          p'.live.val = n.blocks + Pool.start.live.val ∧
          ∃ p'', n.delete p' = .ok p'' ∧ p''.live = Pool.start.live) :=
  parse_owned integers_bounded _ _ _

end Hearthbeat.CJson
