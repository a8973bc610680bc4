import Hearthbeat.CJson.Owned

/-!
`cJSON.c`: objects that are built and printed, with their blocks.

* `Owned.createObject`, `createNumber`, `createString`, `addItemToObject`: where an item can
  not be added it is deleted, and the object stays as it is.
* `Filled`: an object to which some members were added one after the other has all of them,
  unless a block was refused. Each function adds one more (`addOrDelete_filled`).
* `Owned.printBlock`: the block of a text, however often it outgrows its buffer. A buffer that
  can not grow is freed (`printBlock_spec`).
-/

namespace Hearthbeat.CJson.Owned

open Pool

variable {D : Type} (answers : ℕ → Bool)

/-! ### The object that is posted -/

/-- A new item with some fields, a null pointer where there is no block for it. -/
def newItem (x : Fields D) (p : Pool) : Node D × Pool :=
  match p.malloc answers with
  | (none, p) => (.null, p)
  | (some block, p) => (x.node block none, p)

/-- The source's `cJSON_CreateObject`. -/
def createObject (p : Pool) : Node D × Pool := newItem answers ⟨.object, none, .null⟩ p

/-- The source's `cJSON_CreateNumber`. -/
def createNumber (d : D) (p : Pool) : Node D × Pool :=
  newItem answers ⟨.number d, none, .null⟩ p

/-- The source's `cJSON_strdup`. -/
def strdup (s : Str) (p : Pool) : Option (ℕ × Str) × Pool :=
  match p.malloc answers with
  | (none, p) => (none, p)
  | (some block, p) => (some (block, s), p)

/-- The source's `cJSON_CreateString`. -/
def createString (s : Str) (p : Pool) : Access (Node D × Pool) :=
  match p.malloc answers with
  | (none, p) => .ok (.null, p)
  | (some block, p) =>
      match strdup answers s p with
      | (none, p) => do
          let p ← ((⟨.string, none, .null⟩ : Fields D).node block none).delete p
          .ok (.null, p)
      | (some copy, p) => .ok ((⟨.string, some copy, .null⟩ : Fields D).node block none, p)

/-- The source's `add_item_to_object`: the object with the item, none where it fails. -/
def addItemToObject (object : Node D) (string : Str) (item : Node D) (p : Pool) :
    Access (Option (Node D) × Pool) :=
  match object, item with
  | .item block type valuestring name child next,
      .item block' type' valuestring' name' child' next' =>
      match strdup answers string p with
      | (none, p) => .ok (none, p)
      | (some key, p) => do
          let p ← Node.freeString name' p
          let item := .item block' type' valuestring' (some key) child' next'
          .ok (some (.item block type valuestring name (child.append item) next), p)
  | _, _ => .ok (none, p)

/-- The end of the functions that add a new item: it is deleted if it can not be added. -/
def addOrDelete (object : Node D) (string : Str) (item : Node D) (p : Pool) :
    Access (Node D × Pool) := do
  let (r, p) ← addItemToObject answers object string item p
  match r with
  | some object => .ok (object, p)
  | none => do
      let p ← item.delete p
      .ok (object, p)

/-- The source's `cJSON_AddNumberToObject`: the object after it. -/
def addNumberToObject (object : Node D) (name : Str) (d : D) (p : Pool) : Access (Node D × Pool) :=
  let (item, p) := createNumber answers d p
  addOrDelete answers object name item p

/-- The source's `cJSON_AddStringToObject`: the object after it. -/
def addStringToObject (object : Node D) (name string : Str) (p : Pool) :
    Access (Node D × Pool) := do
  let (item, p) ← createString answers string p
  addOrDelete answers object name item p

/-- A new item, or none where a block was refused. -/
structure Made (x : Item D) (before : Pool) (r : Node D × Pool) : Prop where
  live : r.2.live.val = r.1.blocks + before.live.val
  item : r.1 = .null ∧ r.2.refused = true ∨
    (∃ s, r.1.items = some [(s, x)]) ∧ r.2.refused = before.refused

/-- A pointer to an object with some members. -/
def IsObject (n : Node D) (members : List (Str × Item D)) : Prop :=
  ∃ block valuestring child, n = .item block .object valuestring none child .null ∧
    child.items = some (members.map fun x => (some x.1, x.2))

/-- What is left of an object to which some members were to be added, in this order: it has
them all, unless a block was refused. -/
structure Filled (members : List (Str × Item D)) (base : Multiset ℕ) (r : Node D × Pool) :
    Prop where
  live : r.2.live.val = r.1.blocks + base
  object : r.1 = .null ∧ r.2.refused = true ∨
    ∃ kept, kept.Sublist members ∧ IsObject r.1 kept ∧ (r.2.refused = false → kept = members)

section Objects

variable {n last object item : Node D} {kept members : List (Str × Item D)} {x : Item D}
  {p p' : Pool} {base : Multiset ℕ}

lemma IsObject.items (h : IsObject n kept) :
    n.items = some [(none, .object (Members.list kept))] := by
  obtain ⟨block, valuestring, child, rfl, hchild⟩ := h
  simp only [Node.items, hchild, Kind.item, Members.of_map, Option.bind_eq_bind,
    Option.bind_some, Option.map_some, Option.map_none]

/-- An item gets another name. -/
lemma items_rename {block : ℕ} {type : Kind D} {valuestring string string' : Option (ℕ × Str)}
    {child next : Node D} {s : Option Str}
    (h : (Node.item block type valuestring string child next).items = some [(s, x)]) :
    (Node.item block type valuestring string' child next).items
      = some [(string'.map Prod.snd, x)] := by
  rw [Node.items] at h ⊢
  obtain ⟨children, hchildren, h⟩ := Option.bind_eq_some_iff.mp h
  obtain ⟨y, hy, h⟩ := Option.bind_eq_some_iff.mp h
  obtain ⟨xs, hxs, h⟩ := Option.bind_eq_some_iff.mp h
  obtain ⟨hhead, rfl⟩ := List.cons.inj (Option.some.inj h)
  obtain ⟨-, rfl⟩ := Prod.mk.inj hhead
  simp only [hchildren, hy, hxs, Option.bind_eq_bind, Option.bind_some]

/-- A copy of a string, none where its block was refused. -/
lemma strdup_cases (s : Str) (p : Pool) :
    (∃ block p', strdup answers s p = (some (block, s), p') ∧
        p.Left ({block} + p.live.val) p') ∨
      ∃ p', strdup answers s p = (none, p') ∧ p'.live.val = p.live.val ∧ p'.refused = true := by
  simp only [strdup]
  rcases p.malloc_cases answers with ⟨block, p₁, hmalloc, h₁⟩ | ⟨p₁, hmalloc, h₁, hfailed⟩
  all_goals rw [hmalloc]
  · exact .inl ⟨block, p₁, rfl, h₁⟩
  · exact .inr ⟨p₁, rfl, h₁, hfailed⟩

lemma newItem_made {f : Fields D} (hf : f.blocks = 0) (hitem : f.item = some x) (p : Pool) :
    Made x p (newItem answers f p) := by
  rw [newItem]
  rcases p.malloc_cases answers with ⟨block, p₁, hmalloc, h₁⟩ | ⟨p₁, hmalloc, h₁, hfailed⟩
  all_goals rw [hmalloc]
  · refine ⟨?_, .inr ⟨⟨_, Fields.items_node block none hitem⟩, h₁.refused⟩⟩
    simp only [h₁.live, Fields.blocks_node, hf]
    simp [Node.stringBlock]
  · exact ⟨h₁.trans (zero_add _).symm, .inl ⟨rfl, hfailed⟩⟩

lemma createObject_filled (p : Pool) :
    Filled [] p.live.val (createObject answers p : Node D × Pool) := by
  rw [createObject, newItem]
  rcases p.malloc_cases answers with ⟨block, p₁, hmalloc, h₁⟩ | ⟨p₁, hmalloc, h₁, hfailed⟩
  all_goals rw [hmalloc]
  · refine ⟨?_, .inr ⟨[], List.Sublist.refl _, ⟨block, none, .null, rfl, rfl⟩, fun _ => rfl⟩⟩
    simp only [h₁.live, Fields.blocks_node]
    simp [Fields.blocks, Node.blocks, Node.stringBlock]
  · exact ⟨h₁.trans (zero_add _).symm, .inl ⟨rfl, hfailed⟩⟩

lemma createString_made (s : Str) (p : Pool) :
    (createString answers s p).Spec False (Made (.string s : Item D) p) := by
  rw [createString]
  rcases p.malloc_cases answers with ⟨block, p₁, hmalloc, h₁⟩ | ⟨p₁, hmalloc, h₁, hfailed⟩
  all_goals rw [hmalloc]
  swap
  · exact ⟨h₁.trans (zero_add _).symm, .inl ⟨rfl, hfailed⟩⟩
  simp only
  rcases strdup_cases answers s p₁ with ⟨copy, p₂, hstrdup, h₂⟩ | ⟨p₂, hstrdup, h₂, hfailed⟩
  all_goals rw [hstrdup]
  · refine ⟨?_, .inr ⟨⟨none, rfl⟩, (h₁.trans h₂).refused⟩⟩
    simp only [h₂.live, h₁.live, Fields.blocks_node, Fields.blocks, Node.blocks, Node.stringBlock]
    abel
  · -- the item has no string, and is deleted
    have hitem : p₂.live.val
        = ((⟨.string, none, .null⟩ : Fields D).node block none).blocks + p.live.val := by
      rw [Fields.blocks_node, h₂, h₁.live]
      simp [Fields.blocks, Node.blocks, Node.stringBlock]
    exact (Node.delete_spec hitem).bind fun p₃ h₃ =>
      ⟨h₃.live.trans (zero_add _).symm, .inl ⟨rfl, h₃.refused.trans hfailed⟩⟩

/-- The object has the item, or the item is gone and a block was refused. -/
lemma addOrDelete_filled (string : Str) (hobject : Filled members base (object, p))
    (hitem : Made x p (item, p')) :
    (addOrDelete answers object string item p').Spec False
      (Filled (members ++ [(string, x)]) base) := by
  have hlive : p'.live.val = item.blocks + (object.blocks + base) :=
    hitem.live.trans (by rw [hobject.live])
  -- an item that is not added is deleted, and the object stays
  have hdelete : ∀ {p₁ : Pool}, p₁.live.val = p'.live.val → p₁.refused = true →
      (do let p ← item.delete p₁; .ok (object, p) : Access (Node D × Pool)).Spec False
        (Filled (members ++ [(string, x)]) base) := fun h₁ hfailed =>
    (Node.delete_spec (h₁.trans hlive)).bind fun p₂ h₂ => by
      have hrefused : p₂.refused = true := h₂.refused.trans hfailed
      refine ⟨h₂.live, hobject.object.imp (fun h => ⟨h.1, hrefused⟩) ?_⟩
      rintro ⟨kept, hkept, hmembers, -⟩
      exact ⟨kept, hkept.trans (List.sublist_append_left _ _), hmembers, by simp [hrefused]⟩
  rw [addOrDelete]
  rcases hobject.object with ⟨rfl, hfailed⟩ | ⟨kept, hkept, hmembers, hall⟩
  · refine hdelete rfl ?_
    rcases hitem.item with ⟨-, h⟩ | ⟨-, h⟩
    · exact h
    · exact h.trans hfailed
  rcases hitem.item with ⟨rfl, hfailed⟩ | ⟨⟨s, hs⟩, hrefused⟩
  · obtain ⟨block, valuestring, child, rfl, -⟩ := hmembers
    exact hdelete rfl hfailed
  obtain ⟨block, valuestring, child, rfl, hchild⟩ := hmembers
  cases item with
  | null => cases hs
  | item block' type' valuestring' name' child' next' =>
      rw [addItemToObject]
      rcases strdup_cases answers string p' with
        ⟨key, p₁, hstrdup, h₁⟩ | ⟨p₁, hstrdup, h₁, hfailed⟩
      all_goals rw [hstrdup]
      · -- the item gets its new name, and is attached behind the others
        set named : Node D := .item block' type' valuestring' (some (key, string)) child' next'
        have hname : p₁.live.val = Node.stringBlock name' + ((Node.item block .object valuestring
            none (child.append named) .null).blocks + base) := by
          rw [h₁.live, hlive]
          simp only [named, Node.stringBlock, Node.blocks, Node.blocks_append]
          abel
        obtain ⟨p₂, hfree, h₂⟩ := (Node.freeString_spec hname).exists_ok
        simp only [hfree, Access.ok_bind]
        have hlast : named.items = some [(some string, x)] := items_rename hs
        refine ⟨h₂.live, .inr ⟨kept ++ [(string, x)], hkept.append_right _, ⟨block, valuestring,
          child.append named, rfl, ?_⟩, fun h => ?_⟩⟩
        · rw [Node.items_append hchild hlast, List.map_append, List.map_singleton]
        · rw [hall (by rw [← hrefused, ← h₁.refused, ← h₂.refused, h])]
      · exact hdelete h₁ hfailed

lemma addNumberToObject_filled (name : Str) (d : D) (h : Filled members base (object, p)) :
    (addNumberToObject answers object name d p).Spec False
      (Filled (members ++ [(name, .number d)]) base) :=
  addOrDelete_filled answers name h (newItem_made answers rfl rfl p)

lemma addStringToObject_filled (name string : Str) (h : Filled members base (object, p)) :
    (addStringToObject answers object name string p).Spec False
      (Filled (members ++ [(name, .string string)]) base) :=
  (createString_made answers string p).bind fun _ hitem =>
    addOrDelete_filled answers name h hitem

end Objects

/-! ### The block of the text -/

/-- The block of `print` while its buffer grows; `ensure` frees it where it can not grow. -/
def grow : ℕ → ℕ → Pool → Access (Option ℕ × Pool)
  | 0, buffer, p => .ok (some buffer, p)
  | growths + 1, buffer, p => do
      let (r, p) ← p.realloc answers (some buffer)
      match r with
      | none => do
          let p ← p.free buffer
          .ok (none, p)
      | some newbuffer => grow growths newbuffer p

/-- The blocks of the source's `print`, whose buffer grows some times; `complete` is what
`print_value` returns. -/
def printBlock (growths : ℕ) (complete : Bool) (p : Pool) : Access (Option ℕ × Pool) :=
  match p.malloc answers with
  | (none, p) => .ok (none, p)
  | (some buffer, p) => do
      let (r, p) ← grow answers growths buffer p
      match r with
      | none => .ok (none, p)
      | some buffer =>
          if complete then do
            let (printed, p) ← p.realloc answers (some buffer)
            match printed with
            | none => do
                let p ← p.free buffer
                .ok (none, p)
            | some printed => .ok (some printed, p)
          else do
            let p ← p.free buffer
            .ok (none, p)

variable {answers}

lemma grow_spec {growths buffer : ℕ} {p : Pool} {base : Multiset ℕ}
    (h : p.live.val = {buffer} + base) :
    (grow answers growths buffer p).Spec False fun r => r.2.live.val = block r.1 + base := by
  induction growths generalizing buffer p with
  | zero => exact h
  | succ growths ih =>
      rw [grow]
      have hbuffer : p.live.val = block (some buffer) + base := h
      refine (realloc_spec hbuffer).bind fun r hr => ?_
      obtain ⟨r, p₁⟩ := r
      rcases hr with ⟨new, rfl, h₁⟩ | ⟨rfl, h₁, -⟩
      · exact ih h₁
      · exact (free_spec h₁).bind fun p₂ h₂ => h₂.live.trans (zero_add _).symm

lemma printBlock_spec (growths : ℕ) (complete : Bool) (p : Pool) :
    (printBlock answers growths complete p).Spec False fun r =>
      r.2.live.val = block r.1 + p.live.val := by
  rw [printBlock]
  rcases p.malloc_cases answers with ⟨buffer, p₁, hmalloc, h₁⟩ | ⟨p₁, hmalloc, h₁, -⟩
  all_goals rw [hmalloc]
  swap
  · exact h₁.trans (zero_add _).symm
  refine (grow_spec h₁.live).bind fun r hr => ?_
  obtain ⟨r, p₂⟩ := r
  cases r with
  | none => exact hr
  | some buffer =>
      have hfree : ∀ {p' : Pool}, p'.live.val = {buffer} + p.live.val →
          (do let p ← p'.free buffer; .ok (none, p) : Access (Option ℕ × Pool)).Spec False fun r =>
            r.2.live.val = block r.1 + p.live.val := fun h' =>
        (free_spec h').bind fun p₃ h₃ => h₃.live.trans (zero_add _).symm
      simp only
      split_ifs
      · refine (realloc_spec hr).bind fun r hr => ?_
        obtain ⟨r, p₃⟩ := r
        rcases hr with ⟨new, rfl, h₃⟩ | ⟨rfl, h₃, -⟩
        · exact h₃
        · exact hfree h₃
      · exact hfree hr

end Hearthbeat.CJson.Owned
