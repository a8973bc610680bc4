import Hearthbeat.Memory.Access

/-!
Blocks of memory by number: which of them are live.

* `Pool`: the live blocks. The number of a block is that of the request for it, so no two
  blocks have one number.
* `malloc`, `realloc`, `free`: a block that is not live can not be freed.
* `Left`: what is live after some steps in which no block was refused.
* `Yields`: what a function makes of the live blocks. A result has blocks of its own, on top
  of those that were there, and none was refused for it; without a result the blocks are as
  they were.
-/

namespace Hearthbeat

/-- The live blocks, how many were asked for, and whether one of these was refused. -/
structure Pool where
  live : Finset ℕ
  asked : ℕ
  refused : Bool
  lt : ∀ i ∈ live, i < asked

namespace Pool

/-- The pool at the start of a program. -/
def start : Pool := ⟨∅, 0, false, by simp⟩

/-- A new block, none where the allocator refuses it. -/
def malloc (answers : ℕ → Bool) (p : Pool) : Option ℕ × Pool :=
  if answers p.asked then
    (some p.asked, ⟨insert p.asked p.live, p.asked + 1, p.refused, fun i hi => by
      rcases Finset.mem_insert.mp hi with rfl | hi
      · exact Nat.lt_succ_self _
      · exact Nat.lt_succ_of_lt (p.lt i hi)⟩)
  else (none, ⟨p.live, p.asked + 1, true, fun i hi => Nat.lt_succ_of_lt (p.lt i hi)⟩)

/-- A block that is live no longer; a fault if it was not. -/
def free (p : Pool) (i : ℕ) : Access Pool :=
  if i ∈ p.live then
    .ok ⟨p.live.erase i, p.asked, p.refused, fun j hj => p.lt j (Finset.mem_of_mem_erase hj)⟩
  else .fault

/-- The block that a pointer points to, if any. -/
def block : Option ℕ → Multiset ℕ
  | none => 0
  | some i => {i}

/-- The pointer may be null. -/
def freeAny (ptr : Option ℕ) (p : Pool) : Access Pool :=
  match ptr with
  | none => .ok p
  | some i => p.free i

/-- A block in place of another one, which stays where the allocator refuses the new one. -/
def realloc (answers : ℕ → Bool) (ptr : Option ℕ) (p : Pool) : Access (Option ℕ × Pool) :=
  match p.malloc answers with
  | (none, p) => .ok (none, p)
  | (some new, p) => do
      let p ← freeAny ptr p
      .ok (some new, p)

/-- The blocks that are live after some steps, none of which was refused a block. -/
structure Left (p : Pool) (rest : Multiset ℕ) (p' : Pool) : Prop where
  live : p'.live.val = rest
  refused : p'.refused = p.refused

variable {answers : ℕ → Bool} {p p' p'' : Pool} {i : ℕ} {ptr : Option ℕ}
  {base rest rest' : Multiset ℕ}

/-- One function after another. -/
lemma Left.trans (h : p.Left rest p') (h' : p'.Left rest' p'') : p.Left rest' p'' :=
  ⟨h'.live, h'.refused.trans h.refused⟩

/-- A new block is live in addition to the others. -/
lemma malloc_cases (answers : ℕ → Bool) (p : Pool) :
    (∃ i p', p.malloc answers = (some i, p') ∧ p.Left ({i} + p.live.val) p') ∨
      ∃ p', p.malloc answers = (none, p') ∧ p'.live.val = p.live.val ∧ p'.refused = true := by
  cases h : answers p.asked with
  | true =>
      have hnew : p.asked ∉ p.live := fun hmem => lt_irrefl _ (p.lt _ hmem)
      refine .inl ⟨p.asked, _, if_pos h, ?_, rfl⟩
      rw [Finset.insert_val_of_notMem hnew, Multiset.singleton_add]
  | false => exact .inr ⟨_, if_neg (by simp [h]), rfl, rfl⟩

/-- A live block can be freed, and the others stay. -/
lemma free_spec (h : p.live.val = {i} + rest) : (p.free i).Spec False (p.Left rest) := by
  have hmem : i ∈ p.live := by
    rw [← Finset.mem_val, h]
    exact Multiset.mem_add.mpr (.inl (Multiset.mem_singleton_self i))
  rw [free, if_pos hmem]
  refine ⟨?_, rfl⟩
  rw [Finset.erase_val, h, Multiset.singleton_add, Multiset.erase_cons_head]

lemma not_granted (h : p.malloc answers = (none, p')) : ¬ ∀ i, answers i = true := by
  intro hall
  rw [malloc, if_pos (hall p.asked)] at h
  cases h

lemma freeAny_spec (h : p.live.val = block ptr + base) :
    (freeAny ptr p).Spec False (p.Left base) := by
  cases ptr with
  | none => exact ⟨h.trans (zero_add base), rfl⟩
  | some i => exact free_spec h

/-- The old block is freed exactly if there is a new one. -/
lemma realloc_spec (h : p.live.val = block ptr + base) :
    (realloc answers ptr p).Spec False fun r =>
      (∃ new, r.1 = some new ∧ r.2.live.val = {new} + base) ∨
        r.1 = none ∧ r.2.live.val = block ptr + base ∧ ¬ ∀ i, answers i = true := by
  rw [realloc]
  rcases p.malloc_cases answers with ⟨new, p₁, hmalloc, h₁⟩ | ⟨p₁, hmalloc, h₁, -⟩ <;> rw [hmalloc]
  · have hold : p₁.live.val = block ptr + ({new} + base) := by
      rw [h₁.live, h]
      abel
    exact (freeAny_spec hold).bind fun p₂ h₂ => .inl ⟨new, rfl, h₂.live⟩
  · exact .inr ⟨rfl, h₁.trans h, not_granted hmalloc⟩

end Pool

/-- What a function makes of the live blocks of a pool: one with a result returns what `plain`
does, its result has the blocks `own` in addition to `base`, and no block was refused; one
without has left `base`, and then `plain` has failed, too, unless a block was refused. -/
def Yields {α β : Type} (plain : Access β) (rel : α → β → Prop) (own : α → Multiset ℕ)
    (before : Pool) (base : Multiset ℕ) : Access (Option α × Pool) → Prop
  | .ok (some a, p) => (∃ b, plain = .ok b ∧ rel a b) ∧ before.Left (own a + base) p
  | .ok (none, p) => (plain = .fail ∨ p.refused = true) ∧ p.live.val = base
  | .fail => False
  | .fault => plain = .fault

section Yields

variable {α β γ δ : Type} {plain : Access β} {rel : α → β → Prop} {own : α → Multiset ℕ}
  {before before' : Pool} {base rest : Multiset ℕ} {r : Access (Option α × Pool)}

/-- What was done before, without a refusal, does not matter. -/
lemma Yields.after (h : Yields plain rel own before base r) (hleft : before'.Left rest before) :
    Yields plain rel own before' base r := by
  match r, h with
  | .ok (some a, p), ⟨hplain, hlive⟩ => exact ⟨hplain, hleft.trans hlive⟩
  | .ok (none, p), h => exact h
  | .fault, h => exact h

/-- One function after another: the second has to deal with a result, and with none. -/
lemma Yields.bind {f : Option α × Pool → Access (Option γ × Pool)} {g : β → Access δ}
    {rel' : γ → δ → Prop} {own' : γ → Multiset ℕ} {base' : Multiset ℕ}
    (h : Yields plain rel own before base r)
    (hsome : ∀ a b p, rel a b → before.Left (own a + base) p →
      Yields (g b) rel' own' before' base' (f (some a, p)))
    (hnone : ∀ p, p.live.val = base → ∀ x : Access δ, x = .fail ∨ p.refused = true →
      Yields x rel' own' before' base' (f (none, p))) :
    Yields (plain >>= g) rel' own' before' base' (r >>= f) := by
  match r, h with
  | .ok (some a, p), ⟨⟨b, hb, hrel⟩, hlive⟩ =>
      rw [hb]
      exact hsome a b p hrel hlive
  | .ok (none, p), ⟨hfail, hlive⟩ =>
      refine hnone p hlive _ (hfail.imp_left fun hplain => ?_)
      rw [hplain, Access.fail_bind]
  | .fault, h =>
      have hplain : plain = .fault := h
      rw [hplain]
      exact rfl

/-- The plain function may go on after the other one is done. -/
lemma Yields.map {g : β → Access δ} {rel' : α → δ → Prop}
    (h : Yields plain rel own before base r)
    (hg : ∀ a b, rel a b → ∃ c, g b = .ok c ∧ rel' a c) :
    Yields (plain >>= g) rel' own before base r := by
  match r, h with
  | .ok (some a, p), ⟨⟨b, hb, hrel⟩, hlive⟩ =>
      rw [hb]
      exact ⟨hg a b hrel, hlive⟩
  | .ok (none, p), ⟨hfail, hlive⟩ =>
      refine ⟨hfail.imp_left fun hplain => ?_, hlive⟩
      rw [hplain, Access.fail_bind]
  | .fault, h =>
      have hplain : plain = .fault := h
      rw [hplain]
      exact rfl

/-- A function that frees its blocks and returns nothing. -/
lemma yields_none {p : Pool} {s : Access Pool} (hfail : plain = .fail ∨ p.refused = true)
    (h : s.Spec False (p.Left base)) :
    Yields plain rel own before base (s >>= fun p => .ok (none, p)) := by
  obtain ⟨p', rfl, hleft⟩ := h.exists_ok
  exact ⟨hfail.imp_right fun hrefused => hleft.refused.trans hrefused, hleft.live⟩

end Yields

end Hearthbeat
