import Mathlib.Tactic

/-!
Append-only histories: a list to which every step adds at its end.

* `Justified P l`: every entry `x` of `l` stands in the relation `P` to the
  history before it; `justified_concat` is the step rule and `Justified.split`
  reads the fact off at any place of the history.
* `latest f l`: the last value that `f` finds in `l`, with its step rules
  `latest_concat_some` and `latest_concat_none`.
-/

namespace Hearthbeat

variable {α β γ : Type*}

/-- Every entry is justified by what stands before it. -/
def Justified (P : List α → α → Prop) (l : List α) : Prop :=
  ∀ h x, h ++ [x] <+: l → P h x

section Justified

variable {P : List α → α → Prop}

@[simp] lemma justified_nil : Justified P [] := by
  intro h x hx
  simp at hx

lemma justified_concat {l : List α} {x : α} :
    Justified P (l ++ [x]) ↔ Justified P l ∧ P l x := by
  constructor
  · intro h
    exact ⟨fun h' y hy => h h' y (hy.trans (List.prefix_append l [x])), h l x (List.prefix_refl _)⟩
  · rintro ⟨hl, hx⟩ h y hy
    rcases List.prefix_concat_iff.mp hy with heq | hpre
    · obtain ⟨rfl, hyx⟩ := List.append_inj' heq rfl
      obtain rfl : y = x := by simpa using hyx
      exact hx
    · exact hl h y hpre

/-- Two entries at once. -/
lemma justified_concat₂ {l : List α} {x y : α} :
    Justified P (l ++ [x, y]) ↔ Justified P l ∧ P l x ∧ P (l ++ [x]) y := by
  rw [show l ++ [x, y] = l ++ [x] ++ [y] by simp, justified_concat, justified_concat, and_assoc]

/-- Entries that need no history. -/
lemma Justified.append {l l' : List α} (h : Justified P l) (hl' : ∀ x ∈ l', ∀ h, P h x) :
    Justified P (l ++ l') := by
  induction l' using List.reverseRecOn with
  | nil => simpa using h
  | append_singleton l' x ih =>
      rw [← List.append_assoc, justified_concat]
      exact ⟨ih fun y hy => hl' y (by simp [hy]), hl' x (by simp) _⟩

lemma Justified.of_append {l l' : List α} (h : Justified P (l ++ l')) : Justified P l :=
  fun h' x hx => h h' x (hx.trans (List.prefix_append l l'))

/-- The justification of the entry at which a history is divided. -/
lemma Justified.split {l h₁ h₂ : List α} {x : α} (h : Justified P l) (hl : l = h₁ ++ x :: h₂) :
    P h₁ x :=
  h h₁ x ⟨h₂, by rw [hl]; simp⟩

end Justified

/-- The last value that `f` finds in a history. -/
def latest (f : α → Option β) (l : List α) : Option β := (l.filterMap f).getLast?

section Latest

variable (f : α → Option β)

@[simp] lemma latest_nil : latest f [] = none := rfl

lemma latest_append (l l' : List α) :
    latest f (l ++ l') = (latest f l').or (latest f l) := by
  simp [latest, List.filterMap_append, List.getLast?_append]

lemma latest_concat (l : List α) (x : α) :
    latest f (l ++ [x]) = (f x).or (latest f l) := by
  rw [latest_append]
  cases hx : f x <;> simp [latest, hx]

lemma latest_concat_none {l : List α} {x : α} (hx : f x = none) :
    latest f (l ++ [x]) = latest f l := by
  simp [latest_concat, hx]

lemma latest_concat_some {l : List α} {x : α} {b : β} (hx : f x = some b) :
    latest f (l ++ [x]) = some b := by
  simp [latest_concat, hx]

lemma latest_filterMap (g : γ → Option α) (l : List γ) :
    latest f (l.filterMap g) = latest (fun x => (g x).bind f) l := by
  simp [latest, List.filterMap_filterMap]

lemma latest_eq_none {l : List α} : latest f l = none ↔ ∀ x ∈ l, f x = none := by
  simp [latest]

lemma mem_of_latest {l : List α} {b : β} (h : latest f l = some b) : ∃ x ∈ l, f x = some b := by
  have hb : b ∈ l.filterMap f := List.mem_of_getLast? h
  simpa using hb

end Latest

end Hearthbeat
