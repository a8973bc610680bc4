import Mathlib.Tactic

/-!
Functions that return a result or fail, and that are wrong if they access memory out of
bounds or do not end.

* `Access`: the three cases, as a monad; a fault is kept by what follows. `result` keeps
  only what was returned.
* `Access.Spec`: no fault, a result with a property, and a reason for every failure;
  `Access.Meets` asks for no reason. `Spec.bind` is the rule for one function after another.
-/

namespace Hearthbeat

variable {α β : Type}

/-- What a function returns: a result, or that it has failed. A `fault` is an access out of
bounds, or a loop that does not end. -/
inductive Access (α : Type) where
  | ok (result : α)
  | fail
  | fault
  deriving DecidableEq

namespace Access

/-- One function, and another with its result. -/
def bind : Access α → (α → Access β) → Access β
  | ok a, f => f a
  | fail, _ => fail
  | fault, _ => fault

instance : Monad Access where
  pure := ok
  bind := bind

@[simp] lemma ok_bind (a : α) (f : α → Access β) : (ok a >>= f) = f a := rfl

@[simp] lemma fail_bind (f : α → Access β) : ((fail : Access α) >>= f) = fail := rfl

@[simp] lemma fault_bind (f : α → Access β) : ((fault : Access α) >>= f) = fault := rfl

/-- One function after another returns what the second makes of what the first returns. -/
lemma bind_eq_ok {r : Access α} {f : α → Access β} {b : β} :
    (r >>= f) = ok b ↔ ∃ a, r = ok a ∧ f a = ok b := by
  cases r with
  | ok a => simp
  | fail => simp
  | fault => simp

/-- The result, if there is one. -/
def result : Access α → Option α
  | ok a => some a
  | _ => none

lemma result_eq_some {r : Access α} {a : α} : r.result = some a ↔ r = ok a := by
  cases r <;> simp [result]

/-- What is read at a place: a fault where there is nothing. -/
def read : Option α → Access α
  | some a => ok a
  | none => fault

@[simp] lemma read_some (a : α) : read (some a) = ok a := rfl

/-- No fault, a failure only if `E`, and a result that has the property. -/
def Spec (E : Prop) (P : α → Prop) : Access α → Prop
  | ok a => P a
  | fail => E
  | fault => False

/-- No fault, and a result that has the property. -/
abbrev Meets (P : α → Prop) (r : Access α) : Prop := r.Spec True P

section Spec

variable {E : Prop} {P P' : α → Prop} {Q : β → Prop} {r : Access α} {f : α → Access β}

@[simp] lemma spec_ok {a : α} : (ok a).Spec E P ↔ P a := Iff.rfl

@[simp] lemma spec_fail : (fail : Access α).Spec E P ↔ E := Iff.rfl

lemma Spec.ne_fault (h : r.Spec E P) : r ≠ fault := by
  rintro rfl
  exact h

/-- What cannot fault returns something, or fails with a reason. -/
lemma Spec.cases (h : r.Spec E P) : (∃ a, r = ok a ∧ P a) ∨ r = fail ∧ E := by
  cases r with
  | ok a => exact .inl ⟨a, rfl, h⟩
  | fail => exact .inr ⟨rfl, h⟩
  | fault => exact h.elim

/-- What can neither fail nor fault returns something. -/
lemma Spec.exists_ok (h : r.Spec False P) : ∃ a, r = ok a ∧ P a :=
  h.cases.resolve_right fun hfail => hfail.2

lemma Spec.imp (h : r.Spec E P) (himp : ∀ a, P a → P' a) : r.Spec E P' := by
  cases r with
  | ok a => exact himp a h
  | fail => exact h
  | fault => exact h

/-- What follows may rely on the property of the result. -/
lemma Spec.bind (h : r.Spec E P) (hf : ∀ a, P a → (f a).Spec E Q) : (r >>= f).Spec E Q := by
  cases r with
  | ok a => exact hf a h
  | fail => exact h
  | fault => exact h

end Spec

end Access

end Hearthbeat
