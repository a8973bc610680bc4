import Mathlib.Tactic

/-!
Guarded machines and their runs: a state, an effect for every event, and a
guard that says where an event may be taken.

* `Machine.exec` performs a list of events whatever the guards say, and
  `Machine.Allowed` says that each of them was allowed where it was taken; a
  run is an allowed list of events, and its last state is `exec`.
* `Machine.exec_induction` and `Machine.Allowed.induction`: the invariant rules,
  with one step to check instead of a run.
* `Machine.restrict` keeps only the steps that meet a condition;
  `Allowed.iff_restrict` is the rule for a condition that is exact.
* `Machine.total` adds up what the events of a run bring; `Allowed.balance` is the
  rule for what is neither made nor lost otherwise.
* `Machine.Simulates`: every step of one machine is a run of another, and
  `Simulates.exec`, `Simulates.allowed` lift this to whole runs;
  `Allowed.simulate` asks it of the allowed steps only.
-/

namespace Hearthbeat

/-- A guarded machine over the states `σ` and the events `ε`. -/
structure Machine (σ ε : Type*) where
  guard : σ → ε → Prop
  act : σ → ε → σ

namespace Machine

variable {σ ε τ δ : Type*} (M : Machine σ ε) (N : Machine τ δ)

/-- The state after a list of events, in order, guards ignored. -/
def exec (s : σ) (es : List ε) : σ := es.foldl M.act s

/-- Every event of the list is allowed in the state it is taken in. -/
def Allowed : σ → List ε → Prop
  | _, [] => True
  | s, e :: es => M.guard s e ∧ Allowed (M.act s e) es

@[simp] lemma exec_nil (s : σ) : M.exec s [] = s := rfl

@[simp] lemma exec_cons (s : σ) (e : ε) (es : List ε) :
    M.exec s (e :: es) = M.exec (M.act s e) es := rfl

lemma exec_append (s : σ) (es es' : List ε) :
    M.exec s (es ++ es') = M.exec (M.exec s es) es' := List.foldl_append

@[simp] lemma allowed_nil (s : σ) : M.Allowed s [] := trivial

@[simp] lemma allowed_cons (s : σ) (e : ε) (es : List ε) :
    M.Allowed s (e :: es) ↔ M.guard s e ∧ M.Allowed (M.act s e) es := Iff.rfl

lemma allowed_append (s : σ) (es es' : List ε) :
    M.Allowed s (es ++ es') ↔ M.Allowed s es ∧ M.Allowed (M.exec s es) es' := by
  induction es generalizing s with
  | nil => simp
  | cons e es ih => simp [ih, and_assoc]

/-- Guards that can be decided make runs that can be checked. -/
instance decidableAllowed [∀ s e, Decidable (M.guard s e)] :
    ∀ (s : σ) (es : List ε), Decidable (M.Allowed s es)
  | _, [] => isTrue trivial
  | s, e :: es =>
      have := decidableAllowed (M.act s e) es
      inferInstanceAs (Decidable (M.guard s e ∧ M.Allowed (M.act s e) es))

variable {M N}

/-- The invariant rule for arbitrary sequences of events: what every step keeps,
the whole sequence keeps. -/
theorem exec_induction {P : σ → Prop} (hstep : ∀ s e, P s → P (M.act s e)) {s : σ}
    (hs : P s) (es : List ε) : P (M.exec s es) := by
  induction es generalizing s with
  | nil => exact hs
  | cons e es ih => exact ih (hstep s e hs)

/-- The invariant rule for runs: what every allowed step keeps, the whole run
keeps. -/
theorem Allowed.induction {P : σ → Prop} (hstep : ∀ s e, P s → M.guard s e → P (M.act s e))
    {s : σ} (hs : P s) {es : List ε} (h : M.Allowed s es) : P (M.exec s es) := by
  induction es generalizing s with
  | nil => exact hs
  | cons e es ih => exact ih (hstep s e hs h.1) h.2

/-- Where no step is guarded, every sequence of events is a run. -/
lemma allowed_of_forall (h : ∀ s e, M.guard s e) (s : σ) (es : List ε) : M.Allowed s es := by
  induction es generalizing s with
  | nil => trivial
  | cons e es ih => exact ⟨h s e, ih (M.act s e)⟩

variable (M) in
/-- The machine that only takes the steps meeting `C`. -/
def restrict (C : σ → ε → Prop) : Machine σ ε where
  guard s e := M.guard s e ∧ C s e
  act := M.act

instance decidableRestrict (C : σ → ε → Prop) [∀ s e, Decidable (M.guard s e)]
    [∀ s e, Decidable (C s e)] (s : σ) (e : ε) : Decidable ((M.restrict C).guard s e) :=
  inferInstanceAs (Decidable (M.guard s e ∧ C s e))

/-- The runs of the restricted machine are runs. -/
lemma Allowed.of_restrict {C : σ → ε → Prop} {s : σ} {es : List ε}
    (h : (M.restrict C).Allowed s es) : M.Allowed s es := by
  induction es generalizing s with
  | nil => trivial
  | cons e es ih => exact ⟨h.1.1, ih h.2⟩

/-- A property that a step keeps exactly if the step meets `C` holds after a run
exactly if it held before and every step met `C`. -/
theorem Allowed.iff_restrict {Inv P : σ → Prop} {C : σ → ε → Prop}
    (hinv : ∀ s e, Inv s → M.guard s e → Inv (M.act s e))
    (hstep : ∀ s e, Inv s → M.guard s e → (P (M.act s e) ↔ P s ∧ C s e))
    {s : σ} (hs : Inv s) {es : List ε} (h : M.Allowed s es) :
    P (M.exec s es) ↔ P s ∧ (M.restrict C).Allowed s es := by
  induction es generalizing s with
  | nil => simp
  | cons e es ih =>
      have hguard : (M.restrict C).guard s e ↔ C s e := by simp [restrict, h.1]
      have hact : (M.restrict C).act s e = M.act s e := rfl
      calc P (M.exec s (e :: es))
          ↔ P (M.act s e) ∧ (M.restrict C).Allowed (M.act s e) es := ih (hinv s e hs h.1) h.2
        _ ↔ (P s ∧ C s e) ∧ (M.restrict C).Allowed (M.act s e) es := by rw [hstep s e hs h.1]
        _ ↔ P s ∧ (M.restrict C).Allowed s (e :: es) := by
            rw [and_assoc, allowed_cons, hguard, hact]

variable (M) in
/-- The sum over the events of a list of what `f` says of each where it is taken. -/
def total {α : Type*} [AddMonoid α] (f : σ → ε → α) : σ → List ε → α
  | _, [] => 0
  | s, e :: es => f s e + total f (M.act s e) es

/-- The balance rule: if the content of a state changes by what a step gains and
loses, it changes by what a whole run gains and loses. -/
theorem Allowed.balance {α : Type*} [AddCommMonoid α] {content : σ → α} {gain loss : σ → ε → α}
    (hstep : ∀ s e, M.guard s e → content s + gain s e = content (M.act s e) + loss s e)
    {s : σ} {es : List ε} (h : M.Allowed s es) :
    content s + M.total gain s es = content (M.exec s es) + M.total loss s es := by
  induction es generalizing s with
  | nil => rfl
  | cons e es ih =>
      calc content s + (gain s e + M.total gain (M.act s e) es)
          = (content s + gain s e) + M.total gain (M.act s e) es := (add_assoc _ _ _).symm
        _ = (content (M.act s e) + M.total gain (M.act s e) es) + loss s e := by
            rw [hstep s e h.1, add_right_comm]
        _ = content (M.exec s (e :: es)) + (loss s e + M.total loss (M.act s e) es) := by
            rw [ih h.2, exec_cons, add_assoc, add_comm (M.total loss (M.act s e) es)]

variable (M N) in
/-- A simulation: in related states a step of `M` is matched by the events
`label s e` of `N`, which `N` allows where `M` allows `e`, and the states reached
are related again. -/
structure Simulates (R : σ → τ → Prop) (label : σ → ε → List δ) : Prop where
  step : ∀ {s t} e, R s t → R (M.act s e) (N.exec t (label s e))
  guard : ∀ {s t} e, R s t → M.guard s e → N.Allowed t (label s e)

/-- The events of the simulating run. -/
def trace (M : Machine σ ε) (label : σ → ε → List δ) : σ → List ε → List δ
  | _, [] => []
  | s, e :: es => label s e ++ trace M label (M.act s e) es

variable {R : σ → τ → Prop} {label : σ → ε → List δ}

/-- Runs are simulated by runs if steps that are allowed are. -/
theorem Allowed.simulate (hstep : ∀ s t e, R s t → M.guard s e →
      N.Allowed t (label s e) ∧ R (M.act s e) (N.exec t (label s e)))
    {s : σ} {t : τ} (hst : R s t) {es : List ε} (h : M.Allowed s es) :
    N.Allowed t (M.trace label s es) ∧ R (M.exec s es) (N.exec t (M.trace label s es)) := by
  induction es generalizing s t with
  | nil => exact ⟨trivial, hst⟩
  | cons e es ih =>
      obtain ⟨hlabel, hnext⟩ := hstep s t e hst h.1
      obtain ⟨hrest, hend⟩ := ih hnext h.2
      rw [trace, allowed_append, exec_append]
      exact ⟨⟨hlabel, hrest⟩, hend⟩

namespace Simulates

/-- Sequences of events are simulated, allowed or not. -/
theorem exec (h : Simulates M N R label) {s : σ} {t : τ} (hst : R s t) (es : List ε) :
    R (M.exec s es) (N.exec t (M.trace label s es)) := by
  induction es generalizing s t with
  | nil => exact hst
  | cons e es ih =>
      rw [trace, exec_append]
      exact ih (h.step e hst)

/-- Runs are simulated by runs. -/
theorem allowed (h : Simulates M N R label) {s : σ} {t : τ} (hst : R s t) {es : List ε}
    (hes : M.Allowed s es) : N.Allowed t (M.trace label s es) :=
  (hes.simulate (R := R) (fun _ _ e hst hg => ⟨h.guard e hst hg, h.step e hst⟩) hst).1

end Simulates

end Machine

end Hearthbeat
