import Mathlib.Tactic

/-!
The persistent timers of an event loop, over any ordered time.

A timer is added with an interval, which sets its deadline that long after the
present. When the loop finds it due it becomes active, until its callback runs;
a persistent timer is then due again one interval after its old deadline.
Deleting a timer removes it in either state, so a due callback that has not run
yet does not run.

`fire` takes a timer through both steps at once, as in a loop whose callbacks
take no time; a loop whose callbacks are slow finds timers due with `expire` and
reschedules them with `reschedule`. `settle` undoes `expire`, and
`settle_reschedule` says that on time the two ways agree.
-/

namespace Hearthbeat

/-- A timer of an event loop: its interval, its deadline while it is pending,
and the deadline at which it became active while its callback has yet to run. -/
structure Timer (T : Type*) where
  interval : T
  pending : Option T
  active : Option T

namespace Timer

variable {T : Type*}

/-- A timer that was made but not added. -/
def inert [Zero T] : Timer T := ⟨0, none, none⟩

/-- Remove a timer from the loop, pending or active. -/
def del (t : Timer T) : Timer T := { t with pending := none, active := none }

/-- The loop finds the timer due. -/
def activate (t : Timer T) : Timer T := { t with pending := none, active := t.pending }

/-- Take back that the loop found the timer due. -/
def settle (t : Timer T) : Timer T := { t with pending := t.active.or t.pending, active := none }

variable [Add T]

/-- Add a timer at the time `now`. -/
def add (t : Timer T) (now tv : T) : Timer T :=
  { t with interval := tv, pending := some (now + tv) }

/-- Reschedule a persistent timer whose callback is about to run. -/
def persist (t : Timer T) : Timer T :=
  { t with pending := t.active.map (· + t.interval), active := none }

/-- Become due and be rescheduled. -/
def fire (t : Timer T) : Timer T := t.activate.persist

section Lemmas

variable (t : Timer T) (now tv : T)

@[simp] lemma del_add : t.del.add now tv = ⟨tv, some (now + tv), none⟩ := rfl

@[simp] lemma fire_pending (d : T) :
    (⟨tv, some d, none⟩ : Timer T).fire = ⟨tv, some (d + tv), none⟩ := rfl

@[simp] lemma inert_add [Zero T] : (inert : Timer T).add now tv = ⟨tv, some (now + tv), none⟩ := rfl

end Lemmas

section Order

variable {T : Type*} [LE T]

/-- The timer is pending and its deadline has come. -/
def Due (t : Timer T) (now : T) : Prop := ∃ d ∈ t.pending, d ≤ now

/-- The timer is not due before `u`, so that the clock may advance to it. -/
def Spares (t : Timer T) (u : T) : Prop := ∀ d ∈ t.pending, u ≤ d

instance [DecidableLE T] (t : Timer T) (now : T) : Decidable (t.Due now) :=
  inferInstanceAs (Decidable (∃ d ∈ t.pending, d ≤ now))

instance [DecidableLE T] (t : Timer T) (u : T) : Decidable (t.Spares u) :=
  inferInstanceAs (Decidable (∀ d ∈ t.pending, u ≤ d))

/-- The loop looks at the timer. -/
def expire [DecidableLE T] (t : Timer T) (now : T) : Timer T :=
  if t.Due now then t.activate else t

/-- Reschedule a persistent timer whose callback is about to run: one interval
after its old deadline or, if that has passed already, after the present. -/
def reschedule [Add T] [LT T] [DecidableLT T] (t : Timer T) (now : T) : Timer T :=
  { t with
    pending := t.active.map fun d =>
      if d + t.interval < now then now + t.interval else d + t.interval
    active := none }

lemma expire_of_not_due [DecidableLE T] {t : Timer T} {now : T} (h : ¬ t.Due now) :
    t.expire now = t := if_neg h

end Order

/-- On time it is the old deadline that counts. -/
lemma reschedule_of_le [LinearOrder T] {t : Timer T} {now : T}
    (h : ∀ d ∈ t.active, now ≤ d + t.interval) : t.reschedule now = t.persist := by
  cases hact : t.active with
  | none => simp [reschedule, persist, hact]
  | some d =>
      have hle : now ≤ d + t.interval := h d hact
      simp [reschedule, persist, hact, not_lt.mpr hle]

/-! ### Timers that are on time -/

section Punctual

variable {T : Type*} [AddCommGroup T] [LinearOrder T]

/-- No deadline has passed, and the timer is active, if `p` allows it, at the
instant it became due. -/
structure Punctual (now : T) (p : Prop) (t : Timer T) : Prop where
  interval : 0 ≤ t.interval
  pending : ∀ d ∈ t.pending, now ≤ d
  active : ∀ d ∈ t.active, d = now ∧ p

variable {t : Timer T} {now : T} {p q : Prop}

lemma Punctual.imp (h : t.Punctual now p) (hpq : t.active.isSome = true → p → q) :
    t.Punctual now q where
  interval := h.interval
  pending := h.pending
  active d hd := by
    have hd' : t.active = some d := hd
    exact ⟨(h.active d hd).1, hpq (by rw [hd']; rfl) (h.active d hd).2⟩

lemma Punctual.inactive (h : t.Punctual now False) : t.active = none :=
  Option.eq_none_iff_forall_not_mem.mpr fun d hd => (h.active d hd).2

/-- The clock advances while no timer is due. -/
lemma Punctual.wait (h : t.Punctual now False) {u : T} (hu : t.Spares u) : t.Punctual u False :=
  ⟨h.interval, hu, by simp [h.inactive]⟩

/-- A timer found due becomes active on time. -/
lemma Punctual.expire (h : t.Punctual now False) (hp : t.Due now → p) :
    (t.expire now).Punctual now p := by
  unfold Timer.expire
  split_ifs with hdue
  · refine ⟨h.interval, by simp [activate], fun d hd => ⟨?_, hp hdue⟩⟩
    obtain ⟨d', hd', hle⟩ := hdue
    obtain rfl : d' = d := Option.mem_unique hd' hd
    exact le_antisymm hle (h.pending d' hd')
  · exact h.imp fun _ hfalse => hfalse.elim

/-- A timer found due at this instant is due without the loop having looked. -/
lemma Punctual.settle_due (h : t.Punctual now p) (hact : t.active.isSome = true) :
    t.settle.Due now := by
  obtain ⟨d, hd⟩ := Option.isSome_iff_exists.mp hact
  exact ⟨d, by simp [settle, hd], (h.active d hd).1.le⟩

lemma Punctual.settle_spares (h : t.Punctual now False) {u : T} (hu : t.Spares u) :
    t.settle.Spares u := by
  simpa [settle, h.inactive, Spares] using hu

/-- To find a timer due and take it back is to leave it. -/
lemma Punctual.settle_expire (h : t.Punctual now False) : (t.expire now).settle = t.settle := by
  unfold Timer.expire
  split_ifs with hdue
  · obtain ⟨d, hd, -⟩ := hdue
    simp [settle, activate, h.inactive]
  · rfl

variable [IsOrderedAddMonoid T]

/-- A timer that was just added. -/
lemma punctual_added {tv : T} (htv : 0 ≤ tv) (now : T) :
    (⟨tv, some (now + tv), none⟩ : Timer T).Punctual now p :=
  ⟨htv, by simpa using htv, by simp⟩

lemma Punctual.reschedule_eq (h : t.Punctual now p) : t.reschedule now = t.persist := by
  refine reschedule_of_le fun d hd => ?_
  rw [(h.active d hd).1]
  exact le_add_of_nonneg_right h.interval

lemma Punctual.reschedule (h : t.Punctual now p) : (t.reschedule now).Punctual now q := by
  rw [h.reschedule_eq]
  refine ⟨h.interval, fun u hu => ?_, by simp [persist]⟩
  obtain ⟨d, hd, rfl⟩ := Option.mem_map.mp hu
  rw [(h.active d hd).1]
  exact le_add_of_nonneg_right h.interval

/-- On time, to reschedule a timer found due is to take it through both steps at
once. -/
lemma Punctual.settle_reschedule (h : t.Punctual now p) (hact : t.active.isSome = true) :
    (t.reschedule now).settle = t.settle.fire := by
  obtain ⟨d, hd⟩ := Option.isSome_iff_exists.mp hact
  rw [h.reschedule_eq]
  simp [settle, persist, fire, activate, hd]

end Punctual

end Timer

end Hearthbeat
