import Hearthbeat.Libevent.Timer

/-!
Timers in a loop whose callbacks take their time.

A pass begins at `s`. What it finds due was due already, though by at most `l`;
everything else becomes due at `s` or later.

* `Timer.Held s l p t`: so it is for the timer `t`, and it is active only if `p`.
* `Held.expire`, `Held.wait`: a pass begins, or the clock advances between two.
* `Held.reschedule`, `held_added`: what a callback does to a timer, and
  `reschedule_deadline` how its deadline moves.
* `Held.lateness`: how late the clock may be for a timer during a pass.
* `Spaced gap t₀ u l`: the times of a list follow each other without a gap of more
  than `gap`; `Spaced.window` finds the next ones after any instant.
-/

namespace Hearthbeat.Timer

variable {T : Type*} [AddCommGroup T] [LinearOrder T]

/-- A pass that began at `s` leaves no deadline before `s` pending, and the timer
is active, if `p` allows it, with a deadline at most `l` before `s`. -/
structure Held (s l : T) (p : Prop) (t : Timer T) : Prop where
  interval : 0 ≤ t.interval
  pending : ∀ d ∈ t.pending, s ≤ d
  active : ∀ d ∈ t.active, s ≤ d + l ∧ d ≤ s ∧ p

/-- The deadline of a timer, whether it was found due or not. -/
def deadline (t : Timer T) : Option T := t.active.or t.pending

variable {t : Timer T} {s s' l now tv : T} {p q : Prop}

omit [AddCommGroup T] [LinearOrder T] in
lemma deadline_eq_some {d : T} (h : t.deadline = some d) :
    t.active = some d ∨ t.pending = some d := by
  rcases Option.or_eq_some_iff.mp h with h | ⟨-, h⟩
  · exact .inl h
  · exact .inr h

lemma Held.imp (h : t.Held s l p) (hpq : p → q) : t.Held s l q :=
  ⟨h.interval, h.pending, fun d hd => ⟨(h.active d hd).1, (h.active d hd).2.1,
    hpq (h.active d hd).2.2⟩⟩

/-- A timer that is not active needs no leave to be so. -/
lemma Held.of_inactive (h : t.Held s l p) (hact : t.active = none) : t.Held s l q :=
  ⟨h.interval, h.pending, by simp [hact]⟩

lemma Held.inactive (h : t.Held s l False) : t.active = none :=
  Option.eq_none_iff_forall_not_mem.mpr fun d hd => (h.active d hd).2.2

omit [AddCommGroup T] in
lemma expire_interval (t : Timer T) (now : T) : (t.expire now).interval = t.interval := by
  unfold Timer.expire
  split_ifs <;> rfl

/-- To find a timer due does not change its deadline. -/
lemma Held.expire_deadline (h : t.Held s l False) : (t.expire now).deadline = t.deadline := by
  unfold Timer.expire
  split_ifs with hdue
  · simp [deadline, activate, h.inactive]
  · rfl

/-- The clock advances while no timer is due. -/
lemma Held.wait (h : t.Held s l False) {u : T} (hu : t.Spares u) : t.Held u l False :=
  ⟨h.interval, hu, by simp [h.inactive]⟩

variable [IsOrderedAddMonoid T]

/-- A pass begins, at most `l` after the one before. -/
lemma Held.expire (h : t.Held s l False) (hl : s' ≤ s + l) (hp : t.Due s' → p) :
    (t.expire s').Held s' l p := by
  unfold Timer.expire
  split_ifs with hdue
  · refine ⟨h.interval, by simp [activate], fun d hd => ?_⟩
    obtain ⟨d', hd', hle⟩ := id hdue
    obtain rfl : d' = d := Option.mem_unique hd' hd
    refine ⟨?_, hle, hp hdue⟩
    calc s' ≤ s + l := hl
      _ ≤ d' + l := by gcongr; exact h.pending d' hd'
  · refine ⟨h.interval, fun d hd => ?_, by simp [h.inactive]⟩
    have hlate : ¬ d ≤ s' := fun hle => hdue ⟨d, hd, hle⟩
    exact (not_le.mp hlate).le

/-- A timer that was just added. -/
lemma held_added (htv : 0 ≤ tv) (hs : s ≤ now) :
    (⟨tv, some (now + tv), none⟩ : Timer T).Held s l p :=
  ⟨htv, by simpa using hs.trans (le_add_of_nonneg_right htv), by simp⟩

/-- The next deadline of a timer that is rescheduled. -/
lemma Held.reschedule_deadline (h : t.Held s l p) (hs : s ≤ now) {d : T} (hd : d ∈ t.active) :
    ∃ u, (t.reschedule now).deadline = some u ∧ now ≤ u ∧ d + t.interval ≤ u ∧
      u ≤ now + t.interval := by
  have hact : t.active = some d := hd
  have hdue : d + t.interval ≤ now + t.interval := by
    gcongr
    exact (h.active d hd).2.1.trans hs
  simp only [deadline, Timer.reschedule, hact, Option.map_some, Option.none_or, Option.some.injEq]
  by_cases hlate : d + t.interval < now
  · refine ⟨now + t.interval, by rw [if_pos hlate], ?_, hdue, le_rfl⟩
    exact le_add_of_nonneg_right h.interval
  · exact ⟨d + t.interval, by rw [if_neg hlate], not_lt.mp hlate, le_rfl, hdue⟩

lemma Held.reschedule (h : t.Held s l p) (hs : s ≤ now) : (t.reschedule now).Held s l q := by
  refine ⟨h.interval, fun u hu => ?_, by simp [Timer.reschedule]⟩
  cases hact : t.active with
  | none => simp [Timer.reschedule, hact] at hu
  | some d =>
      obtain ⟨u', hu', hge, -⟩ := h.reschedule_deadline hs hact
      obtain rfl : u' = u := Option.mem_unique hu' hu
      exact hs.trans hge

/-- During a pass that has lasted for at most `l`, no timer is more than `2 • l`
overdue. -/
lemma Held.lateness (h : t.Held s l p) (hl : 0 ≤ l) (hnow : now ≤ s + l) {d : T}
    (hd : t.deadline = some d) : now ≤ d + 2 • l := by
  rw [two_nsmul, ← add_assoc]
  rcases deadline_eq_some hd with hd | hd
  · calc now ≤ s + l := hnow
      _ ≤ d + l + l := by gcongr; exact (h.active d hd).1
  · calc now ≤ s + l := hnow
      _ ≤ d + l := by gcongr; exact h.pending d hd
      _ ≤ d + l + l := le_add_of_nonneg_right hl

end Hearthbeat.Timer

/-! ### The times at which a timer ran -/

namespace Hearthbeat

variable {T : Type*} [AddCommGroup T] [LinearOrder T]

/-- From `t₀` on to the present, `u`, a list of times has no gap longer than
`gap`. -/
structure Spaced (gap t₀ u : T) (l : List T) : Prop where
  chain : List.IsChain (fun a b => a ≤ b ∧ b ≤ a + gap) (t₀ :: l)
  last : u ≤ l.getLastD t₀ + gap

namespace Spaced

variable {gap t₀ u : T} {l : List T}

lemma nil (h : u ≤ t₀ + gap) : Spaced gap t₀ u [] := ⟨by simp, h⟩

/-- The timer runs once more. -/
lemma concat (h : Spaced gap t₀ u l) {u' : T} (hlast : l.getLastD t₀ ≤ u)
    (hu' : u' ≤ u + gap) : Spaced gap t₀ u' (l ++ [u]) := by
  refine ⟨?_, by simpa using hu'⟩
  rw [← List.cons_append, List.isChain_append]
  refine ⟨h.chain, by simp, fun a ha b hb => ?_⟩
  obtain rfl : u = b := by simpa using hb
  obtain rfl : l.getLastD t₀ = a := by
    rw [List.getLast?_cons, Option.mem_def, Option.some.injEq] at ha
    rw [← ha, List.getLastD_eq_getLast?]
  exact ⟨hlast, h.last⟩

lemma tail {b : T} (h : Spaced gap t₀ u (b :: l)) :
    (t₀ ≤ b ∧ b ≤ t₀ + gap) ∧ Spaced gap b u l := by
  obtain ⟨hb, hchain⟩ := List.isChain_cons_cons.mp h.chain
  exact ⟨hb, hchain, by simpa only [List.getLastD_cons] using h.last⟩

/-- Behind a time of the list there is the next one, unless the present is near. -/
lemma succ (h : Spaced gap t₀ u l) {k : ℕ} {τ : T} (hk : l[k]? = some τ) (hu : τ + gap < u) :
    ∃ τ', l[k + 1]? = some τ' ∧ τ ≤ τ' ∧ τ' ≤ τ + gap := by
  induction l generalizing t₀ k with
  | nil => simp at hk
  | cons b l ih =>
      obtain ⟨-, htail⟩ := h.tail
      cases k with
      | succ k => exact ih htail hk
      | zero =>
          obtain rfl : b = τ := by simpa using hk
          cases l with
          | nil => exact absurd htail.last (not_le.mpr hu)
          | cons c l => exact ⟨c, rfl, htail.tail.1⟩

variable [IsOrderedAddMonoid T]

/-- So many times reach so far. -/
lemma reach (h : Spaced gap t₀ u l) : u ≤ t₀ + (l.length + 1) • gap := by
  induction l generalizing t₀ with
  | nil => simpa using h.last
  | cons b l ih =>
      obtain ⟨⟨-, hb⟩, htail⟩ := h.tail
      calc u ≤ b + (l.length + 1) • gap := ih htail
        _ ≤ t₀ + gap + (l.length + 1) • gap := by gcongr
        _ = t₀ + ((b :: l).length + 1) • gap := by
            rw [List.length_cons, succ_nsmul' gap (l.length + 1), add_assoc]

/-- After any instant the next time of the list comes within the gap. -/
lemma next (h : Spaced gap t₀ u l) {a : T} (ha : t₀ ≤ a) (hu : a + gap < u) :
    ∃ (k : ℕ) (τ : T), l[k]? = some τ ∧ a < τ ∧ τ ≤ a + gap := by
  induction l generalizing t₀ with
  | nil =>
      have hlast : u ≤ a + gap := h.last.trans (by gcongr; exact ha)
      exact absurd hlast (not_le.mpr hu)
  | cons b l ih =>
      obtain ⟨⟨-, hb⟩, htail⟩ := h.tail
      rcases lt_or_ge a b with hab | hba
      · exact ⟨0, b, rfl, hab, hb.trans (by gcongr)⟩
      · obtain ⟨k, τ, hk, hτ⟩ := ih htail hba
        exact ⟨k + 1, τ, hk, hτ⟩

/-- The next `n + 1` times after an instant, if that many gaps have passed. -/
lemma window (h : Spaced gap t₀ u l) (hgap : 0 ≤ gap) {a : T} (ha : t₀ ≤ a) {n : ℕ}
    (hu : a + (n + 1) • gap < u) :
    ∃ k, ∀ j ≤ n, ∃ τ, l[k + j]? = some τ ∧ a < τ ∧ τ ≤ a + (j + 1) • gap := by
  have hle : ∀ j ≤ n, a + (j + 1) • gap ≤ a + (n + 1) • gap := fun j hj => by gcongr
  have hfirst : a + gap < u := by simpa using (hle 0 n.zero_le).trans_lt hu
  obtain ⟨k, τ₀, hk, hτ₀⟩ := h.next ha hfirst
  refine ⟨k, fun j => ?_⟩
  induction j with
  | zero => exact fun _ => ⟨τ₀, hk, by simpa using hτ₀⟩
  | succ j ih =>
      intro hj
      obtain ⟨τ, hτ, haτ, hbound⟩ := ih (by omega)
      have hstep : τ + gap ≤ a + (j + 1 + 1) • gap := by
        rw [succ_nsmul _ (j + 1), ← add_assoc]
        gcongr
      obtain ⟨τ', hτ', hmono, hnext⟩ := h.succ hτ (hstep.trans_lt ((hle (j + 1) hj).trans_lt hu))
      exact ⟨τ', hτ', haτ.trans_le hmono, hnext.trans hstep⟩

end Spaced

end Hearthbeat
