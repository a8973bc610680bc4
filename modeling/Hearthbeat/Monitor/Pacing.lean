import Hearthbeat.Monitor.Lateness
import Hearthbeat.Monitor.Polls

/-!
The polls of an event loop whose calls of Telegram take their time.

* `PollsPaced`: the polls of a target never run ahead of the schedule that they
  would keep if nothing took time, and never pause for more than
  `poll_interval` and two passes; `PollsPaced.step` keeps it.
* `polls_paced`: it holds after every run whose calls are quick, and so the number
  of the polls lies between the two rates.
-/

namespace Hearthbeat.Loop

open Monitor

/-- The polls of the target `i`, each at most `slack` after its deadline. -/
structure PollsPaced (p slack t₀ : ℤ) (i : ℕ) (m : Monitor) : Prop where
  timer : ∃ t d, m.targets[i]? = some t ∧ t.pollEv.interval = p ∧ t.pollEv.deadline = some d ∧
    t₀ + ((pollsOf i m.hist).length + 1) * p ≤ d ∧ d ≤ (pollsOf i m.hist).getLastD t₀ + p
  past : (pollsOf i m.hist).getLastD t₀ ≤ m.now
  spaced : Spaced (p + slack) t₀ m.now (pollsOf i m.hist)
  floor : ∀ (k : ℕ) τ, (pollsOf i m.hist)[k]? = some τ → t₀ + (k + 1) * p ≤ τ

section Callbacks

variable {wall : ℤ → Reading} {m m' : Monitor} {queue : List Queued} {o : Outcome} {i : ℕ}

variable (wall m queue o) in
/-- A callback that is not the poll of the target leaves its polls and their timer
alone. -/
lemma polls_runCallback {cb : Callback} (hcb : cb ≠ .poll i) :
    pollsOf i (runCallback wall m queue o cb).1.hist = pollsOf i m.hist ∧
      (runCallback wall m queue o cb).1.targets[i]?.map Target.pollEv
        = m.targets[i]?.map Target.pollEv := by
  have hran := runCallback_ran wall m queue o cb
  generalize runCallback wall m queue o cb = r at hran
  cases hran with
  | skip => exact ⟨rfl, rfl⟩
  | listen d rest =>
      have hpassive := Passive.handleAnswer wall m (some d.src) o.re o.res o.call
      exact ⟨pollsOf_passive hpassive, pollEv_passive hpassive⟩
  | err j =>
      have htimer : Passive m (rescheduleErr m j) := Passive.modifyTarget m j fun _ => rfl
      have hpassive := htimer.trans (Passive.handleErrEvent _ j o.call)
      exact ⟨pollsOf_passive hpassive, pollEv_passive hpassive⟩
  | poll j =>
      have hji : j ≠ i := fun heq => hcb (by rw [heq])
      refine ⟨?_, ?_⟩
      · cases ht : (reschedulePoll m j).targets[j]? with
        | none =>
            rw [sendBip_none wall ht]
            rfl
        | some t =>
            obtain ⟨dest, hdest⟩ := sendBip_hist wall ht o.res o.ok
            rw [hdest, pollsOf_append]
            simp [pollsOf, pollOf, hji, reschedulePoll]
      · rw [(Apart.sendBip wall _ j o.res o.ok).target, reschedulePoll, modifyTarget_other m _ hji]

variable (wall queue o) in
/-- The poll of a target whose timer is still active. -/
lemma polls_poll {t : Target} (ht : m.targets[i]? = some t)
    (hact : t.pollEv.active.isSome = true) :
    pollsOf i (runCallback wall m queue o (.poll i)).1.hist = pollsOf i m.hist ++ [m.now] ∧
      (runCallback wall m queue o (.poll i)).1.targets[i]?.map Target.pollEv
        = some (t.pollEv.reschedule m.now) ∧
      (runCallback wall m queue o (.poll i)).1.now = m.now := by
  have hrun : runCallback wall m queue o (.poll i)
      = ((reschedulePoll m i).sendBip wall i o.res o.ok, queue) := by
    simp only [runCallback, ht, hact, if_true]
    rfl
  have ht' : (reschedulePoll m i).targets[i]?
      = some { t with pollEv := t.pollEv.reschedule m.now } := by
    rw [reschedulePoll, modifyTarget_same, ht, Option.map_some]
  obtain ⟨dest, hdest⟩ := sendBip_hist wall ht' o.res o.ok
  rw [hrun]
  refine ⟨?_, ?_, sendBip_now wall (reschedulePoll m i) i o.res o.ok⟩
  · rw [hdest, pollsOf_append]
    simp [pollsOf, pollOf, reschedulePoll]
  · rw [(Apart.sendBip wall _ i o.res o.ok).target, ht']
    rfl

end Callbacks

section Schedule

variable {wall : ℤ → Reading} {n D i : ℕ} {began p t₀ : ℤ} {s : Loop} {m m' : Monitor}

/-- The polls and their timer are as they were, and the clock has advanced, though
not too far for the timer. -/
lemma PollsPaced.of_eq {slack : ℤ} (h : PollsPaced p slack t₀ i m) (hnow : m.now ≤ m'.now)
    (hpolls : pollsOf i m'.hist = pollsOf i m.hist)
    (htimer : ∀ t d, m.targets[i]? = some t → t.pollEv.deadline = some d →
      ∃ t', m'.targets[i]? = some t' ∧ t'.pollEv.interval = t.pollEv.interval ∧
        t'.pollEv.deadline = some d ∧ m'.now ≤ d + slack) :
    PollsPaced p slack t₀ i m' := by
  obtain ⟨t, d, ht, hp, hd, hlow, hhigh⟩ := h.timer
  obtain ⟨t', ht', hp', hd', hlate⟩ := htimer t d ht hd
  refine ⟨⟨t', d, ht', hp'.trans hp, hd', ?_⟩, ?_, ⟨?_, ?_⟩, ?_⟩ <;> rw [hpolls]
  · exact ⟨hlow, hhigh⟩
  · exact h.past.trans hnow
  · exact h.spaced.chain
  · linarith
  · exact h.floor

/-- The clock of a loop in a pass is not too far for the poll timer of a target. -/
lemma InPass.poll_overdue (h : InPass n D began s) {t : Target} {d : ℤ}
    (ht : s.monitor.targets[i]? = some t) (hd : t.pollEv.deadline = some d) :
    s.monitor.now ≤ d + 2 * span n D := (h.overdue (h.timers i t ht).1 hd).1

/-- A poll of the target runs. -/
lemma PollsPaced.poll (h : PollsPaced p (2 * span n D) t₀ i s.monitor) (hpass : InPass n D began s)
    {t : Target} (ht : s.monitor.targets[i]? = some t) (hact : t.pollEv.active.isSome = true)
    (o : Outcome) :
    PollsPaced p (2 * span n D) t₀ i (runCallback wall s.monitor s.queue o (.poll i)).1 := by
  obtain ⟨t₁, d, ht₁, hp, hd, hlow, hhigh⟩ := h.timer
  obtain rfl : t = t₁ := Option.some.inj (ht.symm.trans ht₁)
  obtain ⟨hpolls, htimer, hnow⟩ := polls_poll wall s.queue o ht hact
  have hheld := (hpass.timers i t ht).1
  have hp0 : 0 ≤ p := hp ▸ hheld.interval
  have hdnow := (hpass.overdue hheld hd).2 hact
  obtain ⟨d', hd'⟩ := Option.isSome_iff_exists.mp hact
  obtain rfl : d' = d := by simpa [Timer.deadline, hd'] using hd
  obtain ⟨u, hu, -, hnext, hsoon⟩ := hheld.reschedule_deadline hpass.started hd'
  obtain ⟨t', ht', htp⟩ := Option.map_eq_some_iff.mp htimer
  have hlen : ((pollsOf i s.monitor.hist ++ [s.monitor.now]).length : ℤ)
      = (pollsOf i s.monitor.hist).length + 1 := by simp
  have hmore : ((pollsOf i s.monitor.hist).length + 1 + 1 : ℤ) * p
      = ((pollsOf i s.monitor.hist).length + 1) * p + p := by ring
  refine ⟨⟨t', u, ht', htp ▸ hp, htp ▸ hu, ?_, ?_⟩, ?_, ?_, ?_⟩ <;> rw [hpolls]
  · rw [hlen, hmore]
    linarith
  · rw [List.getLastD_concat]
    linarith
  · rw [List.getLastD_concat, hnow]
  · rw [hnow]
    refine h.spaced.concat h.past ?_
    linarith [span_nonneg n D]
  · intro k τ hk
    rcases Nat.lt_or_ge k (pollsOf i s.monitor.hist).length with hlt | hge
    · rw [List.getElem?_append_left hlt] at hk
      exact h.floor k τ hk
    · have hlast : k = (pollsOf i s.monitor.hist).length := by
        have hk' := (List.getElem?_eq_some_iff.mp hk).1
        rw [List.length_append, List.length_singleton] at hk'
        omega
      subst hlast
      rw [List.getElem?_concat_length, Option.some.injEq] at hk
      rw [← hk]
      exact hlow.trans hdnow

/-- Every step of a loop in a pass keeps the polls paced. -/
lemma PollsPaced.step (h : PollsPaced p (2 * span n D) t₀ i s.monitor)
    (hpass : InPass n D began s) {e : Event} (hg : s.guard wall e) (hquick : Quick D s e) :
    PollsPaced p (2 * span n D) t₀ i (act wall s e).monitor := by
  obtain ⟨began', hnext⟩ := hpass.step hg hquick
  cases e with
  | arrive src => exact h
  | wait d =>
      refine h.of_eq (by simp [act]) rfl fun t d ht hd => ⟨t, ht, rfl, hd, ?_⟩
      exact hnext.poll_overdue ht hd
  | pass order =>
      obtain ⟨-, hidle⟩ := hpass.idle hg.1
      refine h.of_eq le_rfl rfl fun t d ht hd => ?_
      have ht' : (act wall s (.pass order)).monitor.targets[i]?
          = some (expireTimers s.monitor.now t) := by
        simp [act, ht]
      refine ⟨_, ht', ?_, ?_, hpass.poll_overdue ht hd⟩
      · exact Timer.expire_interval _ _
      · exact (hidle i t ht).1.expire_deadline.trans hd
  | run o =>
      cases htodo : s.todo with
      | nil => exact absurd htodo hg.1
      | cons cb todo =>
          have hmonitor : (act wall s (.run o)).monitor
              = (runCallback wall s.monitor s.queue o cb).1 := by
            simp only [act, htodo]
          by_cases hcb : cb = .poll i
          · subst hcb
            obtain ⟨t, -, ht, -⟩ := h.timer
            rw [hmonitor]
            cases hact : t.pollEv.active.isSome with
            | true => exact h.poll hpass ht hact o
            | false => simpa [runCallback, ht, hact] using h
          · have hnow := (runCallback_ran wall s.monitor s.queue o cb).takes.1
            obtain ⟨hpolls, htimer⟩ := polls_runCallback wall s.monitor s.queue o hcb
            rw [← hmonitor] at hnow hpolls htimer
            refine h.of_eq hnow hpolls fun t d ht hd => ?_
            rw [ht, Option.map_some] at htimer
            obtain ⟨t', ht', hev⟩ := Option.map_eq_some_iff.mp htimer
            have hd' : t'.pollEv.deadline = some d := by rw [hev, hd]
            exact ⟨t', ht', by rw [hev], hd', hnext.poll_overdue ht' hd'⟩

end Schedule

/-! ### Whole runs -/

section Runs

variable {wall : ℤ → Reading} {cfg : Config} {t₀ : ℤ} {took D : ℕ}
  {arrivals : List (SockAddr × ℕ)} {es : List Event} {i : ℕ}

lemma pollsPaced_start (hp : 0 ≤ cfg.pollInterval) (htook : took ≤ D)
    (hi : i < cfg.targets.length) :
    PollsPaced (seconds cfg.pollInterval) (2 * span cfg.targets.length D) t₀ i
      (start cfg t₀ took arrivals).monitor := by
  have hpollTv : 0 ≤ seconds cfg.pollInterval := mul_nonneg hp (by norm_num)
  have hstart : (start cfg t₀ took arrivals).monitor.targets[i]?.map Target.pollEv
      = some ⟨seconds cfg.pollInterval, some (t₀ + seconds cfg.pollInterval), none⟩ := by
    simp [start, Monitor.start, init, addTimers, hi]
  obtain ⟨t, ht, hev⟩ := Option.map_eq_some_iff.mp hstart
  have hspan : (took : ℤ) ≤ 2 * span cfg.targets.length D := by
    have hone : (D : ℤ) ≤ span cfg.targets.length D := by
      have hmore : 0 ≤ (cfg.targets.length : ℤ) * D := by positivity
      rw [span]
      linarith
    have htook' : (took : ℤ) ≤ D := by exact_mod_cast htook
    linarith
  have hnil : pollsOf i (start cfg t₀ took arrivals).monitor.hist = [] := rfl
  have hnow : (start cfg t₀ took arrivals).monitor.now = t₀ + took := rfl
  refine ⟨⟨t, t₀ + seconds cfg.pollInterval, ht, by rw [hev], by rw [hev]; rfl, ?_⟩, ?_, ?_, ?_⟩
    <;> rw [hnil]
  · simp
  · simp [hnow]
  · refine .nil ?_
    rw [hnow]
    linarith
  · simp

/-- In every run whose calls are quick the polls are paced. -/
lemma pollsPaced_run (hp : 0 < cfg.pollInterval) (he : 0 < cfg.errInterval) (htook : took ≤ D)
    (hi : i < cfg.targets.length)
    (h : ((machine wall).restrict (Quick D)).Allowed (start cfg t₀ took arrivals) es) :
    PollsPaced (seconds cfg.pollInterval) (2 * span cfg.targets.length D) t₀ i
      ((machine wall).exec (start cfg t₀ took arrivals) es).monitor := by
  have hstep : ∀ s e, ((∃ began, InPass cfg.targets.length D began s) ∧
      PollsPaced (seconds cfg.pollInterval) (2 * span cfg.targets.length D) t₀ i s.monitor) →
      ((machine wall).restrict (Quick D)).guard s e →
      (∃ began, InPass cfg.targets.length D began (act wall s e)) ∧
        PollsPaced (seconds cfg.pollInterval) (2 * span cfg.targets.length D) t₀ i
          (act wall s e).monitor := by
    rintro s e ⟨⟨began, hpass⟩, hpaced⟩ ⟨hg, hquick⟩
    exact ⟨hpass.step hg hquick, hpaced.step hpass hg hquick⟩
  exact (h.induction hstep ⟨⟨t₀, inPass_start hp.le he.le t₀ htook arrivals⟩,
    pollsPaced_start hp.le htook hi⟩).2

/-- The polls of a target never come before their time, however late the ones
before were, never pause for more than `poll_interval` and two passes, and keep
their number between the two rates. -/
theorem polls_paced (hp : 0 < cfg.pollInterval) (he : 0 < cfg.errInterval) (htook : took ≤ D)
    (hi : i < cfg.targets.length)
    (h : ((machine wall).restrict (Quick D)).Allowed (start cfg t₀ took arrivals) es) :
    let m := ((machine wall).exec (start cfg t₀ took arrivals) es).monitor
    let p := seconds cfg.pollInterval
    let gap := p + 2 * span cfg.targets.length D
    (∀ (k : ℕ) τ, (pollsOf i m.hist)[k]? = some τ → t₀ + (k + 1) * p ≤ τ) ∧
      Spaced gap t₀ m.now (pollsOf i m.hist) ∧
      (pollsOf i m.hist).length * p ≤ m.now - t₀ ∧
      m.now - t₀ ≤ ((pollsOf i m.hist).length + 1) * gap := by
  intro m p gap
  have hpaced : PollsPaced p (2 * span cfg.targets.length D) t₀ i m :=
    pollsPaced_run hp he htook hi h
  have hreach := hpaced.spaced.reach
  rw [nsmul_eq_mul] at hreach
  push_cast at hreach
  refine ⟨hpaced.floor, hpaced.spaced, ?_, by linarith⟩
  have hlast := hpaced.past
  rcases List.eq_nil_or_concat (pollsOf i m.hist) with hnil | ⟨l, τ, hconcat⟩
  · rw [hnil] at hlast ⊢
    simpa using hlast
  · have hfloor := hpaced.floor l.length τ (by rw [hconcat]; simp)
    rw [hconcat] at hlast ⊢
    simp only [List.concat_eq_append, List.getLastD_concat, List.length_append,
      List.length_singleton, Nat.cast_add, Nat.cast_one] at hlast ⊢
    linarith

end Runs

/-- A poll, and an answer whose notification takes a second. -/
def answeredSlowly : List Event :=
  [.wait 4000000000, .pass [.poll 0], .run ⟨piResolver, true, delivered, 0, []⟩, .arrive piAddr,
    .pass [], .run ⟨piResolver, true, ⟨true, 1000000000⟩, 0, []⟩, .wait 4000000000]

lemma answeredSlowly_allowed : ((machine fun _ => .epoch).restrict (Quick 1000000000)).Allowed
    (start polledOften 0 1000000000 []) answeredSlowly := by decide

theorem polls_paced_answeredSlowly :
    let m := ((machine fun _ => .epoch).exec (start polledOften 0 1000000000 [])
      answeredSlowly).monitor
    (∀ (k : ℕ) τ, (pollsOf 0 m.hist)[k]? = some τ → 0 + ((k : ℤ) + 1) * seconds 5 ≤ τ) ∧
      Spaced (seconds 5 + 2 * span 1 1000000000) 0 m.now (pollsOf 0 m.hist) ∧
      (pollsOf 0 m.hist).length * seconds 5 ≤ m.now - 0 ∧
      m.now - 0 ≤ ((pollsOf 0 m.hist).length + 1) * (seconds 5 + 2 * span 1 1000000000) :=
  polls_paced (by decide) (by decide) le_rfl (by decide)
    answeredSlowly_allowed

end Hearthbeat.Loop
