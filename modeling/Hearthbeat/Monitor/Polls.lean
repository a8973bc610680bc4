import Hearthbeat.Monitor.Alarms

/-!
The polls of a timely run, and the host whose answers come soon enough.

* `PollsOnTime`, `polls_on_time`: the polls of a target fall `poll_interval`
  apart, from the start on, and none is missing.
* `next_poll`: the first of the poll times after any instant.
* `no_false_alarm`: where of every `n + 1` consecutive polls one is answered
  within `R`, two handled answers are at most `(n + 1) * poll_interval + R` apart,
  and if that is less than `err_interval`, the target is never reported down.
-/

namespace Hearthbeat.Monitor

/-! ### The times of the polls -/

/-- The time of a poll of the target `i`. -/
def pollOf (i : ℕ) : Act → Option ℤ
  | .poll j _ t => if j = i then some t else none
  | _ => none

/-- The times of the polls of the target `i`, in order, whether the request could
be sent or not. -/
def pollsOf (i : ℕ) (hist : List Act) : List ℤ := hist.filterMap (pollOf i)

/-- The polls of the target `i` fall at `t₀ + p`, `t₀ + 2 * p`, … and the next one
is not overdue. -/
structure PollsOnTime (p t₀ : ℤ) (i : ℕ) (m : Monitor) : Prop where
  timer : m.targets[i]?.map Target.pollEv
    = some ⟨p, some (t₀ + ((pollsOf i m.hist).length + 1) * p), none⟩
  due : m.now ≤ t₀ + ((pollsOf i m.hist).length + 1) * p
  times : ∀ (k : ℕ) τ, (pollsOf i m.hist)[k]? = some τ → τ = t₀ + (k + 1) * p

section Schedule

variable {wall : ℤ → Reading} {m m' : Monitor} {i : ℕ} {p t₀ : ℤ}

lemma pollsOf_append (i : ℕ) (h h' : List Act) :
    pollsOf i (h ++ h') = pollsOf i h ++ pollsOf i h' := List.filterMap_append

/-- What is passive makes no poll. -/
lemma pollsOf_passive (h : Passive m m') : pollsOf i m'.hist = pollsOf i m.hist := by
  obtain ⟨l, hl, hpoll⟩ := h.hist
  have hnil : pollsOf i l = [] := by
    refine List.filterMap_eq_nil_iff.mpr fun x hx => ?_
    have hx' := hpoll x hx
    cases x <;> simp_all [pollOf, Act.isPoll]
  rw [hl, pollsOf_append, hnil, List.append_nil]

/-- What is passive leaves the poll timers alone. -/
lemma pollEv_passive (h : Passive m m') :
    m'.targets[i]?.map Target.pollEv = m.targets[i]?.map Target.pollEv := by
  have hsetup := congrArg (fun ts => (ts[i]?).map Prod.snd) h.setup
  simpa [Target.setup, Function.comp_def] using hsetup

/-- What is passive and takes no time keeps the schedule. -/
lemma PollsOnTime.passive (h : PollsOnTime p t₀ i m) (hp : Passive m m')
    (hnow : m'.now ≤ t₀ + ((pollsOf i m.hist).length + 1) * p) : PollsOnTime p t₀ i m' := by
  have hpolls : pollsOf i m'.hist = pollsOf i m.hist := pollsOf_passive hp
  refine ⟨?_, ?_, ?_⟩
  · rw [pollEv_passive hp, hpolls, h.timer]
  · rwa [hpolls]
  · rw [hpolls]
    exact h.times

/-- What a poll adds to the times of a target, whether the request is sent or not. -/
lemma pollsOf_poll {j : ℕ} {t : Target} (ht : m.targets[j]? = some t) (res : Resolver)
    (sent : Bool) :
    pollsOf i (act wall m (.poll j res sent)).hist
      = pollsOf i m.hist ++ if j = i then [m.now] else [] := by
  have ht' : (m.modifyTarget j fun t => { t with pollEv := t.pollEv.fire }).targets[j]?
      = some { t with pollEv := t.pollEv.fire } := by
    rw [modifyTarget_same, ht, Option.map_some]
  obtain ⟨dest, hdest⟩ := sendBip_hist wall ht' res sent
  rw [act, handlePollEvent, hdest, pollsOf_append, modifyTarget_hist]
  by_cases hji : j = i <;> simp [pollsOf, pollOf, hji]

/-- A poll of another target. -/
lemma PollsOnTime.other (h : PollsOnTime p t₀ i m) {j : ℕ} (hji : j ≠ i) {t : Target}
    (ht : m.targets[j]? = some t) (res : Resolver) (sent : Bool) :
    PollsOnTime p t₀ i (act wall m (.poll j res sent)) := by
  have hapart : Apart i m (act wall m (.poll j res sent)) :=
    apart_act wall (by simpa [owner] using hji)
  have hpolls : pollsOf i (act wall m (.poll j res sent)).hist = pollsOf i m.hist := by
    rw [pollsOf_poll ht, if_neg hji, List.append_nil]
  have hnow : (act wall m (.poll j res sent)).now = m.now := sendBip_now wall _ j res sent
  refine ⟨?_, ?_, ?_⟩
  · rw [hapart.target, hpolls, h.timer]
  · rw [hnow, hpolls]
    exact h.due
  · rw [hpolls]
    exact h.times

/-- A poll of the target, when it is due. -/
lemma PollsOnTime.own (h : PollsOnTime p t₀ i m) (hp : 0 < p) {t : Target}
    (ht : m.targets[i]? = some t) (hdue : t.pollEv.Due m.now) (res : Resolver) (sent : Bool) :
    PollsOnTime p t₀ i (act wall m (.poll i res sent)) := by
  have hev : t.pollEv = ⟨p, some (t₀ + ((pollsOf i m.hist).length + 1) * p), none⟩ := by
    simpa [ht] using h.timer
  have hnow : m.now = t₀ + ((pollsOf i m.hist).length + 1) * p := by
    obtain ⟨d, hd, hle⟩ := hdue
    rw [hev, Option.mem_def, Option.some.injEq] at hd
    have := h.due
    omega
  have hpolls : pollsOf i (act wall m (.poll i res sent)).hist = pollsOf i m.hist ++ [m.now] := by
    rw [pollsOf_poll ht, if_pos rfl]
  have hfired : (act wall m (.poll i res sent)).targets[i]?
      = some { t with pollEv := t.pollEv.fire } := by
    calc (act wall m (.poll i res sent)).targets[i]?
        = (m.modifyTarget i fun t => { t with pollEv := t.pollEv.fire }).targets[i]? :=
          (Apart.sendBip wall _ i res sent).target
      _ = some { t with pollEv := t.pollEv.fire } := by
          rw [modifyTarget_same, ht, Option.map_some]
  have htime : (act wall m (.poll i res sent)).now = m.now := sendBip_now wall _ i res sent
  have hnext : t₀ + ((pollsOf i m.hist).length + 1) * p + p
      = t₀ + (((pollsOf i m.hist).length + 1 : ℕ) + 1) * p := by
    push_cast
    ring
  refine ⟨?_, ?_, ?_⟩
  · rw [hfired, hpolls, List.length_append, List.length_singleton, Option.map_some, hev,
      Timer.fire_pending, hnext]
  · rw [htime, hpolls, List.length_append, List.length_singleton, ← hnext, hnow]
    omega
  · intro k τ hk
    rw [hpolls] at hk
    rcases Nat.lt_or_ge k (pollsOf i m.hist).length with hlt | hge
    · rw [List.getElem?_append_left hlt] at hk
      exact h.times k τ hk
    · have hlen : k < (pollsOf i m.hist ++ [m.now]).length := (List.getElem?_eq_some_iff.mp hk).1
      have hk' : k = (pollsOf i m.hist).length := by
        rw [List.length_append, List.length_singleton] at hlen
        omega
      subst hk'
      rw [List.getElem?_concat_length, Option.some.injEq] at hk
      rw [← hk, hnow]

/-- Every timely step keeps the schedule of the polls. -/
lemma PollsOnTime.step (hp : 0 < p) (m : Monitor) (ev : Event) (h : PollsOnTime p t₀ i m)
    (hg : m.guard ev) : PollsOnTime p t₀ i (act wall m ev) := by
  cases ev with
  | tick d =>
      refine h.passive (passive_act wall m (by simp)) ?_
      cases ht : m.targets[i]? with
      | none => simpa [ht] using h.timer
      | some t =>
          have hev : t.pollEv = ⟨p, some (t₀ + ((pollsOf i m.hist).length + 1) * p), none⟩ := by
            simpa [ht] using h.timer
          exact (hg t (List.mem_of_getElem? ht)).1 _ (by rw [hev]; rfl)
  | poll j res sent =>
      obtain ⟨t, ht, hdue⟩ := hg
      by_cases hji : j = i
      · subst hji
        exact h.own hp ht hdue res sent
      · exact h.other hji ht res sent
  | err j c =>
      have hnow : (act wall m (.err j c)).now = m.now := act_now wall hg (by simp)
      exact h.passive (passive_act wall m (by simp)) (hnow ▸ h.due)
  | recv src re res c =>
      have hnow : (act wall m (.recv src re res c)).now = m.now := act_now wall hg (by simp)
      exact h.passive (passive_act wall m (by simp)) (hnow ▸ h.due)

end Schedule

variable (wall : ℤ → Reading) (cfg : Config) (t₀ : ℤ) {es : List Event} {i : ℕ}

/-- In a timely run the polls fall on time. -/
theorem polls_on_time (hp : 0 < cfg.pollInterval) (hi : i < cfg.targets.length)
    (h : (machine wall).Allowed (start cfg t₀) es) :
    PollsOnTime (seconds cfg.pollInterval) t₀ i ((machine wall).exec (start cfg t₀) es) := by
  have hpos : 0 < seconds cfg.pollInterval := by
    rw [seconds]
    omega
  refine h.induction (PollsOnTime.step hpos) ⟨?_, ?_, ?_⟩
  · simp [start, init, addTimers, pollsOf, hi]
  · show t₀ ≤ t₀ + _
    simpa [start, init, pollsOf] using hpos.le
  · simp [start, init, pollsOf]

/-! ### The host that answers soon enough -/

/-- The first poll time after an instant is at most one interval away. -/
lemma next_poll {p t₀ a : ℤ} (hp : 0 < p) (ha : t₀ ≤ a) :
    ∃ k : ℕ, a < t₀ + (k + 1) * p ∧ t₀ + (k + 1) * p ≤ a + p := by
  have hq : 0 ≤ (a - t₀) / p := Int.ediv_nonneg (by omega) hp.le
  refine ⟨((a - t₀) / p).toNat, ?_, ?_⟩
  · have hlt := Int.lt_ediv_add_one_mul_self (a - t₀) hp
    rw [Int.toNat_of_nonneg hq]
    omega
  · have hle := Int.ediv_mul_le (a - t₀) hp.ne'
    rw [Int.toNat_of_nonneg hq, add_mul, one_mul]
    omega

/-- Polls whose times have passed were made, no earlier than the first of them and no later
than the last. -/
lemma PollsOnTime.window {i : ℕ} {p t₀ : ℤ} {m : Monitor} (h : PollsOnTime p t₀ i m) (hp : 0 < p)
    {k n : ℕ} (hlate : t₀ + ((k + n : ℕ) + 1) * p < m.now) :
    k + n < (pollsOf i m.hist).length ∧
      ∀ j ≤ n, ∀ τ, (pollsOf i m.hist)[k + j]? = some τ →
        t₀ + (k + 1) * p ≤ τ ∧ τ ≤ t₀ + ((k + n : ℕ) + 1) * p := by
  constructor
  · by_contra hfew
    have hle : ((pollsOf i m.hist).length + 1 : ℤ) * p ≤ ((k + n : ℕ) + 1) * p := by
      refine mul_le_mul_of_nonneg_right ?_ hp.le
      omega
    have hdue := h.due
    omega
  · intro j hj τ hτ
    rw [h.times (k + j) τ hτ]
    constructor
    · have hle : ((k : ℤ) + 1) * p ≤ ((k + j : ℕ) + 1) * p := by
        refine mul_le_mul_of_nonneg_right ?_ hp.le
        omega
      omega
    · have hle : (((k + j : ℕ) : ℤ) + 1) * p ≤ ((k + n : ℕ) + 1) * p := by
        refine mul_le_mul_of_nonneg_right ?_ hp.le
        omega
      omega

/-- Whenever `R` has passed since the last of `n + 1` consecutive polls of the
target `i`, a datagram from `addr` was handled no earlier than one of them and at
most `R` after it. -/
def AnswersWithin (n : ℕ) (R : ℤ) (addr : SockAddr) (i : ℕ) (m : Monitor) : Prop :=
  ∀ k last, (pollsOf i m.hist)[k + n]? = some last → last + R < m.now →
    ∃ j ≤ n, ∃ τ, (pollsOf i m.hist)[k + j]? = some τ ∧
      ∃ who re t, .answer addr who re t ∈ m.hist ∧ τ ≤ t ∧ t ≤ τ + R

/-- An answer attributed to the target is one that its detector has seen, and
conversely. -/
lemma answer_mem_observed {i : ℕ} {hist : List Act} {t : ℤ} :
    .answer t ∈ observed i hist ↔ ∃ src re, .answer src (some i) re t ∈ hist := by
  rw [observed, List.mem_filterMap]
  constructor
  · rintro ⟨x, hx, hxo⟩
    cases x with
    | answer src who re t' =>
        cases who with
        | none => cases hxo
        | some j =>
            simp only [obsOf, Option.ite_none_right_eq_some, Option.some.injEq,
              Detector.Obs.answer.injEq] at hxo
            obtain ⟨rfl, rfl⟩ := hxo
            exact ⟨src, re, hx⟩
    | notice j up text ok t' => simp [obsOf] at hxo
    | _ => cases hxo
  · rintro ⟨src, re, hx⟩
    exact ⟨_, hx, by simp [obsOf]⟩

/-- A host whose answers come within `R` of one of every `n + 1` polls is never
reported down, if `(n + 1) * poll_interval + R < err_interval`. -/
theorem no_false_alarm (addr : SockAddr) (n : ℕ) (R : ℤ) (hp : 0 < cfg.pollInterval)
    (hR : 0 ≤ R) (hgap : (n + 1) * seconds cfg.pollInterval + R < seconds cfg.errInterval)
    (hi : i < cfg.targets.length) (h : (machine wall).Allowed (start cfg t₀) es)
    (hattr : ∀ who re t, .answer addr who re t ∈ ((machine wall).exec (start cfg t₀) es).hist →
      who = some i)
    (hlive : AnswersWithin n R addr i ((machine wall).exec (start cfg t₀) es))
    (text : Text) (ok : Bool) (τ : ℤ) :
    .notice i false text ok τ ∉ ((machine wall).exec (start cfg t₀) es).hist := by
  have hppos : 0 < seconds cfg.pollInterval := by
    rw [seconds]
    omega
  have hgap0 : 0 ≤ (n + 1) * seconds cfg.pollInterval := by positivity
  have hepos : 0 < cfg.errInterval := by
    simp only [seconds] at hgap hgap0
    omega
  have htrack := tracked_exec wall cfg t₀ es hi
  have hord := Detector.ordered_of_run (tracked_run wall cfg t₀ hi h)
  have hpolls := polls_on_time wall cfg t₀ hp hi h
  intro hmem
  have hnotice : .notice false ok τ ∈ (detectorAfter wall cfg t₀ es i).obs := by
    rw [← htrack.obs]
    exact List.mem_filterMap.mpr ⟨_, hmem, by simp [obsOf]⟩
  refine Detector.no_alarm_of_bridged (exact_detector wall cfg t₀ hepos hi h) hord ?_ ok τ hnotice
  intro a ha hlate
  have hstarted : t₀ ≤ a := hord.since _ ha
  obtain ⟨k, hafter, hsoon⟩ := next_poll hppos hstarted
  generalize seconds cfg.pollInterval = p at hgap hppos hpolls hafter hsoon
  rw [show (detectorAfter wall cfg t₀ es i).now
    = ((machine wall).exec (start cfg t₀) es).now from htrack.now] at hlate
  generalize (machine wall).exec (start cfg t₀) es = m at *
  -- the polls `k`, …, `k + n` come after the answer and early enough
  have hlast : t₀ + ((k + n : ℕ) + 1) * p ≤ a + (n + 1) * p := by
    calc t₀ + ((k + n : ℕ) + 1) * p
        = t₀ + (k + 1) * p + n * p := by push_cast; ring
      _ ≤ a + p + n * p := by omega
      _ = a + (n + 1) * p := by ring
  obtain ⟨hmade, hwindow⟩ := hpolls.window hppos (k := k) (n := n) (by omega)
  have htime := hwindow n le_rfl _ (List.getElem?_eq_getElem hmade)
  obtain ⟨j, hj, τ', hτ', who, re, t, hans, hge, hle⟩ :=
    hlive k _ (List.getElem?_eq_getElem hmade) (by omega)
  obtain rfl := hattr who re t hans
  obtain ⟨hfirst, hupper⟩ := hwindow j hj τ' hτ'
  refine ⟨t, ?_, by omega, by omega⟩
  rw [← htrack.obs]
  exact answer_mem_observed.mpr ⟨addr, re, hans⟩

/-- One target, polled every 5 s. -/
def polledOften : Config := { oneTarget with pollInterval := 5 }

/-- Its first poll is answered at once, the second not yet. -/
def answeredPoll : List Event :=
  [.tick 5000000000, .poll 0 piResolver true, .recv (some piAddr) 0 piResolver delivered,
    .tick 5000000000, .poll 0 piResolver true]

theorem no_false_alarm_answeredPoll :
    .notice 0 false (bytes "local: Host pi is down!") true 20000000000 ∉
      ((machine fun _ => .epoch).exec (start polledOften 0) answeredPoll).hist := by
  have hhist : ((machine fun _ => .epoch).exec (start polledOften 0) answeredPoll).hist
      = [.poll 0 (some piAddr) 5000000000, .answer piAddr (some 0) 0 5000000000,
        .notice 0 true (bytes "local: Host pi is up!") true 5000000000,
        .record 0 0 ⟨0, 0⟩ 5000000000, .poll 0 (some piAddr) 10000000000] := rfl
  refine no_false_alarm (fun _ => .epoch) polledOften 0 piAddr 0 0 (by decide) le_rfl (by decide)
    (by decide) (by decide) ?_ ?_ _ true 20000000000
  · intro who re t hmem
    rw [hhist] at hmem
    have hans : who = some 0 ∧ re = 0 ∧ t = 5000000000 := by simpa using hmem
    exact hans.1
  · intro k last hk hlt
    have hpolls : pollsOf 0 ((machine fun _ => .epoch).exec (start polledOften 0) answeredPoll).hist
        = [5000000000, 10000000000] := rfl
    have hnow : ((machine fun _ => .epoch).exec (start polledOften 0) answeredPoll).now
        = 10000000000 := rfl
    rw [hpolls] at hk ⊢
    rw [hnow] at hlt
    rw [hhist]
    match k, hk with
    | 0, hk => exact ⟨0, le_rfl, 5000000000, rfl, some 0, 0, 5000000000, by simp, by simp⟩
    | 1, hk =>
        simp at hk
        omega
    | k + 2, hk => simp at hk

end Hearthbeat.Monitor
