import Hearthbeat.Monitor.Pacing
import Hearthbeat.Detector.Late

/-!
Detection by an event loop whose calls of Telegram take their time.

* `Ran.sees`: what a callback shows of a target, and what it does to the target's
  flag and error timer.
* `Watched`: while a target is online its deadline stands `err_interval` after its
  last answer, or later by the time that the notification took; alarms are neither
  early nor more than two passes late, and none is missing.
* `detection_within`: so it is after every run whose calls are quick.
* `no_false_alarm_slow`: a host whose answers come soon enough is never reported
  down, however the passes fall.
-/

namespace Hearthbeat.Loop

open Monitor

/-! ### What a callback shows of a target -/

section Callbacks

variable {wall : ℤ → Reading} {m : Monitor} {queue : List Queued} {o : Outcome} {cb : Callback}
  {i : ℕ}

/-- What a callback is to the target `i`: nothing, but for the timer of a target
that is offline; an answer; or its alarm. -/
inductive Sees (i : ℕ) (m : Monitor) (t : Target) (m' : Monitor) : Prop where
  | nothing (t' : Target) (ht' : m'.targets[i]? = some t') (hon : t'.isonline = t.isonline)
      (hdue : t.isonline = true → t'.errEv.deadline = t.errEv.deadline)
      (hobs : observed i m'.hist = observed i m.hist)
  | answer (ok : Bool) (t' : Target) (ht' : m'.targets[i]? = some t') (hon : t'.isonline = true)
      (hdue : t'.errEv.deadline = some (m'.now + m.errTv))
      (hobs : observed i m'.hist = observed i m.hist ++ .answer m.now ::
        if t.isonline then [] else [.notice true ok m.now])
  | alarm (ok : Bool) (t' : Target) (ht' : m'.targets[i]? = some t') (hon : t'.isonline = false)
      (honline : t.isonline = true) (hact : t.errEv.active.isSome = true)
      (hobs : observed i m'.hist = observed i m.hist ++ [.notice false ok m.now])

/-- What leaves the flag and the error timer of a target alone shows nothing. -/
lemma Sees.of_frame {m' : Monitor} {t : Target} (ht : m.targets[i]? = some t)
    (h : Frame i m m') : Sees i m t m' := by
  have hstatus := h.status
  rw [ht, Option.map_some] at hstatus
  obtain ⟨t', ht', heq⟩ := Option.map_eq_some_iff.mp hstatus
  simp only [Target.status, Prod.mk.injEq] at heq
  exact .nothing t' ht' heq.1 (fun _ => by rw [heq.2]) h.observed

/-- An answer of the target. -/
lemma sees_answer {t : Target} (ht : m.targets[i]? = some t) (wall : ℤ → Reading)
    {client : SockAddr} (re : ℕ) {res : Resolver} (c : Call)
    (hw : getTarget res m.targets client = some i) :
    Sees i m t (m.handleAnswer wall (some client) re res c) := by
  rw [handleAnswer_attributed c wall re hw ht]
  set m₁ := m.log (.answer client (some i) re m.now) with hm₁
  have ht₁ : m₁.targets[i]? = some t := ht
  have hrec := (Apart.recordAnswer (i := i) wall (m₁.resetErrorTimer i c) i re t.name).frame
    (Passive.recordAnswer wall _ i re t.name).keeps
  have htarget := resetErrorTimer_target c ht₁
  have hobs : observed i (m₁.resetErrorTimer i c).hist = observed i m.hist ++ .answer m.now ::
      if t.isonline then [] else [.notice true c.ok m.now] := by
    have hanswer : observed i m₁.hist = observed i m.hist ++ [.answer m.now] :=
      observed_concat_some (by simp [obsOf]) _
    cases hon : t.isonline with
    | true =>
        rw [resetErrorTimer_online c ht₁ hon, modifyTarget_hist, hanswer]
        simp
    | false =>
        rw [resetErrorTimer_offline c ht₁ hon, modifyTarget_hist, telegramSendMessage, log_hist,
          observed_concat_some (o := .notice true c.ok m.now) (by simp [obsOf, hm₁]), hanswer]
        simp
  have htarget' : ((m₁.resetErrorTimer i c).recordAnswer wall i re t.name).targets[i]?
      = (m₁.resetErrorTimer i c).targets[i]? := (Apart.recordAnswer wall _ i re _).target
  refine .answer c.ok _ (htarget'.trans htarget) rfl ?_ (hrec.observed.trans hobs)
  rw [recordAnswer_now]
  rfl

/-- An alarm of the target, or an expiry while it is offline. -/
lemma sees_err {t : Target} (ht : m.targets[i]? = some t)
    (hact : t.errEv.active.isSome = true) (c : Call) :
    Sees i m t ((rescheduleErr m i).handleErrEvent i c) := by
  have ht' : (rescheduleErr m i).targets[i]?
      = some { t with errEv := t.errEv.reschedule m.now } := by
    rw [rescheduleErr, modifyTarget_same, ht, Option.map_some]
  cases hon : t.isonline with
  | false =>
      rw [handleErrEvent_offline c ht' hon]
      exact .nothing _ ht' rfl (by simp [hon]) rfl
  | true =>
      rw [handleErrEvent_online c ht' hon]
      refine .alarm c.ok { t with errEv := t.errEv.reschedule m.now, isonline := false } ?_ rfl hon
        hact ?_
      · simp only [telegramSendMessage, log_targets, modifyTarget_same, ht', Option.map_some]
      · rw [telegramSendMessage, log_hist,
          observed_concat_some (o := .notice false c.ok m.now) (by simp [obsOf, rescheduleErr])]
        rfl

/-- What a callback in a pass shows of a target. -/
lemma Ran.sees {r : Monitor × List Queued} (h : Ran wall m queue o cb r) {t : Target}
    (ht : m.targets[i]? = some t) : Sees i m t r.1 := by
  cases h with
  | skip => exact .nothing t ht rfl (fun _ => rfl) rfl
  | listen d rest =>
      by_cases hw : getTarget o.res m.targets d.src = some i
      · exact sees_answer ht wall o.re o.call hw
      · have hapart : Apart i m (m.handleAnswer wall (some d.src) o.re o.res o.call) := by
          refine Apart.handleAnswer wall m _ o.re o.res o.call fun client hsrc hw' => hw ?_
          rwa [Option.some.inj hsrc]
        exact .of_frame ht (hapart.frame (Passive.handleAnswer wall m _ o.re o.res o.call).keeps)
  | poll j =>
      have hsend : Frame i (reschedulePoll m j) _ :=
        (Apart.sendBip wall _ j o.res o.ok).frame (Keeps.sendBip wall _ j o.res o.ok)
      have htimer : (reschedulePoll m j).targets.map Target.status = m.targets.map Target.status :=
        modifyTarget_map m j _ fun _ => rfl
      refine .of_frame ht ⟨hsend.errTv, hsend.status.trans ?_, hsend.observed⟩
      rw [← List.getElem?_map, ← List.getElem?_map, htimer]
  | err j t₁ ht₁ hact =>
      by_cases hj : j = i
      · subst hj
        obtain rfl : t₁ = t := Option.some.inj (ht₁.symm.trans ht)
        exact sees_err ht hact o.call
      · have hapart : Apart i m ((rescheduleErr m j).handleErrEvent j o.call) :=
          (Apart.modifyTarget m _ hj).trans (Apart.handleErrEvent _ o.call hj)
        have htimer : Passive m (rescheduleErr m j) := Passive.modifyTarget m j fun _ => rfl
        exact .of_frame ht (hapart.frame (htimer.trans (Passive.handleErrEvent _ j o.call)).keeps)

end Callbacks

/-! ### A target in a run -/

/-- The target `i` of a loop whose timers are at most `slack` overdue. -/
structure Watched (e D slack t₀ : ℤ) (i : ℕ) (m : Monitor) : Prop where
  errTv : m.errTv = e
  timed : Detector.Timed t₀ m.now (observed i m.hist)
  online : ∀ t, m.targets[i]? = some t → t.isonline = true →
    ∃ a d, Detector.lastAnswer (observed i m.hist) = some a ∧ t.errEv.deadline = some d ∧
      a + e ≤ d ∧ d ≤ a + e + D
  alarms : Justified (Detector.AlarmWithin e (D + slack)) (observed i m.hist)
  reported : ∀ t, m.targets[i]? = some t → t.isonline = false →
    ∀ a, Detector.lastAnswer (observed i m.hist) = some a → Detector.Reported (observed i m.hist) a

section Steps

variable {wall : ℤ → Reading} {n D i : ℕ} {began e t₀ : ℤ} {s : Loop} {m m' : Monitor}

/-- The target is as it was, but for the timer of one that is offline. -/
lemma Watched.of_eq {slack : ℤ} (h : Watched e D slack t₀ i m) (herr : m'.errTv = m.errTv)
    (hnow : m.now ≤ m'.now) {t t' : Target} (ht : m.targets[i]? = some t)
    (ht' : m'.targets[i]? = some t') (hon : t'.isonline = t.isonline)
    (hdue : t.isonline = true → t'.errEv.deadline = t.errEv.deadline)
    (hobs : observed i m'.hist = observed i m.hist) : Watched e D slack t₀ i m' := by
  refine ⟨herr.trans h.errTv, ?_, fun u hu hu' => ?_, ?_, fun u hu hu' => ?_⟩
  · rw [hobs]
    exact h.timed.wait hnow
  · obtain rfl : t' = u := Option.some.inj (ht'.symm.trans hu)
    have hon' : t.isonline = true := hon ▸ hu'
    rw [hobs, hdue hon']
    exact h.online t ht hon'
  · rw [hobs]
    exact h.alarms
  · obtain rfl : t' = u := Option.some.inj (ht'.symm.trans hu)
    rw [hobs]
    exact h.reported t ht (hon ▸ hu')

/-- A callback keeps the target watched. -/
lemma Watched.sees {slack : ℤ} (h : Watched e D slack t₀ i m) (hk : Keeps m m') {c : ℕ}
    (htakes : Takes c m m') (hc : c ≤ D) {t : Target} (ht : m.targets[i]? = some t)
    (hlate : ∀ d, t.errEv.deadline = some d → t.errEv.active.isSome = true →
      d ≤ m.now ∧ m.now ≤ d + slack)
    (hsees : Sees i m t m') : Watched e D slack t₀ i m' := by
  obtain ⟨hnow, hsoon⟩ := htakes
  have hc' : (c : ℤ) ≤ D := by exact_mod_cast hc
  cases hsees with
  | nothing t' ht' hon hdue hobs => exact h.of_eq hk.errTv hnow ht ht' hon hdue hobs
  | answer ok t' ht' hon hdue hobs =>
      -- an answer is the new last one, and its deadline counts from the end of the call
      have hlast : Detector.lastAnswer (observed i m'.hist) = some m.now := by
        rw [hobs]
        split_ifs <;> simp
      refine ⟨hk.errTv.trans h.errTv, ?_, fun u hu _ => ?_, ?_, fun u hu hu' => ?_⟩
      · rw [hobs, List.append_cons]
        have hanswer := h.timed.concat (x := .answer m.now) rfl
        split_ifs
        · simpa using hanswer.wait hnow
        · exact (hanswer.concat rfl).wait hnow
      · obtain rfl : t' = u := Option.some.inj (ht'.symm.trans hu)
        refine ⟨m.now, m'.now + m.errTv, hlast, hdue, ?_, ?_⟩ <;> rw [h.errTv]
        · linarith
        · linarith
      · rw [hobs]
        split_ifs
        · exact justified_concat.mpr ⟨h.alarms, Detector.alarmWithin_answer _⟩
        · exact justified_concat₂.mpr ⟨h.alarms, Detector.alarmWithin_answer _,
            Detector.alarmWithin_up _ _⟩
      · obtain rfl : t' = u := Option.some.inj (ht'.symm.trans hu)
        rw [hon] at hu'
        cases hu'
  | alarm ok t' ht' hon honline hact hobs =>
      -- an alarm is due to the deadline of the last answer, and the target is offline after it
      obtain ⟨a, d, ha, hd, hlow, hhigh⟩ := h.online t ht honline
      obtain ⟨hdue, hover⟩ := hlate d hd hact
      refine ⟨hk.errTv.trans h.errTv, ?_, fun u hu hu' => ?_, ?_, fun u hu _ b hb => ?_⟩
      · rw [hobs]
        exact (h.timed.concat rfl).wait hnow
      · obtain rfl : t' = u := Option.some.inj (ht'.symm.trans hu)
        rw [hon] at hu'
        cases hu'
      · rw [hobs]
        refine justified_concat.mpr ⟨h.alarms, fun ok' τ heq => ⟨a, ha, ?_⟩⟩
        cases heq
        constructor <;> linarith
      · rw [hobs] at hb ⊢
        rw [Detector.lastAnswer_notice] at hb
        exact ⟨observed i m.hist, _, rfl, hb, by simp [Detector.Obs.answer?], ok, m.now, by simp⟩

/-- Every step of a loop in a pass keeps its targets watched. -/
lemma Watched.step (h : Watched e D (2 * span n D) t₀ i s.monitor) (hi : i < n)
    (hpass : InPass n D began s) {ev : Event} (hg : s.guard wall ev) (hquick : Quick D s ev) :
    Watched e D (2 * span n D) t₀ i (act wall s ev).monitor := by
  have ht : s.monitor.targets[i]? = some (s.monitor.targets.get ⟨i, hpass.targets ▸ hi⟩) :=
    List.getElem?_eq_getElem _
  generalize s.monitor.targets.get ⟨i, hpass.targets ▸ hi⟩ = t at ht
  cases ev with
  | arrive src => exact h
  | wait d => exact h.of_eq rfl (by simp [act]) ht ht rfl (fun _ => rfl) rfl
  | pass order =>
      obtain ⟨-, hidle⟩ := hpass.idle hg.1
      have ht' : (act wall s (.pass order)).monitor.targets[i]?
          = some (expireTimers s.monitor.now t) := by
        simp [act, ht]
      exact h.of_eq rfl le_rfl ht ht' rfl (fun _ => (hidle i t ht).2.expire_deadline) rfl
  | run o =>
      cases htodo : s.todo with
      | nil => exact absurd htodo hg.1
      | cons cb todo =>
          have hran := runCallback_ran wall s.monitor s.queue o cb
          have hmonitor : (act wall s (.run o)).monitor
              = (runCallback wall s.monitor s.queue o cb).1 := by
            simp only [act, htodo]
          rw [hmonitor]
          refine h.sees hran.keeps hran.takes hquick ht (fun d hd hact => ?_) (hran.sees ht)
          obtain ⟨hover, hdue⟩ := hpass.overdue (hpass.timers i t ht).2 hd
          exact ⟨hdue hact, hover⟩

end Steps

/-! ### Whole runs -/

/-- The target `i` is detected: `w` is how late an alarm may come. -/
structure DetectedWithin (e w : ℤ) (i : ℕ) (m : Monitor) : Prop where
  online : ∀ t, m.targets[i]? = some t → t.isonline = true →
    ∃ a, lastAnswer i m.hist = some a ∧ m.now ≤ a + e + w
  alarm : ∀ h₁ h₂ text ok τ, m.hist = h₁ ++ .notice i false text ok τ :: h₂ →
    ∃ a, lastAnswer i h₁ = some a ∧ a + e ≤ τ ∧ τ ≤ a + e + w
  reported : ∀ a, lastAnswer i m.hist = some a → a + e + w < m.now → ReportedDown i m.hist

section Runs

variable {wall : ℤ → Reading} {cfg : Config} {t₀ : ℤ} {took D : ℕ}
  {arrivals : List (SockAddr × ℕ)} {es : List Event} {i : ℕ}

lemma watched_start (slack : ℤ) :
    Watched (seconds cfg.errInterval) D slack t₀ i (start cfg t₀ took arrivals).monitor := by
  have hnil : observed i (start cfg t₀ took arrivals).monitor.hist = [] := rfl
  have hnow : (start cfg t₀ took arrivals).monitor.now = t₀ + took := rfl
  refine ⟨rfl, ⟨?_, ?_, ?_, ?_⟩, fun t ht hon => ?_, ?_, ?_⟩ <;> try rw [hnil]
  · simp [hnow]
  · simp
  · simp
  · simp
  · obtain ⟨t₁, ht₁, rfl⟩ := Option.map_eq_some_iff.mp
      (show ((init cfg t₀).targets[i]?).map _ = some t from List.getElem?_map ▸ ht)
    obtain ⟨x, -, rfl⟩ := Option.map_eq_some_iff.mp
      (show (cfg.targets[i]?).map Entry.newTarget = some t₁ from List.getElem?_map ▸ ht₁)
    cases hon
  · simp
  · simp

/-- In a run whose calls are quick every target is watched, by a loop that is in
a pass. -/
lemma watched_run (hp : 0 < cfg.pollInterval) (he : 0 < cfg.errInterval) (htook : took ≤ D)
    (hi : i < cfg.targets.length)
    (h : ((machine wall).restrict (Quick D)).Allowed (start cfg t₀ took arrivals) es) :
    (∃ began, InPass cfg.targets.length D began
        ((machine wall).exec (start cfg t₀ took arrivals) es)) ∧
      Watched (seconds cfg.errInterval) D (2 * span cfg.targets.length D) t₀ i
        ((machine wall).exec (start cfg t₀ took arrivals) es).monitor := by
  have hstep : ∀ s e, ((∃ began, InPass cfg.targets.length D began s) ∧
      Watched (seconds cfg.errInterval) D (2 * span cfg.targets.length D) t₀ i s.monitor) →
      ((machine wall).restrict (Quick D)).guard s e →
      (∃ began, InPass cfg.targets.length D began (act wall s e)) ∧
        Watched (seconds cfg.errInterval) D (2 * span cfg.targets.length D) t₀ i
          (act wall s e).monitor := by
    rintro s e ⟨⟨began, hpass⟩, hwatch⟩ ⟨hg, hquick⟩
    exact ⟨hpass.step hg hquick, hwatch.step hi hpass hg hquick⟩
  exact h.induction hstep ⟨⟨t₀, inPass_start hp.le he.le t₀ htook arrivals⟩, watched_start _⟩

/-- How late an alarm may come: the time of the notification that took the target
online, and two passes. -/
def tolerance (n D : ℕ) : ℤ := D + 2 * span n D

/-- In every run whose calls of Telegram are quick, a target is reported down no earlier than
`err_interval` after its last handled answer and not later than the tolerance
allows. -/
theorem detection_within (hp : 0 < cfg.pollInterval) (he : 0 < cfg.errInterval) (htook : took ≤ D)
    (hi : i < cfg.targets.length)
    (h : ((machine wall).restrict (Quick D)).Allowed (start cfg t₀ took arrivals) es) :
    DetectedWithin (seconds cfg.errInterval) (tolerance cfg.targets.length D) i
      ((machine wall).exec (start cfg t₀ took arrivals) es).monitor := by
  obtain ⟨⟨began, hpass⟩, hwatch⟩ := watched_run hp he htook hi h
  generalize (machine wall).exec (start cfg t₀ took arrivals) es = s at hpass hwatch
  have hlast := lastAnswer_observed i s.monitor.hist
  have honline : ∀ t, s.monitor.targets[i]? = some t → t.isonline = true →
      ∃ a, lastAnswer i s.monitor.hist = some a ∧
        s.monitor.now ≤ a + seconds cfg.errInterval + tolerance cfg.targets.length D := by
    intro t ht hon
    obtain ⟨a, d, ha, hd, -, hhigh⟩ := hwatch.online t ht hon
    have hover := (hpass.overdue (hpass.timers i t ht).2 hd).1
    refine ⟨a, by rw [← hlast, ha], ?_⟩
    rw [tolerance]
    linarith
  refine ⟨honline, ?_, ?_⟩
  · intro h₁ h₂ text ok τ hsplit
    have hobs : observed i s.monitor.hist
        = observed i h₁ ++ .notice false ok τ :: observed i h₂ := by
      rw [hsplit, observed_append]
      simp [observed, obsOf]
    obtain ⟨a, ha, hlow, hhigh⟩ := hwatch.alarms.split hobs ok τ rfl
    exact ⟨a, by rw [← lastAnswer_observed, ha], hlow, hhigh⟩
  · intro a ha hlate
    have ht : s.monitor.targets[i]? = some (s.monitor.targets.get ⟨i, hpass.targets ▸ hi⟩) :=
      List.getElem?_eq_getElem _
    generalize s.monitor.targets.get ⟨i, hpass.targets ▸ hi⟩ = t at ht
    cases hon : t.isonline with
    | true =>
        obtain ⟨b, hb, hnow⟩ := honline t ht hon
        obtain rfl : a = b := Option.some.inj (ha.symm.trans hb)
        exact absurd hlate (not_lt.mpr hnow)
    | false => exact reportedDown_of_observed (hwatch.reported t ht hon a (hlast.trans ha))

/-- A host whose answers are handled within `R` of one of every `k + 1` polls is
never reported down, if `k + 1` pauses between polls and `R` are less than
`err_interval`. -/
theorem no_false_alarm_slow (addr : SockAddr) (k : ℕ) (R : ℤ) (hp : 0 < cfg.pollInterval)
    (hR : 0 ≤ R) (hgap : (k + 1) * (seconds cfg.pollInterval + 2 * span cfg.targets.length D) + R
      < seconds cfg.errInterval)
    (htook : took ≤ D) (hi : i < cfg.targets.length)
    (h : ((machine wall).restrict (Quick D)).Allowed (start cfg t₀ took arrivals) es)
    (hattr : ∀ who re t, .answer addr who re t ∈
      ((machine wall).exec (start cfg t₀ took arrivals) es).monitor.hist → who = some i)
    (hlive : AnswersWithin k R addr i
      ((machine wall).exec (start cfg t₀ took arrivals) es).monitor)
    (text : Text) (ok : Bool) (τ : ℤ) :
    .notice i false text ok τ ∉
      ((machine wall).exec (start cfg t₀ took arrivals) es).monitor.hist := by
  have hppos : 0 < seconds cfg.pollInterval := by
    rw [seconds]
    omega
  have hspan := span_nonneg cfg.targets.length D
  have hgap0 : 0 ≤ seconds cfg.pollInterval + 2 * span cfg.targets.length D := by linarith
  have hepos : 0 < cfg.errInterval := by
    have hprod := mul_nonneg (by positivity : 0 ≤ (k : ℤ) + 1) hgap0
    have hsec : 0 < seconds cfg.errInterval := by linarith
    rw [seconds] at hsec
    omega
  obtain ⟨-, hwatch⟩ := watched_run hp hepos htook hi h
  have hspaced := (pollsPaced_run hp hepos htook hi h).spaced
  generalize (machine wall).exec (start cfg t₀ took arrivals) es = s at *
  generalize seconds cfg.pollInterval + 2 * span cfg.targets.length D = gap at *
  intro hmem
  have hnotice : .notice false ok τ ∈ observed i s.monitor.hist :=
    List.mem_filterMap.mpr ⟨_, hmem, by simp [obsOf]⟩
  refine Detector.no_late_alarm hwatch.alarms hwatch.timed (fun a ha hlate => ?_) ok τ hnotice
  -- the next `k + 1` polls after the answer come early enough
  have hwindow : a + (k + 1) • gap < s.monitor.now := by
    rw [nsmul_eq_mul]
    push_cast
    linarith
  have hsince : t₀ ≤ a := hwatch.timed.since _ ha
  obtain ⟨q, hq⟩ := hspaced.window hgap0 hsince hwindow
  have hbound : ∀ j ≤ k, a + (j + 1) • gap ≤ a + (k + 1) * gap := by
    intro j hj
    rw [nsmul_eq_mul]
    push_cast
    gcongr
  obtain ⟨last, hlast, -, hsoon⟩ := hq k le_rfl
  obtain ⟨j, hj, τ', hτ', who, re, t, hans, hge, hle⟩ :=
    hlive q last hlast (by linarith [hbound k le_rfl])
  obtain rfl := hattr who re t hans
  obtain ⟨τ'', hτ'', hafter, hupper⟩ := hq j hj
  obtain rfl : τ' = τ'' := Option.some.inj (hτ'.symm.trans hτ'')
  refine ⟨t, answer_mem_observed.mpr ⟨addr, re, hans⟩, by linarith, by linarith [hbound j hj]⟩

end Runs

theorem detection_within_answeredSlowly :
    DetectedWithin (seconds 15) (tolerance 1 1000000000) 0
      ((machine fun _ => .epoch).exec (start polledOften 0 1000000000 [])
        answeredSlowly).monitor :=
  detection_within (by decide) (by decide) le_rfl (by decide)
    answeredSlowly_allowed

theorem no_false_alarm_answeredSlowly :
    .notice 0 false (bytes "local: Host pi is down!") true 25000000000 ∉
      ((machine fun _ => .epoch).exec (start polledOften 0 1000000000 [])
        answeredSlowly).monitor.hist := by
  have hhist : ((machine fun _ => .epoch).exec (start polledOften 0 1000000000 [])
      answeredSlowly).monitor.hist
      = [.poll 0 (some piAddr) 5000000000, .answer piAddr (some 0) 0 5000000000,
        .notice 0 true (bytes "local: Host pi is up!") true 5000000000,
        .record 0 0 ⟨0, 0⟩ 6000000000] := rfl
  refine no_false_alarm_slow piAddr 0 0 (by decide) le_rfl (by decide)
    le_rfl (by decide) answeredSlowly_allowed ?_ ?_ _ true 25000000000
  · intro who re t hmem
    rw [hhist] at hmem
    have hans : who = some 0 ∧ re = 0 ∧ t = 5000000000 := by simpa using hmem
    exact hans.1
  · intro k last hk hlt
    have hpolls : pollsOf 0 ((machine fun _ => .epoch).exec (start polledOften 0 1000000000 [])
        answeredSlowly).monitor.hist = [5000000000] := rfl
    rw [hpolls] at hk ⊢
    rw [hhist]
    match k, hk with
    | 0, hk => exact ⟨0, le_rfl, 5000000000, rfl, some 0, 0, 5000000000, by simp, by simp⟩
    | k + 1, hk => simp at hk

end Hearthbeat.Loop
