import Hearthbeat.Monitor.OnTime
import Hearthbeat.Libevent.Late

/-!
How late the event loop can be when its calls of Telegram take their time.

Only these calls take time: a poll, a lookup, a datagram that is sent and a row that
is stored take none. A pass over `n` targets waits for Telegram at most `n + 1` times,
once for the datagram that it reads and once for every error timer. So a pass in which
no call takes more than `D` lasts for at most `span n D`.

* `Timers P m`: every timer of a monitor has the property `P`; the rule
  `Timers.runCallback` says what a callback may do to it.
* `InPass`: a loop during a pass, with the time the pass may still take;
  `InPass.step` keeps it, and `inPass_run` holds after every run whose calls of
  Telegram are `Quick`.
* `InPass.overdue`: no timer is ever more than two passes overdue.
-/

namespace Hearthbeat

/-- Whether a callback may wait for Telegram, which is all that takes time; a poll
sends no message. -/
def Callback.slow : Callback → Bool
  | .poll _ => false
  | _ => true

namespace Loop

open Monitor

/-! ### The timers of a monitor -/

/-- Every timer has the property of its callback. -/
def Timers (P : Callback → Timer ℤ → Prop) (m : Monitor) : Prop :=
  ∀ i (t : Target), m.targets[i]? = some t → P (.poll i) t.pollEv ∧ P (.err i) t.errEv

section Timers

variable {P P' : Callback → Timer ℤ → Prop} {wall : ℤ → Reading} {m m' : Monitor}
  {queue : List Queued} {o : Outcome} {cb : Callback}

lemma Timers.of_eq (h : Timers P m)
    (hsetup : m'.targets.map Target.setup = m.targets.map Target.setup)
    (herr : m'.targets.map Target.errEv = m.targets.map Target.errEv) : Timers P m' := by
  intro i t ht
  have hpoll := congrArg (fun ts => ts[i]?.map Prod.snd) hsetup
  have herr := congrArg (fun ts => ts[i]?) herr
  simp only [List.getElem?_map, ht, Option.map_some, Option.map_map] at hpoll herr
  obtain ⟨t₀, ht₀, heq⟩ := Option.map_eq_some_iff.mp herr.symm
  rw [ht₀, Option.map_some, Option.some.injEq] at hpoll
  have hpoll : t.pollEv = t₀.pollEv := hpoll
  rw [hpoll, ← heq]
  exact h i t₀ ht₀

/-- An assignment to one target. -/
lemma Timers.modifyTarget (h : Timers P m) {i : ℕ} {f : Target → Target}
    (hother : ∀ j ≠ i, ∀ t, (P (.poll j) t → P' (.poll j) t) ∧ (P (.err j) t → P' (.err j) t))
    (hf : ∀ t, m.targets[i]? = some t → P' (.poll i) (f t).pollEv ∧ P' (.err i) (f t).errEv) :
    Timers P' (m.modifyTarget i f) := by
  intro j t ht
  by_cases hij : i = j
  · subst hij
    rw [modifyTarget_same] at ht
    obtain ⟨t₀, ht₀, rfl⟩ := Option.map_eq_some_iff.mp ht
    exact hf t₀ ht₀
  · rw [modifyTarget_other m f hij] at ht
    have hj : j ≠ i := Ne.symm hij
    exact ⟨(hother j hj _).1 (h j t ht).1, (hother j hj _).2 (h j t ht).2⟩

lemma Timers.imp (h : Timers P m) (hP : ∀ cb t, P cb t → P' cb t) : Timers P' m :=
  fun i t ht => ⟨hP _ _ (h i t ht).1, hP _ _ (h i t ht).2⟩

/-- A datagram read adds the error timer of the target that answered, at the end
of the callback. -/
lemma Timers.handleAnswer (h : Timers P m) (wall : ℤ → Reading) (src : Option SockAddr) (re : ℕ)
    (res : Resolver) (c : Call)
    (hadd : ∀ i now, m.now ≤ now → P (.err i) ⟨m.errTv, some (now + m.errTv), none⟩) :
    Timers P (m.handleAnswer wall src re res c) := by
  cases src with
  | none => exact h
  | some client =>
      cases hw : getTarget res m.targets client with
      | none =>
          rw [handleAnswer_unattributed c wall re hw]
          exact h
      | some i =>
          have ht := List.getElem?_eq_getElem (getTarget_lt hw)
          have hsetup := (Passive.handleAnswer wall m (some client) re res c).setup
          have hapart : ∀ j ≠ i, Apart j m (m.handleAnswer wall (some client) re res c) :=
            fun j hj => Apart.handleAnswer wall m _ re res c fun client' heq hw' => hj <| by
              obtain rfl : client = client' := Option.some.inj heq
              exact Option.some.inj (hw'.symm.trans hw)
          intro j t htj
          by_cases hj : j = i
          · subst hj
            have hpoll := congrArg (fun ts => ts[j]?.map Prod.snd) hsetup
            simp only [List.getElem?_map, htj, ht, Option.map_some, Option.some.injEq] at hpoll
            have hreset := resetErrorTimer_target
              (m := m.log (.answer client (some j) re m.now)) c ht
            have hnow := (resetErrorTimer_takes (m.log (.answer client (some j) re m.now)) j c).1
            rw [handleAnswer_attributed c wall re hw ht,
              (Apart.recordAnswer wall _ j re _).target, hreset, Option.some.injEq] at htj
            refine ⟨?_, ?_⟩
            · have hpoll : t.pollEv = (m.targets.get ⟨j, getTarget_lt hw⟩).pollEv := hpoll
              rw [hpoll]
              exact (h j _ ht).1
            · rw [← htj]
              exact hadd j _ hnow
          · rw [(hapart j hj).target] at htj
            exact h j t htj

/-- What a callback does to the timers: it reschedules its own, if that is still
active, or adds an error timer. -/
lemma Timers.runCallback (h : Timers P m)
    (hadd : ∀ i now, m.now ≤ now → P' (.err i) ⟨m.errTv, some (now + m.errTv), none⟩)
    (hrun : ∀ t, t.active.isSome = true → P cb t → P' cb (t.reschedule m.now))
    (hidle : ∀ t, t.active = none → P cb t → P' cb t)
    (hother : ∀ cb' t, cb' ≠ cb → P cb' t → P' cb' t) :
    Timers P' (runCallback wall m queue o cb).1 := by
  cases cb with
  | listen =>
      -- the listener runs no timer, so each keeps what it had, and an answer adds one
      have hrest : Timers P' m := fun i t ht =>
        ⟨hother _ _ (by simp) (h i t ht).1, hother _ _ (by simp) (h i t ht).2⟩
      simp only [Loop.runCallback]
      split
      · exact hrest
      · split_ifs
        · exact hrest.handleAnswer wall _ o.re o.res o.call hadd
        · exact hrest.handleAnswer wall none o.re o.res o.call hadd
  | poll i =>
      -- an event that is no longer active is skipped, and its timer stays idle
      have hskip : (∀ t, m.targets[i]? = some t → t.pollEv.active = none) → Timers P' m := by
        intro hinactive j t ht
        refine ⟨?_, hother _ _ (by simp) (h j t ht).2⟩
        by_cases hj : j = i
        · subst hj
          exact hidle _ (hinactive t ht) (h j t ht).1
        · exact hother _ _ (by simp [hj]) (h j t ht).1
      simp only [Loop.runCallback]
      split
      · rename_i hnone
        exact hskip (by simp [hnone])
      · rename_i t ht
        split_ifs with hact
        · -- the event is added again, and the request leaves the timers alone
          refine Timers.of_eq (m := reschedulePoll m i) ?_ ?_ ?_
          · refine h.modifyTarget (fun j hj t => ⟨hother _ _ (by simpa using hj),
              hother _ _ (by simp)⟩) fun t' ht' => ?_
            obtain rfl : t = t' := Option.some.inj (ht.symm.trans ht')
            exact ⟨hrun _ hact (h i t ht).1, hother _ _ (by simp) (h i t ht).2⟩
          all_goals
            have htargets : ((reschedulePoll m i).handlePollEvent wall i o.res o.ok).targets
                = (reschedulePoll m i).targets :=
              List.ext_getElem? fun j => (Apart.sendBip wall _ i o.res o.ok).target
            rw [htargets]
        · exact hskip fun t' ht' => by simpa [← Option.some.inj (ht.symm.trans ht')] using hact
  | err i =>
      have hskip : (∀ t, m.targets[i]? = some t → t.errEv.active = none) → Timers P' m := by
        intro hinactive j t ht
        refine ⟨hother _ _ (by simp) (h j t ht).1, ?_⟩
        by_cases hj : j = i
        · subst hj
          exact hidle _ (hinactive t ht) (h j t ht).2
        · exact hother _ _ (by simp [hj]) (h j t ht).2
      simp only [Loop.runCallback]
      split
      · rename_i hnone
        exact hskip (by simp [hnone])
      · rename_i t ht
        split_ifs with hact
        · refine Timers.of_eq (m := rescheduleErr m i) ?_
            (Passive.handleErrEvent _ i o.call).setup (handleErrEvent_errEv o.call _ i)
          refine h.modifyTarget (fun j hj t => ⟨hother _ _ (by simp),
            hother _ _ (by simpa using hj)⟩) fun t' ht' => ?_
          obtain rfl : t = t' := Option.some.inj (ht.symm.trans ht')
          exact ⟨hother _ _ (by simp) (h i t ht).1, hrun _ hact (h i t ht).2⟩
        · exact hskip fun t' ht' => by simpa [← Option.some.inj (ht.symm.trans ht')] using hact

end Timers

/-! ### A pass and its time -/

/-- The time that a pass over `n` targets may take, if no call of Telegram takes more
than `D` and nothing else takes time. -/
def span (n D : ℕ) : ℤ := (n + 1) * D

/-- No call of Telegram takes more than `D`. -/
def Quick (D : ℕ) : Loop → Event → Prop
  | _, .run o => o.call.took ≤ D
  | _, _ => True

instance (D : ℕ) : ∀ (s : Loop) (e : Event), Decidable (Quick D s e)
  | _, .run o => inferInstanceAs (Decidable (o.call.took ≤ D))
  | _, .arrive _ => isTrue trivial
  | _, .wait _ => isTrue trivial
  | _, .pass _ => isTrue trivial

instance (wall : ℤ → Reading) (D : ℕ) (s : Loop) (e : Event) :
    Decidable (((machine wall).restrict (Quick D)).guard s e) :=
  inferInstanceAs (Decidable (s.guard wall e ∧ Quick D s e))

/-- The calls of Telegram that the rest of a pass may still make. -/
def slowLeft (todo : List Callback) : ℕ := todo.countP Callback.slow

/-- A loop over `n` targets in a pass that began at `began`. -/
structure InPass (n D : ℕ) (began : ℤ) (s : Loop) : Prop where
  targets : s.monitor.targets.length = n
  errTv : 0 ≤ s.monitor.errTv
  started : began ≤ s.monitor.now
  spent : s.monitor.now + (slowLeft s.todo : ℤ) * D ≤ began + span n D
  timers : Timers (fun cb t => t.Held began (span n D) (cb ∈ s.todo)) s.monitor

section Passes

variable {wall : ℤ → Reading} {n D : ℕ} {began : ℤ} {s : Loop}

lemma span_nonneg (n D : ℕ) : 0 ≤ span n D := by
  rw [span]
  positivity

/-- Each target has one error timer. -/
lemma slowLeft_dueCallbacks (m : Monitor) : slowLeft (dueCallbacks m) ≤ m.targets.length := by
  rw [slowLeft, dueCallbacks, List.countP_flatMap]
  calc _ ≤ ((List.range m.targets.length).map fun _ => 1).sum := by
        refine List.sum_le_sum fun i _ => ?_
        simp only [Function.comp_apply]
        split
        · simp
        · split_ifs <;> simp [Callback.slow]
    _ = m.targets.length := by simp

/-- Between two passes no timer is active, and the one before was not long. -/
lemma InPass.idle (h : InPass n D began s) (hdone : s.todo = []) :
    s.monitor.now ≤ began + span n D ∧
      Timers (fun _ t => t.Held began (span n D) False) s.monitor := by
  have hspent := h.spent
  rw [hdone] at hspent
  refine ⟨by simpa [slowLeft] using hspent, h.timers.imp fun cb t ht => ht.imp ?_⟩
  simp [hdone]

/-- A pass begins. -/
lemma InPass.pass (h : InPass n D began s) (hdone : s.todo = []) {order : List Callback}
    (hperm : order.Perm (dueCallbacks s.monitor)) :
    InPass n D s.monitor.now (act wall s (.pass order)) := by
  obtain ⟨hlast, hidle⟩ := h.idle hdone
  refine ⟨by simp [act, h.targets], h.errTv, le_rfl, ?_, fun i t ht => ?_⟩
  · have hslow : slowLeft order ≤ n := by
      rw [slowLeft, hperm.countP_eq, ← h.targets]
      exact slowLeft_dueCallbacks s.monitor
    have hlisten : slowLeft (if s.queue = [] then [] else [.listen]) ≤ 1 := by
      split_ifs <;> simp [slowLeft, Callback.slow]
    have hall : slowLeft ((if s.queue = [] then [] else [.listen]) ++ order) ≤ n + 1 := by
      rw [slowLeft, List.countP_append]
      rw [slowLeft] at hslow hlisten
      omega
    have htime : (slowLeft ((if s.queue = [] then [] else [.listen]) ++ order) : ℤ) * D
        ≤ span n D := by
      rw [span]
      gcongr
      exact_mod_cast hall
    simp only [act]
    omega
  · obtain ⟨t₀, ht₀, rfl⟩ := Option.map_eq_some_iff.mp (List.getElem?_map ▸ ht)
    obtain ⟨hpoll, herr⟩ := mem_dueCallbacks ht₀
    have hmem : ∀ {cb}, cb ∈ dueCallbacks s.monitor → cb ∈ (act wall s (.pass order)).todo :=
      fun hcb => List.mem_append_right _ (hperm.mem_iff.mpr hcb)
    exact ⟨(hidle i t₀ ht₀).1.expire hlast fun hdue => hmem (hpoll hdue),
      (hidle i t₀ ht₀).2.expire hlast fun hdue => hmem (herr hdue)⟩

/-- A callback runs. -/
lemma InPass.run (h : InPass n D began s) {o : Outcome} (hrun : s.todo ≠ [])
    (hquick : o.call.took ≤ D) : InPass n D began (act wall s (.run o)) := by
  cases htodo : s.todo with
  | nil => exact absurd htodo hrun
  | cons cb todo =>
      have hran := runCallback_ran wall s.monitor s.queue o cb
      have htargets := congrArg List.length hran.keeps.entries
      have hnow : s.monitor.now + (slowLeft (cb :: todo) : ℤ) * D ≤ began + span n D := by
        rw [← htodo]
        exact h.spent
      simp only [act, htodo]
      refine ⟨by simpa [h.targets] using htargets, hran.keeps.errTv ▸ h.errTv,
        h.started.trans hran.takes.1, ?_, ?_⟩
      · -- a callback that may wait for Telegram is one less to run
        cases hslow : cb.slow with
        | false =>
            have hpoll : ∃ i, cb = .poll i := by cases cb <;> simp_all [Callback.slow]
            obtain ⟨i, rfl⟩ := hpoll
            have hinstant : (runCallback wall s.monitor s.queue o (.poll i)).1.now
                = s.monitor.now := by
              simp only [runCallback]
              split
              · rfl
              · split_ifs
                · exact sendBip_now wall (reschedulePoll s.monitor i) i o.res o.ok
                · rfl
            simp only [slowLeft, List.countP_cons, hslow] at hnow ⊢
            rw [hinstant]
            simpa using hnow
        | true =>
            have htakes := hran.takes.2
            have hcount : slowLeft (cb :: todo) = slowLeft todo + 1 := by
              simp [slowLeft, hslow]
            rw [hcount] at hnow
            push_cast at hnow
            have hquick' : (o.call.took : ℤ) ≤ D := by exact_mod_cast hquick
            linarith
      · have hheld := h.timers
        rw [htodo] at hheld
        refine hheld.runCallback (fun i now hle => ?_) (fun t _ ht => ht.reschedule h.started)
          (fun t hact ht => ht.of_inactive hact) fun cb' t hne ht => ht.imp ?_
        · exact Timer.held_added h.errTv (h.started.trans hle)
        · simp [hne]

/-- Every step whose call is quick stays in a pass, or begins one. -/
theorem InPass.step (h : InPass n D began s) {e : Event} (hg : s.guard wall e)
    (hquick : Quick D s e) : ∃ began', InPass n D began' (act wall s e) := by
  cases e with
  | arrive src => exact ⟨began, h.targets, h.errTv, h.started, h.spent, h.timers⟩
  | wait d =>
      obtain ⟨hdone, -, hspares⟩ := hg
      obtain ⟨-, hidle⟩ := h.idle hdone
      refine ⟨s.monitor.now + d, h.targets, h.errTv, le_rfl, ?_, fun i t ht => ?_⟩
      · have hspan := span_nonneg n D
        simp [act, slowLeft, hdone, hspan]
      · have hmem := List.mem_of_getElem? ht
        exact ⟨((hidle i t ht).1.wait (hspares t hmem).1).imp False.elim,
          ((hidle i t ht).2.wait (hspares t hmem).2).imp False.elim⟩
  | pass order => exact ⟨s.monitor.now, h.pass hg.1 hg.2⟩
  | run o => exact ⟨began, h.run hg.1 hquick⟩

/-- As `main` enters the loop, the message that the monitor is starting has taken
its time. -/
lemma inPass_start {cfg : Config} (hpoll : 0 ≤ cfg.pollInterval) (herr : 0 ≤ cfg.errInterval)
    (t₀ : ℤ) {took : ℕ} (htook : took ≤ D) (arrivals : List (SockAddr × ℕ)) :
    InPass cfg.targets.length D t₀ (start cfg t₀ took arrivals) := by
  have hpollTv : 0 ≤ seconds cfg.pollInterval := mul_nonneg hpoll (by norm_num)
  have herrTv : 0 ≤ seconds cfg.errInterval := mul_nonneg herr (by norm_num)
  refine ⟨by simp [start, Monitor.start, init], herrTv, by simp [start], ?_, fun i t ht => ?_⟩
  · have htook' : (took : ℤ) ≤ D := by exact_mod_cast htook
    have hmore : 0 ≤ (cfg.targets.length : ℤ) * D := by positivity
    simp only [start, slowLeft, List.countP_nil, span, Nat.cast_zero]
    linarith
  · obtain ⟨t₁, -, rfl⟩ := Option.map_eq_some_iff.mp (List.getElem?_map ▸ ht)
    exact ⟨Timer.held_added hpollTv le_rfl, Timer.held_added herrTv le_rfl⟩

/-- In a run whose calls are quick, the loop is always in a pass. -/
theorem inPass_run {cfg : Config} (hpoll : 0 ≤ cfg.pollInterval) (herr : 0 ≤ cfg.errInterval)
    {t₀ : ℤ} {took : ℕ} (htook : took ≤ D) {arrivals : List (SockAddr × ℕ)} {es : List Event}
    (h : ((machine wall).restrict (Quick D)).Allowed (start cfg t₀ took arrivals) es) :
    ∃ began, InPass cfg.targets.length D began
      ((machine wall).exec (start cfg t₀ took arrivals) es) := by
  have hstep : ∀ s e, (∃ began, InPass cfg.targets.length D began s) →
      ((machine wall).restrict (Quick D)).guard s e →
      ∃ began, InPass cfg.targets.length D began (act wall s e) := by
    rintro s e ⟨began, hs⟩ ⟨hg, hquick⟩
    exact hs.step hg hquick
  exact h.induction hstep ⟨t₀, inPass_start hpoll herr t₀ htook arrivals⟩

/-- No timer is more than two passes overdue, and none is active before its
deadline. -/
lemma InPass.overdue (h : InPass n D began s) {cb : Callback} {t : Timer ℤ}
    (ht : t.Held began (span n D) (cb ∈ s.todo)) {d : ℤ} (hd : t.deadline = some d) :
    s.monitor.now ≤ d + 2 * span n D ∧ (t.active.isSome = true → d ≤ s.monitor.now) := by
  constructor
  · have hnow : s.monitor.now ≤ began + span n D := by
      have hleft : 0 ≤ (slowLeft s.todo : ℤ) * D := by positivity
      linarith [h.spent]
    simpa [two_nsmul, two_mul] using ht.lateness (span_nonneg n D) hnow hd
  · intro hact
    obtain ⟨d', hd'⟩ := Option.isSome_iff_exists.mp hact
    obtain rfl : d' = d := by simpa [Timer.deadline, hd'] using hd
    exact (ht.active d' hd').2.1.trans h.started

end Passes

end Loop

end Hearthbeat
