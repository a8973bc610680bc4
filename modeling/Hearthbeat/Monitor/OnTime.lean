import Hearthbeat.Monitor.Loop

/-!
The event loop when its callbacks take no time.

Run pass by pass, the loop finds timers due and runs their callbacks later, with
others in between. If no callback takes time, this makes no difference to a
timer that fires at its deadline and is rescheduled at once: such a run of
`Loop.machine` is a run of `Monitor.machine`.

* `settled`: a monitor between two callbacks of a pass, with the timers found due
  that have not run yet pending again.
* `Timely`: the timers of a monitor are on time, and those found due wait for their
  callbacks; every callback that takes no time keeps it.
* `step_simulates`: a step of the loop is at most one event of the machine, and
  `run_of_instant` lifts this to runs.
-/

namespace Hearthbeat.Loop

open Monitor

/-! ### Monitors in the middle of a pass -/

/-- Take back that the loop found the timers of a target due. -/
def settle (t : Target) : Target := { t with pollEv := t.pollEv.settle, errEv := t.errEv.settle }

/-- The monitor as if the loop had not looked yet at the timers whose callbacks
are still to run. -/
def settled (m : Monitor) : Monitor := { m with targets := m.targets.map settle }

section Settled

variable (wall : ℤ → Reading) (m : Monitor) (i : ℕ) (res : Resolver) (c : Call)

lemma settled_target : (settled m).targets[i]? = m.targets[i]?.map settle := List.getElem?_map

lemma settled_getTarget (client : SockAddr) :
    getTarget res (settled m).targets client = getTarget res m.targets client := by
  refine getTarget_congr res client ?_
  rw [settled, List.map_map]
  rfl

lemma settled_modifyTarget {f g : Target → Target}
    (h : ∀ t, m.targets[i]? = some t → settle (f t) = g (settle t)) :
    settled (m.modifyTarget i f) = (settled m).modifyTarget i g := by
  have htargets : (settled (m.modifyTarget i f)).targets
      = ((settled m).modifyTarget i g).targets := by
    refine List.ext_getElem? fun j => ?_
    rw [settled_target]
    by_cases hij : i = j
    · subst hij
      rw [modifyTarget_same, modifyTarget_same, settled_target, Option.map_map, Option.map_map]
      exact Option.map_congr fun t ht => h t ht
    · rw [modifyTarget_other m f hij, modifyTarget_other _ g hij, settled_target]
  simp only [settled, modifyTarget] at htargets ⊢
  rw [htargets]

/-- The target in it may be known. -/
lemma settled_modifyTarget_of_eq {f g : Target → Target} {t : Target}
    (ht : m.targets[i]? = some t) (h : settle (f t) = g (settle t)) :
    settled (m.modifyTarget i f) = (settled m).modifyTarget i g := by
  refine settled_modifyTarget m i fun t' ht' => ?_
  obtain rfl : t = t' := Option.some.inj (ht.symm.trans ht')
  exact h

lemma settled_sendBip (sent : Bool) :
    settled (m.sendBip wall i res sent) = (settled m).sendBip wall i res sent := by
  simp only [sendBip, settled_target]
  cases m.targets[i]? with
  | none => rfl
  | some t =>
      simp only [Option.map_some, settle]
      split
      · rfl
      · split_ifs <;> rfl

lemma settled_handleErrEvent :
    settled (m.handleErrEvent i c) = (settled m).handleErrEvent i c := by
  cases ht : m.targets[i]? with
  | none => simp [handleErrEvent, settled_target, ht]
  | some t =>
      have ht' : (settled m).targets[i]? = some (settle t) := by rw [settled_target, ht]; rfl
      cases hon : t.isonline with
      | false => rw [handleErrEvent_offline c ht hon, handleErrEvent_offline c ht' hon]
      | true =>
          have hoff : settled (m.modifyTarget i fun t => { t with isonline := false })
              = (settled m).modifyTarget i fun t => { t with isonline := false } :=
            settled_modifyTarget m i fun _ _ => rfl
          rw [handleErrEvent_online c ht hon, handleErrEvent_online c ht' hon, ← hoff]
          rfl

lemma settled_resetErrorTimer :
    settled (m.resetErrorTimer i c) = (settled m).resetErrorTimer i c := by
  cases ht : m.targets[i]? with
  | none => simp [resetErrorTimer, settled_target, ht]
  | some t =>
      have ht' : (settled m).targets[i]? = some (settle t) := by rw [settled_target, ht]; rfl
      cases hon : t.isonline with
      | true =>
          rw [resetErrorTimer_online c ht hon, resetErrorTimer_online c ht' hon]
          exact settled_modifyTarget m i fun _ _ => rfl
      | false =>
          rw [resetErrorTimer_offline c ht hon, resetErrorTimer_offline c ht' hon]
          exact settled_modifyTarget _ i fun _ _ => rfl

lemma settled_recordAnswer (re : ℕ) (name : Text) :
    settled (m.recordAnswer wall i re name) = (settled m).recordAnswer wall i re name := by
  have hinterval : logtimeSetRecord (settled m).clocks name (wall (settled m).now)
      = logtimeSetRecord m.clocks name (wall m.now) := rfl
  simp only [recordAnswer, hinterval]
  split <;> rfl

/-- A datagram read concerns no timer that was found due but its target's own,
which it sets anew. -/
lemma settled_handleAnswer (src : Option SockAddr) (re : ℕ) :
    settled (m.handleAnswer wall src re res c) = (settled m).handleAnswer wall src re res c := by
  cases src with
  | none => rfl
  | some client =>
      have hwho := settled_getTarget m res client
      cases hw : getTarget res m.targets client with
      | none =>
          rw [hw] at hwho
          rw [handleAnswer_unattributed c wall re hw, handleAnswer_unattributed c wall re hwho]
          rfl
      | some i =>
          rw [hw] at hwho
          obtain ⟨t, ht⟩ : ∃ t, m.targets[i]? = some t :=
            ⟨_, List.getElem?_eq_getElem (getTarget_lt hw)⟩
          have ht' : (settled m).targets[i]? = some (settle t) := by rw [settled_target, ht]; rfl
          rw [handleAnswer_attributed c wall re hw ht, handleAnswer_attributed c wall re hwho ht',
            settled_recordAnswer, settled_resetErrorTimer]
          rfl

end Settled

/-! ### Timers that are on time -/

/-- The timers of every target are on time, and those found due have their
callbacks in `todo`. -/
def Timely (todo : List Callback) (m : Monitor) : Prop :=
  ∀ i (t : Target), m.targets[i]? = some t →
    t.pollEv.Punctual m.now (.poll i ∈ todo) ∧ t.errEv.Punctual m.now (.err i ∈ todo)

section Timely

variable {todo todo' : List Callback} {m m' : Monitor} {i : ℕ} (c : Call)

lemma Timely.of_eq (h : Timely todo m) (hnow : m'.now = m.now) (htargets : m'.targets = m.targets) :
    Timely todo m' := by
  intro i t ht
  rw [htargets] at ht
  rw [hnow]
  exact h i t ht

/-- An assignment to one target, and what it does to the callbacks to run. -/
lemma Timely.modifyTarget (h : Timely todo m) {f : Target → Target}
    (hother : ∀ j ≠ i, (.poll j ∈ todo → .poll j ∈ todo') ∧ (.err j ∈ todo → .err j ∈ todo'))
    (hf : ∀ t, m.targets[i]? = some t → (f t).pollEv.Punctual m.now (.poll i ∈ todo') ∧
      (f t).errEv.Punctual m.now (.err i ∈ todo')) :
    Timely todo' (m.modifyTarget i f) := by
  intro j t ht
  by_cases hij : i = j
  · subst hij
    rw [modifyTarget_same] at ht
    obtain ⟨t₀, ht₀, rfl⟩ := Option.map_eq_some_iff.mp ht
    exact hf t₀ ht₀
  · rw [modifyTarget_other m f hij] at ht
    obtain ⟨hpoll, herr⟩ := h j t ht
    obtain ⟨hpoll', herr'⟩ := hother j (Ne.symm hij)
    exact ⟨hpoll.imp fun _ => hpoll', herr.imp fun _ => herr'⟩

lemma Timely.telegramSendMessage (h : Timely todo m) (up : Bool) (text : Text)
    (hc : c.took = 0) : Timely todo (m.telegramSendMessage i up text c) :=
  h.of_eq (by simp [Monitor.telegramSendMessage, hc]) rfl

lemma Timely.sendBip (h : Timely todo m) (wall : ℤ → Reading) (res : Resolver) (sent : Bool) :
    Timely todo (m.sendBip wall i res sent) := by
  refine h.of_eq (sendBip_now wall m i res sent) ?_
  exact List.ext_getElem? fun j => (Apart.sendBip wall m i res sent).target

lemma Timely.handleErrEvent (h : Timely todo m) (hc : c.took = 0) :
    Timely todo (m.handleErrEvent i c) := by
  simp only [Monitor.handleErrEvent]
  split
  · exact h
  · split_ifs
    · have hoff : Timely todo (m.modifyTarget i fun t => { t with isonline := false }) :=
        h.modifyTarget (fun _ _ => ⟨id, id⟩) fun t ht => h i t ht
      exact hoff.telegramSendMessage c _ _ hc
    · exact h

lemma Timely.resetErrorTimer (h : Timely todo m) (he : 0 ≤ m.errTv) (hc : c.took = 0) :
    Timely todo (m.resetErrorTimer i c) := by
  have hreset : ∀ {m : Monitor}, Timely todo m → 0 ≤ m.errTv → Timely todo (m.modifyTarget i
      fun t => { t with isonline := true, errEv := t.errEv.del.add m.now m.errTv }) :=
    fun h he => h.modifyTarget (fun _ _ => ⟨id, id⟩) fun t ht =>
      ⟨(h i t ht).1, Timer.punctual_added he _⟩
  simp only [Monitor.resetErrorTimer]
  split
  · exact h
  · split_ifs
    · exact hreset h he
    · exact hreset (h.telegramSendMessage c _ _ hc) he

lemma Timely.handleAnswer (h : Timely todo m) (he : 0 ≤ m.errTv) (hc : c.took = 0)
    (wall : ℤ → Reading) (src : Option SockAddr) (re : ℕ) (res : Resolver) :
    Timely todo (m.handleAnswer wall src re res c) := by
  cases src with
  | none => exact h
  | some client =>
      have hlog : ∀ x, Timely todo (m.log x) := fun x => h.of_eq rfl rfl
      cases hw : getTarget res m.targets client with
      | none =>
          rw [handleAnswer_unattributed c wall re hw]
          exact hlog _
      | some i =>
          have ht := List.getElem?_eq_getElem (getTarget_lt hw)
          rw [handleAnswer_attributed c wall re hw ht]
          refine ((hlog _).resetErrorTimer c he hc).of_eq (recordAnswer_now wall _ i re _) ?_
          exact List.ext_getElem? fun j => (Apart.recordAnswer wall _ i re _).target

/-- A callback to run that no active timer waits for. -/
lemma Timely.skip {cb : Callback} (h : Timely (cb :: todo) m)
    (hpoll : ∀ i t, m.targets[i]? = some t → t.pollEv.active.isSome = true → cb ≠ .poll i)
    (herr : ∀ i t, m.targets[i]? = some t → t.errEv.active.isSome = true → cb ≠ .err i) :
    Timely todo m := fun i t ht =>
  ⟨(h i t ht).1.imp fun hact hmem => (List.mem_cons.mp hmem).resolve_left
      fun heq => hpoll i t ht hact heq.symm,
    (h i t ht).2.imp fun hact hmem => (List.mem_cons.mp hmem).resolve_left
      fun heq => herr i t ht hact heq.symm⟩

lemma Timely.reschedulePoll (h : Timely (.poll i :: todo) m) :
    Timely todo (reschedulePoll m i) := by
  refine h.modifyTarget (fun j hj => ⟨fun hmem => ?_, fun hmem => ?_⟩) fun t ht =>
    ⟨(h i t ht).1.reschedule, (h i t ht).2.imp fun _ hmem => ?_⟩
  · simpa [hj] using hmem
  · simpa using hmem
  · simpa using hmem

lemma Timely.rescheduleErr (h : Timely (.err i :: todo) m) :
    Timely todo (rescheduleErr m i) := by
  refine h.modifyTarget (fun j hj => ⟨fun hmem => ?_, fun hmem => ?_⟩) fun t ht =>
    ⟨(h i t ht).1.imp fun _ hmem => ?_, (h i t ht).2.reschedule⟩
  · simpa using hmem
  · simpa [hj] using hmem
  · simpa using hmem

end Timely

/-! ### The simulation -/

/-- The event of the machine that a callback is; none if it does nothing. -/
def callbackEvent (m : Monitor) (queue : List Queued) (o : Outcome) :
    Callback → List Monitor.Event
  | .listen =>
      match queue with
      | [] => []
      | d :: _ => [.recv (if o.ok then some d.src else none) o.re o.res o.call]
  | .poll i =>
      match m.targets[i]? with
      | none => []
      | some t => if t.pollEv.active.isSome then [.poll i o.res o.ok] else []
  | .err i =>
      match m.targets[i]? with
      | none => []
      | some t => if t.errEv.active.isSome then [.err i o.call] else []

/-- The events of the machine that a step of the loop is. -/
def label (s : Loop) : Event → List Monitor.Event
  | .wait d => [.tick d]
  | .run o =>
      match s.todo with
      | [] => []
      | cb :: _ => callbackEvent s.monitor s.queue o cb
  | _ => []

/-- Callbacks take no time. -/
def Instant : Loop → Event → Prop
  | _, .run o => o.call.took = 0
  | _, _ => True

section Simulation

variable {wall : ℤ → Reading} {m : Monitor} {queue : List Queued} {o : Outcome}
  {todo : List Callback}

/-- A callback of a pass does what its event does, and leaves the timers on time. -/
structure Matched (wall : ℤ → Reading) (m : Monitor) (queue : List Queued) (o : Outcome)
    (todo : List Callback) (cb : Callback) : Prop where
  allowed : (Monitor.machine wall).Allowed (settled m) (callbackEvent m queue o cb)
  settled : (Monitor.machine wall).exec (settled m) (callbackEvent m queue o cb)
    = settled (runCallback wall m queue o cb).1
  timely : Timely todo (runCallback wall m queue o cb).1

/-- A callback that does nothing. -/
lemma skipped_matched {cb : Callback} (h : Timely todo m)
    (hevent : callbackEvent m queue o cb = [])
    (hrun : runCallback wall m queue o cb = (m, queue)) : Matched wall m queue o todo cb := by
  constructor
  · rw [hevent]
    trivial
  · rw [hevent, hrun]
    rfl
  · rw [hrun]
    exact h

lemma listen_matched (h : Timely (.listen :: todo) m) (he : 0 ≤ m.errTv) (hc : o.call.took = 0) :
    Matched wall m queue o todo .listen := by
  have hrest : Timely todo m := h.skip (by simp) (by simp)
  cases queue with
  | nil => exact skipped_matched hrest rfl rfl
  | cons d rest =>
      have hanswer := fun src => settled_handleAnswer wall m o.res o.call src o.re
      have htimely := fun src => hrest.handleAnswer o.call he hc wall src o.re o.res
      cases hok : o.ok with
      | true =>
          constructor <;> simp only [callbackEvent, runCallback, hok, if_true]
          · exact ⟨hc, trivial⟩
          · exact (hanswer (some d.src)).symm
          · exact htimely (some d.src)
      | false =>
          constructor <;> simp only [callbackEvent, runCallback, hok]
          · exact ⟨hc, trivial⟩
          · exact (hanswer none).symm
          · exact htimely none

lemma poll_matched {i : ℕ} (h : Timely (.poll i :: todo) m) :
    Matched wall m queue o todo (.poll i) := by
  cases ht : m.targets[i]? with
  | none =>
      have hskip : Timely todo m := h.skip (by grind) (by simp)
      exact skipped_matched hskip (by simp only [callbackEvent, ht])
        (by simp only [runCallback, ht])
  | some t =>
      have htimer := (h i t ht).1
      cases hact : t.pollEv.active.isSome with
      | true =>
          have hfire : settled (reschedulePoll m i) = (settled m).modifyTarget i
              fun t => { t with pollEv := t.pollEv.fire } :=
            settled_modifyTarget_of_eq m i ht (by simp only [settle, htimer.settle_reschedule hact])
          constructor <;> simp only [callbackEvent, runCallback, ht, hact, if_true]
          · exact ⟨⟨settle t, by simp [settled_target, ht], htimer.settle_due hact⟩, trivial⟩
          · exact (hfire ▸ settled_sendBip wall _ i o.res o.ok).symm
          · exact h.reschedulePoll.sendBip wall o.res o.ok
      | false =>
          have hskip : Timely todo m := h.skip (by grind) (by simp)
          exact skipped_matched hskip (by simp [callbackEvent, ht, hact])
            (by simp [runCallback, ht, hact])

lemma err_matched {i : ℕ} (h : Timely (.err i :: todo) m) (hc : o.call.took = 0) :
    Matched wall m queue o todo (.err i) := by
  cases ht : m.targets[i]? with
  | none =>
      have hskip : Timely todo m := h.skip (by simp) (by grind)
      exact skipped_matched hskip (by simp only [callbackEvent, ht])
        (by simp only [runCallback, ht])
  | some t =>
      have htimer := (h i t ht).2
      cases hact : t.errEv.active.isSome with
      | true =>
          have hfire : settled (rescheduleErr m i) = (settled m).modifyTarget i
              fun t => { t with errEv := t.errEv.fire } :=
            settled_modifyTarget_of_eq m i ht (by simp only [settle, htimer.settle_reschedule hact])
          constructor <;> simp only [callbackEvent, runCallback, ht, hact, if_true]
          · exact ⟨⟨hc, settle t, by simp [settled_target, ht], htimer.settle_due hact⟩, trivial⟩
          · exact (hfire ▸ settled_handleErrEvent _ i o.call).symm
          · exact h.rescheduleErr.handleErrEvent o.call hc
      | false =>
          have hskip : Timely todo m := h.skip (by simp) (by grind)
          exact skipped_matched hskip (by simp [callbackEvent, ht, hact])
            (by simp [runCallback, ht, hact])

lemma mem_dueCallbacks {i : ℕ} {t : Target} (ht : m.targets[i]? = some t) :
    (t.pollEv.Due m.now → .poll i ∈ dueCallbacks m) ∧
      (t.errEv.Due m.now → .err i ∈ dueCallbacks m) := by
  have hi : i ∈ List.range m.targets.length :=
    List.mem_range.mpr (List.getElem?_eq_some_iff.mp ht).1
  constructor
  · intro hdue
    exact List.mem_flatMap.mpr ⟨i, hi, by simp [ht, hdue]⟩
  · intro hdue
    exact List.mem_flatMap.mpr ⟨i, hi, by simp [ht, hdue]⟩

/-- Between two passes no timer is active. -/
lemma Timely.idle (h : Timely [] m) {i : ℕ} {t : Target} (ht : m.targets[i]? = some t) :
    t.pollEv.Punctual m.now False ∧ t.errEv.Punctual m.now False :=
  ⟨(h i t ht).1.imp (by simp), (h i t ht).2.imp (by simp)⟩

/-- The loop looks at the timers. -/
lemma Timely.pass (h : Timely [] m) (hmem : dueCallbacks m ⊆ todo) :
    Timely todo { m with targets := m.targets.map (expireTimers m.now) } := by
  intro i t ht
  obtain ⟨t₀, ht₀, rfl⟩ := Option.map_eq_some_iff.mp (List.getElem?_map ▸ ht)
  obtain ⟨hpoll, herr⟩ := mem_dueCallbacks ht₀
  exact ⟨(h.idle ht₀).1.expire fun hdue => hmem (hpoll hdue),
    (h.idle ht₀).2.expire fun hdue => hmem (herr hdue)⟩

lemma Timely.settled_pass (h : Timely [] m) :
    settled { m with targets := m.targets.map (expireTimers m.now) } = settled m := by
  have htargets : (m.targets.map (expireTimers m.now)).map settle = m.targets.map settle := by
    rw [List.map_map]
    refine List.map_congr_left fun t hmem => ?_
    obtain ⟨i, ht⟩ := List.mem_iff_getElem?.mp hmem
    simp only [Function.comp_apply, settle, expireTimers, (h.idle ht).1.settle_expire,
      (h.idle ht).2.settle_expire]
  simp only [settled, htargets]

/-- A loop and the state of the machine in the same run. -/
structure Settles (s : Loop) (m : Monitor) : Prop where
  settled : m = settled s.monitor
  errTv : 0 ≤ s.monitor.errTv
  timely : Timely s.todo s.monitor

/-- A step of the loop whose callback takes no time is at most one event of the
machine. -/
theorem step_simulates {s : Loop} (e : Event) (hs : Settles s m) (hg : s.guard wall e)
    (hinstant : Instant s e) :
    (Monitor.machine wall).Allowed m (label s e) ∧
      Settles (act wall s e) ((Monitor.machine wall).exec m (label s e)) := by
  obtain ⟨rfl, he, htimely⟩ := hs
  cases e with
  | arrive src => exact ⟨trivial, rfl, he, htimely⟩
  | wait d =>
      obtain ⟨hdone, -, hspares⟩ := hg
      rw [hdone] at htimely
      refine ⟨⟨fun u hu => ?_, trivial⟩, rfl, he, fun i t ht => ?_⟩
      · obtain ⟨t, hmem, rfl⟩ := List.mem_map.mp hu
        obtain ⟨i, ht⟩ := List.mem_iff_getElem?.mp hmem
        exact ⟨(htimely.idle ht).1.settle_spares (hspares t hmem).1,
          (htimely.idle ht).2.settle_spares (hspares t hmem).2⟩
      · have hmem := List.mem_of_getElem? ht
        exact ⟨((htimely.idle ht).1.wait (hspares t hmem).1).imp fun _ => False.elim,
          ((htimely.idle ht).2.wait (hspares t hmem).2).imp fun _ => False.elim⟩
  | pass order =>
      obtain ⟨hdone, hperm⟩ := hg
      rw [hdone] at htimely
      exact ⟨trivial, htimely.settled_pass.symm, he, htimely.pass fun cb hcb =>
        List.mem_append_right _ (hperm.mem_iff.mpr hcb)⟩
  | run o =>
      obtain ⟨hrun, -⟩ := hg
      cases htodo : s.todo with
      | nil => exact absurd htodo hrun
      | cons cb todo =>
          rw [htodo] at htimely
          have hmatch : Matched wall s.monitor s.queue o todo cb := by
            cases cb with
            | listen => exact listen_matched htimely he hinstant
            | poll i => exact poll_matched htimely
            | err i => exact err_matched htimely hinstant
          have hkeeps := (runCallback_ran wall s.monitor s.queue o cb).keeps
          simp only [label, act, htodo]
          exact ⟨hmatch.allowed, hmatch.settled, hkeeps.errTv.symm ▸ he, hmatch.timely⟩

/-- As `main` enters the loop, every timer was just added. -/
lemma settles_start {cfg : Config} (hpoll : 0 ≤ cfg.pollInterval) (herr : 0 ≤ cfg.errInterval)
    (t₀ : ℤ) (arrivals : List (SockAddr × ℕ)) :
    Settles (start cfg t₀ 0 arrivals) (Monitor.start cfg t₀) := by
  have hpollTv : 0 ≤ seconds cfg.pollInterval := mul_nonneg hpoll (by norm_num)
  have herrTv : 0 ≤ seconds cfg.errInterval := mul_nonneg herr (by norm_num)
  have hmonitor : (start cfg t₀ 0 arrivals).monitor = Monitor.start cfg t₀ := by
    simp [start, Monitor.start, init]
  refine ⟨?_, herrTv, ?_⟩
  · rw [hmonitor]
    simp only [settled, Monitor.start, List.map_map]
    rfl
  · rw [hmonitor]
    intro i t ht
    obtain ⟨t₁, -, rfl⟩ := Option.map_eq_some_iff.mp (List.getElem?_map ▸ ht)
    exact ⟨Timer.punctual_added hpollTv _, Timer.punctual_added herrTv _⟩

/-- A run of the loop whose callbacks take no time is a run of the machine, which
ends in the same state but for the timers that were found due and have not run
yet. -/
theorem run_of_instant {cfg : Config} (hpoll : 0 ≤ cfg.pollInterval)
    (herr : 0 ≤ cfg.errInterval) {t₀ : ℤ} {arrivals : List (SockAddr × ℕ)} {es : List Event}
    (h : ((machine wall).restrict Instant).Allowed (start cfg t₀ 0 arrivals) es) :
    ∃ es', (Monitor.machine wall).Allowed (Monitor.start cfg t₀) es' ∧
      (Monitor.machine wall).exec (Monitor.start cfg t₀) es'
        = settled ((machine wall).exec (start cfg t₀ 0 arrivals) es).monitor := by
  have hstep : ∀ s m e, Settles s m → ((machine wall).restrict Instant).guard s e →
      (Monitor.machine wall).Allowed m (label s e) ∧
        Settles (act wall s e) ((Monitor.machine wall).exec m (label s e)) :=
    fun s m e hs hg => step_simulates e hs hg.1 hg.2
  obtain ⟨hallowed, hend⟩ := h.simulate hstep (settles_start hpoll herr t₀ arrivals)
  exact ⟨_, hallowed, hend.settled⟩

end Simulation

end Hearthbeat.Loop
