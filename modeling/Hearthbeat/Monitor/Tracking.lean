import Hearthbeat.Monitor.Frame
import Hearthbeat.Detector.Alarm
import Hearthbeat.Detector.Notices

/-!
Every target of a monitor is watched by a failure detector of its own.

* `Frame i m m'`: nothing has changed that the detector of the target `i` sees;
  `frame_act` says so of every event but its expiries and its answers.
* `Tracks e i m d`: the detector `d` is the target `i`, its flag, its timer and
  what the history says of it; `tracks_simulates` is the simulation, an event of
  the monitor being an event of the detector, or the time it took.
* `tracked_exec`, `tracked_run`: the detector of a target, for every sequence of
  events and for every timely run.
-/

namespace Hearthbeat.Monitor

/-! ### What concerns a target -/

/-- What an act shows of the target `i`. -/
def obsOf (i : ℕ) : Act → Option (Detector.Obs ℤ)
  | .answer _ (some j) _ t => if j = i then some (.answer t) else none
  | .notice j up _ ok t => if j = i then some (.notice up ok t) else none
  | _ => none

/-- What a history shows of the target `i`. -/
def observed (i : ℕ) (hist : List Act) : List (Detector.Obs ℤ) := hist.filterMap (obsOf i)

lemma observed_append (i : ℕ) (h h' : List Act) :
    observed i (h ++ h') = observed i h ++ observed i h' := List.filterMap_append

lemma observed_concat_some {i : ℕ} {x : Act} {o : Detector.Obs ℤ} (hx : obsOf i x = some o)
    (h : List Act) : observed i (h ++ [x]) = observed i h ++ [o] := by
  simp [observed, hx]

lemma observed_eq_nil {i : ℕ} {l : List Act} (h : ∀ x ∈ l, x.about ≠ some i) :
    observed i l = [] := by
  refine List.filterMap_eq_nil_iff.mpr fun x hx => ?_
  have hne := h x hx
  cases x with
  | answer src who re t =>
      cases who with
      | none => rfl
      | some j => simpa [obsOf, Act.about] using hne
  | notice j up text ok t => simpa [obsOf, Act.about] using hne
  | _ => rfl

/-- Nothing that the detector of the target `i` sees has changed. -/
structure Frame (i : ℕ) (m m' : Monitor) : Prop where
  errTv : m'.errTv = m.errTv
  status : m'.targets[i]?.map Target.status = m.targets[i]?.map Target.status
  observed : observed i m'.hist = observed i m.hist

/-- A target left alone. -/
lemma Apart.frame {i : ℕ} {m m' : Monitor} (h : Apart i m m') (hk : Keeps m m') :
    Frame i m m' := by
  obtain ⟨l, hl, habout⟩ := h.hist
  refine ⟨hk.errTv, by rw [h.target], ?_⟩
  rw [hl, observed_append, observed_eq_nil habout, List.append_nil]

/-- A poll of the target. -/
lemma frame_poll (wall : ℤ → Reading) (i : ℕ) (m : Monitor) (res : Resolver) (sent : Bool) :
    Frame i m (act wall m (.poll i res sent)) := by
  have hframe := (Apart.sendBip (i := i) wall
    (m.modifyTarget i fun t => { t with pollEv := t.pollEv.fire }) i res sent).frame
    (Keeps.sendBip wall _ i res sent)
  refine ⟨hframe.errTv, hframe.status.trans ?_, hframe.observed⟩
  rw [modifyTarget_same, Option.map_map]
  rfl

/-! ### The events of a target -/

/-- The event that the detector of the target `i` sees in an event of the
monitor, if it is one of its own. -/
def ownEvent (i : ℕ) (m : Monitor) : Event → Option (Detector.Event ℤ)
  | .err j c => if j = i then some (.expire c.ok c.took) else none
  | .recv (some client) _ res c =>
      if getTarget res m.targets client = some i then some (.answer c.ok c.took) else none
  | _ => none

/-- A target's own events are its alarms and the answers attributed to it. -/
lemma ownEvent_eq_some {i : ℕ} {m : Monitor} {ev : Event} {x : Detector.Event ℤ}
    (h : ownEvent i m ev = some x) :
    (∃ c, ev = .err i c ∧ x = .expire c.ok c.took) ∨
      ∃ client re res c, ev = .recv (some client) re res c ∧
        getTarget res m.targets client = some i ∧ x = .answer c.ok c.took := by
  cases ev with
  | tick d => simp [ownEvent] at h
  | poll j res sent => simp [ownEvent] at h
  | err j c =>
      simp only [ownEvent, Option.ite_none_right_eq_some, Option.some.injEq] at h
      obtain ⟨rfl, rfl⟩ := h
      exact .inl ⟨c, rfl, rfl⟩
  | recv src re res c =>
      cases src with
      | none => simp [ownEvent] at h
      | some client =>
          simp only [ownEvent, Option.ite_none_right_eq_some, Option.some.injEq] at h
          obtain ⟨hw, rfl⟩ := h
          exact .inr ⟨client, re, res, c, rfl, hw, rfl⟩

/-- An event that is not one of its own does not concern a target. -/
theorem frame_act (wall : ℤ → Reading) {i : ℕ} {m : Monitor} {ev : Event}
    (h : ownEvent i m ev = none) : Frame i m (act wall m ev) := by
  by_cases hown : owner m ev = some i
  · cases ev with
    | poll j res sent =>
        obtain rfl : j = i := by simpa [owner] using hown
        exact frame_poll wall j m res sent
    | tick d => simp [owner] at hown
    | err j c => simp_all [owner, ownEvent]
    | recv src re res c => cases src <;> simp_all [owner, ownEvent]
  · exact (apart_act wall hown).frame (keeps_act wall m ev)

/-- The detector's view of an event: its own, or the time that it took. -/
def label (wall : ℤ → Reading) (i : ℕ) (m : Monitor) (ev : Event) :
    List (Detector.Event ℤ) :=
  match ownEvent i m ev with
  | some x => [x]
  | none =>
      if (act wall m ev).now = m.now then [] else [.tick ((act wall m ev).now - m.now)]

/-! ### The simulation -/

/-- The detector `d` is the target `i` of `m`. -/
structure Tracks (e : ℤ) (i : ℕ) (m : Monitor) (d : Detector.State ℤ) : Prop where
  now : d.now = m.now
  errTv : m.errTv = e
  status : m.targets[i]?.map Target.status = some (d.online, ⟨e, some d.deadline, none⟩)
  obs : observed i m.hist = d.obs

section Simulation

variable {e : ℤ} {i : ℕ} {m : Monitor} {d : Detector.State ℤ}

lemma Tracks.target (h : Tracks e i m d) : ∃ t, m.targets[i]? = some t ∧
    t.isonline = d.online ∧ t.errEv = ⟨e, some d.deadline, none⟩ := by
  have hs := h.status
  cases ht : m.targets[i]? with
  | none => simp [ht] at hs
  | some t =>
      rw [ht] at hs
      simp only [Option.map_some, Target.status, Option.some.injEq, Prod.mk.injEq] at hs
      exact ⟨t, rfl, hs.1, hs.2⟩

/-- A frame leaves the detector alone, but for the clock. -/
lemma Tracks.frame (h : Tracks e i m d) {m' : Monitor} (hf : Frame i m m') :
    Tracks e i m' { d with now := m'.now } :=
  ⟨rfl, hf.errTv.trans h.errTv, hf.status.trans h.status, hf.observed.trans h.obs⟩

/-- An expiry of the error timer. -/
lemma Tracks.err (h : Tracks e i m d) (wall : ℤ → Reading) (c : Call) :
    Tracks e i (act wall m (.err i c)) (Detector.act e d (.expire c.ok c.took)) := by
  obtain ⟨t, ht, hon, herr⟩ := h.target
  have ht' : (m.modifyTarget i fun t => { t with errEv := t.errEv.fire }).targets[i]?
      = some { t with errEv := ⟨e, some (d.deadline + e), none⟩ } := by
    rw [modifyTarget_same, ht]
    simp [herr]
  cases hd : d.online with
  | true =>
      rw [act, handleErrEvent_online c ht' (hon.trans hd), Detector.act_expire_online _ _ hd]
      refine ⟨?_, h.errTv, ?_, ?_⟩
      · simp [telegramSendMessage, h.now]
      · simp only [telegramSendMessage, log_targets, modifyTarget_same, ht', Option.map_some]
        rfl
      · rw [telegramSendMessage]
        simp only [log_hist, modifyTarget_hist, modifyTarget_now]
        rw [observed_concat_some (o := .notice false c.ok m.now) (by simp [obsOf]), h.obs, h.now]
  | false =>
      rw [act, handleErrEvent_offline c ht' (hon.trans hd), Detector.act_expire_offline _ _ hd]
      refine ⟨h.now, h.errTv, ?_, h.obs⟩
      rw [ht', Option.map_some, Target.status, hon, hd]

/-- An answer attributed to the target. -/
lemma Tracks.answer (h : Tracks e i m d) (wall : ℤ → Reading) {client : SockAddr} (re : ℕ)
    {res : Resolver} (c : Call) (hw : getTarget res m.targets client = some i) :
    Tracks e i (act wall m (.recv (some client) re res c))
      (Detector.act e d (.answer c.ok c.took)) := by
  obtain ⟨t, ht, hon, herr⟩ := h.target
  rw [act, handleAnswer_attributed c wall re hw ht]
  have hlog : observed i (m.hist ++ [.answer client (some i) re m.now])
      = d.obs ++ [.answer d.now] := by
    rw [observed_concat_some (o := .answer m.now) (by simp [obsOf]), h.obs, h.now]
  have hrec := (Apart.recordAnswer (i := i) wall
    ((m.log (.answer client (some i) re m.now)).resetErrorTimer i c) i re t.name).frame
    (Passive.recordAnswer wall _ i re t.name).keeps
  -- the record changes nothing that the detector sees
  suffices hreset : Tracks e i ((m.log (.answer client (some i) re m.now)).resetErrorTimer i c)
      (Detector.act e d (.answer c.ok c.took)) by
    have hframe := hreset.frame hrec
    rwa [recordAnswer_now, ← hreset.now] at hframe
  cases hd : d.online with
  | true =>
      rw [resetErrorTimer_online c (m := m.log _) ht (hon.trans hd),
        Detector.act_answer_online _ _ hd]
      refine ⟨h.now, h.errTv, ?_, ?_⟩
      · rw [modifyTarget_same, log_targets, ht]
        simp [Target.status, h.now, h.errTv, hd]
      · exact hlog
  | false =>
      rw [resetErrorTimer_offline c (m := m.log _) ht (hon.trans hd),
        Detector.act_answer_offline _ _ hd]
      refine ⟨?_, h.errTv, ?_, ?_⟩
      · simp [telegramSendMessage, h.now]
      · simp only [modifyTarget_same, telegramSendMessage, log_targets, ht]
        simp [Target.status, h.now, h.errTv]
      · simp only [modifyTarget_hist, telegramSendMessage, log_hist, log_now]
        rw [observed_concat_some (o := .notice true c.ok m.now) (by simp [obsOf]), hlog, h.now]
        simp

/-- A step in the frame of the target is no step of its detector, but for the
time that it took. -/
lemma Tracks.label_frame (h : Tracks e i m d) (wall : ℤ → Reading) {ev : Event}
    (hown : ownEvent i m ev = none) :
    Tracks e i (act wall m ev) ((Detector.machine e).exec d (label wall i m ev)) := by
  have hframe := h.frame (frame_act wall hown)
  rw [label, hown]
  simp only []
  split_ifs with hnow
  · rwa [hnow, ← h.now] at hframe
  · have htick : (Detector.machine e).exec d [.tick ((act wall m ev).now - m.now)]
        = { d with now := (act wall m ev).now } := by
      simp [Detector.machine, Detector.act, h.now]
    rwa [htick]

/-- The simulation of a target by its detector. -/
theorem tracks_simulates (wall : ℤ → Reading) (e : ℤ) (i : ℕ) :
    Machine.Simulates (machine wall) (Detector.machine e) (Tracks e i) (label wall i) where
  step := by
    intro m d ev h
    cases hown : ownEvent i m ev with
    | none => exact h.label_frame wall hown
    | some x =>
        rw [label, hown]
        obtain ⟨c, rfl, rfl⟩ | ⟨client, re, res, c, rfl, hw, rfl⟩ := ownEvent_eq_some hown
        · exact h.err wall c
        · exact h.answer wall re c hw
  guard := by
    intro m d ev h (hg : m.guard ev)
    obtain ⟨t, ht, -, herr⟩ := h.target
    cases hown : ownEvent i m ev with
    | none =>
        rw [label, hown]
        simp only []
        -- only a tick moves the clock, and it spares the error timer of the target
        split_ifs with hnow
        · trivial
        · cases ev with
          | tick δ =>
              have hspare := (hg t (List.mem_of_getElem? ht)).2 d.deadline (by simp [herr])
              have hδ : (act wall m (.tick δ)).now - m.now = δ := by simp [act]
              rw [hδ, Machine.allowed_cons]
              refine ⟨⟨Int.natCast_nonneg δ, ?_⟩, trivial⟩
              rw [h.now]
              exact hspare
          | poll j res sent => exact absurd (act_now wall hg (by simp)) hnow
          | err j c => exact absurd (act_now wall hg (by simp)) hnow
          | recv src re res c => exact absurd (act_now wall hg (by simp)) hnow
    | some x =>
        rw [label, hown]
        -- an event of the target takes no time, and an alarm comes when its timer is due
        simp only [Machine.allowed_cons, Machine.allowed_nil, and_true]
        obtain ⟨c, rfl, rfl⟩ | ⟨client, re, res, c, rfl, -, rfl⟩ := ownEvent_eq_some hown
        · obtain ⟨htook, t', ht', d', hd', hdue⟩ := hg
          rw [ht, Option.mem_def, Option.some.injEq] at ht'
          rw [← ht', herr, Option.mem_def, Option.some.injEq] at hd'
          refine ⟨by simp [htook], ?_⟩
          rw [h.now, hd']
          exact hdue
        · have htook : c.took = 0 := hg
          show (c.took : ℤ) = 0
          rw [htook]
          rfl

/-- The detector of a target when `main` enters the event loop. -/
lemma tracks_start (cfg : Config) (t₀ : ℤ) {i : ℕ} (hi : i < cfg.targets.length) :
    Tracks (seconds cfg.errInterval) i (start cfg t₀)
      (Detector.start (seconds cfg.errInterval) t₀) where
  now := rfl
  errTv := rfl
  status := by
    simp [start, init, addTimers, Entry.newTarget, Target.status, Detector.start, hi]
  obs := rfl

end Simulation

/-! ### The detector of a target -/

section Tracked

variable (wall : ℤ → Reading) (cfg : Config) (t₀ : ℤ) {i : ℕ} (es : List Event)

/-- The events that the detector of the target `i` sees in a sequence of
events. -/
def detectorEvents (i : ℕ) : List (Detector.Event ℤ) :=
  (machine wall).trace (label wall i) (start cfg t₀) es

/-- The detector of the target `i` after a sequence of events. -/
def detectorAfter (i : ℕ) : Detector.State ℤ :=
  (Detector.machine (seconds cfg.errInterval)).exec (Detector.start (seconds cfg.errInterval) t₀)
    (detectorEvents wall cfg t₀ es i)

/-- Every sequence of events is tracked. -/
theorem tracked_exec (hi : i < cfg.targets.length) :
    Tracks (seconds cfg.errInterval) i ((machine wall).exec (start cfg t₀) es)
      (detectorAfter wall cfg t₀ es i) :=
  (tracks_simulates wall (seconds cfg.errInterval) i).exec (tracks_start cfg t₀ hi) es

/-- A timely run is tracked by a timely run. -/
theorem tracked_run (hi : i < cfg.targets.length) {es : List Event}
    (h : (machine wall).Allowed (start cfg t₀) es) :
    (Detector.machine (seconds cfg.errInterval)).Allowed
      (Detector.start (seconds cfg.errInterval) t₀) (detectorEvents wall cfg t₀ es i) :=
  (tracks_simulates wall (seconds cfg.errInterval) i).allowed (tracks_start cfg t₀ hi) h

end Tracked

end Hearthbeat.Monitor
