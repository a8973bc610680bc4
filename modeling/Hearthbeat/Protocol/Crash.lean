import Hearthbeat.Protocol.Up

/-!
A server that answers no more.

* `Timed`: the steps of the network in which the monitor's timers keep their
  promise; `monitor_run`: the monitor in such a run is in a timely run of its own.
* `quiet_replies`, `quiet_hist`: while no reply of a server is in flight and it sends
  none, all that a step does to its targets is that they are reported down;
  `quiet_run`: so for a run.
* `crash_detected`: once more than `err_interval` has passed since, they are
  offline, and those that had answered have been reported.
-/

namespace Hearthbeat.Net

open Monitor

variable {cfg : Config} (top : Topology cfg)

/-- The events at the monitor that a step of the network is. -/
def monitorEvents : Event → List Monitor.Event
  | .tick d => [.tick d]
  | .poll i => [.poll i top.resolver true]
  | .err i c => [.err i c]
  | .receive d re c => [.recv (some d.src) re top.resolver c]
  | _ => []

/-- The timers of the monitor keep their promise. -/
def Timed (s : Net) (e : Event) : Prop := ∀ ev ∈ monitorEvents top e, s.monitor.guard ev

instance : ∀ (s : Net) (e : Event), Decidable (guard top s e)
  | _, .tick _ => isTrue trivial
  | _, .poll _ => isTrue trivial
  | _, .err _ _ => isTrue trivial
  | s, .receive d _ _ => inferInstanceAs (Decidable (d ∈ s.inFlight ∧ d.dst = top.me))
  | s, .serve d => inferInstanceAs (Decidable (d ∈ s.inFlight ∧ top.server d.dst = true))
  | _, .client d => inferInstanceAs (Decidable (d.src ≠ top.me ∧ top.server d.src = false))
  | s, .lose d => inferInstanceAs (Decidable (d ∈ s.inFlight))

instance (wall : ℤ → Reading) (s : Net) (e : Event) :
    Decidable (((machine top wall).restrict (Timed top)).guard s e) :=
  inferInstanceAs (Decidable (guard top s e ∧ ∀ ev ∈ monitorEvents top e, s.monitor.guard ev))

section Runs

variable {top} {wall : ℤ → Reading} {t₀ : ℤ} {s : Net} {es es' : List Event} {i : ℕ}
  {a : SockAddr}

/-- The monitor of a run of the network is in a run of its own. -/
theorem monitor_run
    (h : ((machine top wall).restrict (Timed top)).Allowed (start cfg t₀) es) :
    ∃ evs, (Monitor.machine wall).Allowed (Monitor.start cfg t₀) evs ∧
      (Monitor.machine wall).exec (Monitor.start cfg t₀) evs
        = ((machine top wall).exec (start cfg t₀) es).monitor := by
  have hstep : ∀ (s : Net) (m : Monitor) e, m = s.monitor →
      ((machine top wall).restrict (Timed top)).guard s e →
      (Monitor.machine wall).Allowed m (monitorEvents top e) ∧
        (Monitor.machine wall).exec m (monitorEvents top e) = (act top wall s e).monitor := by
    rintro s m e rfl ⟨-, htimed⟩
    cases e with
    | tick d =>
        have hg : s.monitor.guard (.tick d) := htimed _ (List.mem_singleton_self _)
        exact ⟨⟨hg, trivial⟩, rfl⟩
    | poll j =>
        have hg : s.monitor.guard (.poll j top.resolver true) :=
          htimed _ (List.mem_singleton_self _)
        exact ⟨⟨hg, trivial⟩, rfl⟩
    | err j c =>
        have hg : s.monitor.guard (.err j c) := htimed _ (List.mem_singleton_self _)
        exact ⟨⟨hg, trivial⟩, rfl⟩
    | receive d re c =>
        have hg : s.monitor.guard (.recv (some d.src) re top.resolver c) :=
          htimed _ (List.mem_singleton_self _)
        exact ⟨⟨hg, trivial⟩, rfl⟩
    | _ => exact ⟨trivial, rfl⟩
  obtain ⟨hallowed, hend⟩ := h.simulate hstep rfl
  exact ⟨_, hallowed, hend⟩

/-! ### Silence -/

/-- All that an act says about the target `i` is that it is down. -/
def OnlyDown (i : ℕ) (x : Act) : Prop :=
  x.about = some i → ∃ text ok t, x = .notice i false text ok t

lemma onlyDown_of_about {x : Act} (h : x.about ≠ some i) : OnlyDown i x := fun heq => absurd heq h

/-- The server at `a` has no reply in flight and sends none. -/
lemma quiet_replies (hsound : Sound top t₀ s) (hnone : (view top a s).replies = 0) {e : Event}
    (hg : guard top s e) (hsilent : ∀ d, e = .serve d → d.dst ≠ a) :
    (view top a (act top wall s e)).replies = 0 := by
  have hreply : ∀ d ∈ s.inFlight, top.isReply a d = false := by
    intro d hd
    rw [Bool.eq_false_iff]
    intro hrep
    have hpos : 0 < (view top a s).replies := countP_pos hd hrep
    omega
  rw [(view_act hsound e hg).1]
  cases e with
  | poll j =>
      rw [label]
      split_ifs <;> exact hnone
  | serve d =>
      have hreq : top.isRequest a d = false := by
        simp [Topology.isRequest, beq_eq_false_iff_ne.mpr (hsilent d rfl)]
      rw [label, hreq]
      exact hnone
  | receive d re c =>
      rw [label, hreply d hg.1]
      exact hnone
  | lose d =>
      rw [label, hreply d hg, if_neg Bool.false_ne_true]
      split_ifs <;> exact hnone
  | _ => exact hnone

variable (wall) in
/-- What the monitor writes down meanwhile. -/
lemma quiet_hist (hsound : Sound top t₀ s) (hnone : (view top a s).replies = 0)
    (hi : top.address i = some a) {e : Event} (hg : guard top s e) :
    ∃ l, (act top wall s e).monitor.hist = s.monitor.hist ++ l ∧ ∀ x ∈ l, OnlyDown i x := by
  cases e with
  | tick d => exact ⟨[], (List.append_nil _).symm, by simp⟩
  | poll j =>
      refine ⟨_, poll_hist hsound j, fun x hx => onlyDown_of_about ?_⟩
      obtain ⟨dest, -, rfl⟩ := List.mem_map.mp hx
      simp [Act.about]
  | err j c =>
      obtain ⟨l, hl, hnotice⟩ := handleErrEvent_hist c
        (s.monitor.modifyTarget j fun t => { t with errEv := t.errEv.fire }) j
      refine ⟨l, hl, fun x hx habout => ?_⟩
      obtain ⟨text, ok, t, rfl⟩ := hnotice x hx
      obtain rfl : j = i := Option.some.inj habout
      exact ⟨text, ok, t, rfl⟩
  | receive d re c =>
      have hother : getTarget top.resolver s.monitor.targets d.src ≠ some i := by
        intro hw
        have hsrc : d.src = a := Option.some.inj ((address_of_getTarget hsound hw).symm.trans hi)
        have hrep : top.isReply a d = true := by
          simp [Topology.isReply, top.server_of_address hi, hsrc, hg.2]
        have hpos : 0 < (view top a s).replies := countP_pos hg.1 hrep
        omega
      obtain ⟨l, hl, hrest⟩ := handleAnswer_hist c wall s.monitor d.src re top.resolver
      refine ⟨_, hl, fun x hx => onlyDown_of_about fun habout => hother ?_⟩
      rcases List.mem_cons.mp hx with rfl | hx
      · exact habout
      · obtain ⟨j, hw, ⟨text, ok, t, rfl⟩ | ⟨interval, t, rfl⟩⟩ := hrest x hx
        · rw [hw]
          exact habout
        · cases habout
  | _ => exact ⟨[], (List.append_nil _).symm, by simp⟩

/-- So it is in every run from there on. -/
lemma quiet_run (hsound : Sound top t₀ s) (hnone : (view top a s).replies = 0)
    (hi : top.address i = some a) (hsilent : ∀ d, .serve d ∈ es → d.dst ≠ a)
    (h : (machine top wall).Allowed s es) :
    ∃ l, ((machine top wall).exec s es).monitor.hist = s.monitor.hist ++ l ∧
      ∀ x ∈ l, OnlyDown i x := by
  induction es generalizing s with
  | nil => exact ⟨[], (List.append_nil _).symm, by simp⟩
  | cons e es ih =>
      obtain ⟨hg, hrest⟩ := h
      obtain ⟨l, hl, hdown⟩ := quiet_hist wall hsound hnone hi hg
      obtain ⟨l', hl', hdown'⟩ := ih (hsound.step s e hg)
        (quiet_replies hsound hnone hg fun d hd => hsilent d (by simp [hd]))
        (fun d hd => hsilent d (by simp [hd])) hrest
      refine ⟨l ++ l', ?_, fun x hx => ?_⟩
      · calc ((machine top wall).exec s (e :: es)).monitor.hist
            = (act top wall s e).monitor.hist ++ l' := hl'
          _ = s.monitor.hist ++ (l ++ l') := by rw [hl, List.append_assoc]
      · rcases List.mem_append.mp hx with hx | hx
        · exact hdown x hx
        · exact hdown' x hx

lemma sound_start : Sound top t₀ (start cfg t₀) := by
  refine ⟨Keeps.refl _, ?_, ?_, ?_, ?_⟩ <;> simp [start, Monitor.start, Monitor.init]

lemma lastAnswer_quiet {h l : List Act} (hdown : ∀ x ∈ l, OnlyDown i x) :
    lastAnswer i (h ++ l) = lastAnswer i h := by
  have hnone : latest (answerOf i) l = none := by
    refine (latest_eq_none _).mpr fun x hx => ?_
    cases x with
    | answer src who re t =>
        cases who with
        | none => rfl
        | some j =>
            refine if_neg fun hj => ?_
            obtain ⟨text, ok, t', heq⟩ := hdown _ hx (congrArg some hj)
            cases heq
    | _ => rfl
  rw [lastAnswer, latest_append, hnone, Option.none_or, lastAnswer]

end Runs

/-- The last answer that the monitor handled is not in the future. -/
lemma lastAnswer_le (wall : ℤ → Reading) (cfg : Config) (t₀ : ℤ) {i : ℕ}
    (hi : i < cfg.targets.length) {evs : List Monitor.Event}
    (h : (Monitor.machine wall).Allowed (Monitor.start cfg t₀) evs) {τ : ℤ}
    (hτ : lastAnswer i ((Monitor.machine wall).exec (Monitor.start cfg t₀) evs).hist = some τ) :
    τ ≤ ((Monitor.machine wall).exec (Monitor.start cfg t₀) evs).now := by
  have htrack := tracked_exec wall cfg t₀ evs hi
  have hord : Detector.Ordered t₀ (detectorAfter wall cfg t₀ evs i) :=
    Detector.ordered_of_run (tracked_run wall cfg t₀ hi h)
  rw [← lastAnswer_observed, htrack.obs] at hτ
  obtain ⟨x, hx, hxτ⟩ := mem_of_latest _ hτ
  have hle := hord.past x hx
  rw [htrack.now] at hle
  cases x with
  | answer t =>
      obtain rfl : t = τ := Option.some.inj hxτ
      exact hle
  | notice up ok t => cases hxτ

/-- A target whose server has answered no more for over `err_interval`. -/
structure FoundDown (i : ℕ) (before after : Monitor) : Prop where
  offline : ∃ t, after.targets[i]? = some t ∧ t.isonline = false
  reported : ∀ τ, lastAnswer i after.hist = some τ → ReportedDown i after.hist
  since : ∀ x ∈ after.hist.drop before.hist.length, OnlyDown i x

variable (wall : ℤ → Reading) (t₀ : ℤ) {es es' : List Event} {i : ℕ} {a : SockAddr}

/-- If the server at `a` has no reply in flight and sends none from then on, its
targets are down once more than `err_interval` has passed, and nothing but that is
said of them. -/
theorem crash_detected (he : 0 < cfg.errInterval) (hi : top.address i = some a)
    (h : ((machine top wall).restrict (Timed top)).Allowed (start cfg t₀) (es ++ es'))
    (hgone : (view top a ((machine top wall).exec (start cfg t₀) es)).replies = 0)
    (hsilent : ∀ d, .serve d ∈ es' → d.dst ≠ a)
    (hlate : ((machine top wall).exec (start cfg t₀) es).monitor.now + seconds cfg.errInterval
      < ((machine top wall).exec (start cfg t₀) (es ++ es')).monitor.now) :
    FoundDown i ((machine top wall).exec (start cfg t₀) es).monitor
      ((machine top wall).exec (start cfg t₀) (es ++ es')).monitor := by
  have hlt : i < cfg.targets.length := by
    obtain ⟨x, hx, -⟩ := Option.map_eq_some_iff.mp hi
    exact (List.getElem?_eq_some_iff.mp hx).1
  obtain ⟨hbefore, hafter⟩ := (Machine.allowed_append _ _ _ _).mp h
  obtain ⟨evs, hevs, hend⟩ := monitor_run hbefore
  obtain ⟨evs', hevs', hend'⟩ := monitor_run h
  have hsound : Sound top t₀ ((machine top wall).exec (start cfg t₀) es) :=
    hbefore.of_restrict.induction Sound.step sound_start
  obtain ⟨l, hl, hdown⟩ := quiet_run hsound hgone hi hsilent hafter.of_restrict
  rw [← Machine.exec_append] at hl
  have hlast := lastAnswer_quiet (i := i)
    (h := ((machine top wall).exec (start cfg t₀) es).monitor.hist) hdown
  rw [← hl] at hlast
  have hpast := @lastAnswer_le wall cfg t₀ i hlt evs hevs
  have htarget := (tracked_exec wall cfg t₀ evs' hlt).target
  have harmed := @armed_of_online wall cfg t₀ evs' i he hlt hevs'
  have hreported := @reported_of_silent wall cfg t₀ evs' i he hlt hevs'
  rw [hend'] at harmed hreported htarget
  rw [hend] at hpast
  generalize (machine top wall).exec (start cfg t₀) es = s at *
  generalize (machine top wall).exec (start cfg t₀) (es ++ es') = s' at *
  -- the last answer was handled before the server fell silent
  have hover : ∀ τ, lastAnswer i s'.monitor.hist = some τ →
      τ + seconds cfg.errInterval < s'.monitor.now := by
    intro τ hτ
    have hle := hpast (hlast ▸ hτ)
    omega
  refine ⟨?_, fun τ hτ => hreported hτ (hover τ hτ), ?_⟩
  · obtain ⟨t, ht, -⟩ := htarget
    refine ⟨t, ht, ?_⟩
    rw [← Bool.not_eq_true]
    intro hon
    obtain ⟨τ, hτ, -, hnow⟩ := harmed ht hon
    have := hover τ hτ
    omega
  · rw [hl, List.drop_left]
    exact hdown

/-- The request of the one target's first poll. -/
def firstRequest : Datagram := ⟨oneServer.me, piAddr, Monitor.message⟩

/-- A poll that is answered. -/
def servedOnce : List Event :=
  [.tick 15000000000, .err 0 delivered, .tick 5000000000, .poll 0, .serve firstRequest,
    .receive (Beat.reply firstRequest) 0 delivered]

/-- Nothing for more than 15 s. -/
def crashed : List Event := [.tick 15000000000, .err 0 delivered, .tick 1]

theorem crash_detected_servedOnce :
    FoundDown 0 ((machine oneServer fun _ => .epoch).exec (start oneTarget 0) servedOnce).monitor
      ((machine oneServer fun _ => .epoch).exec (start oneTarget 0)
        (servedOnce ++ crashed)).monitor := by
  exact crash_detected oneServer (fun _ => .epoch) 0 (a := piAddr) (by decide) rfl (by decide)
    (by decide) (by simp [crashed]) (by decide)

end Hearthbeat.Net
