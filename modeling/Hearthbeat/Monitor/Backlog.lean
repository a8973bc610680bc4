import Hearthbeat.Monitor.Pacing

/-!
The datagrams that wait at the socket of a monitor.

* `Ran.readings`: what a callback reads of them.
* `Served`: a datagram has waited for at most one pass for every datagram that was read
  since it arrived, or is still to be read in the pass.
* `waits_within`: so it waits for at most one pass for every datagram read since it
  arrived, and two more.
-/

namespace Hearthbeat.Loop

open Monitor

/-- The source of a datagram that was read, and when. -/
def readingOf : Act → Option (SockAddr × ℤ)
  | .answer src _ _ t => some (src, t)
  | _ => none

/-- The datagrams read, in order. -/
def readings (hist : List Act) : List (SockAddr × ℤ) := hist.filterMap readingOf

/-- The datagrams that arrive in a step. -/
def brings (s : Loop) : Event → List Queued
  | .arrive src => [⟨src, s.monitor.now⟩]
  | .run o =>
      match s.todo with
      | [] => []
      | _ :: _ => o.arrivals.map fun x => ⟨x.1, s.monitor.now + x.2⟩
  | _ => []

section Callbacks

variable {wall : ℤ → Reading} {m : Monitor} {queue : List Queued} {o : Outcome} {cb : Callback}

lemma readings_append (h h' : List Act) : readings (h ++ h') = readings h ++ readings h' :=
  List.filterMap_append

/-- A callback reads nothing, or it is the reception and reads the first datagram. -/
lemma Ran.readings {r : Monitor × List Queued} (h : Ran wall m queue o cb r) :
    (Loop.readings r.1.hist = Loop.readings m.hist ∧ r.2 = queue ∧
        (cb = .listen → queue = [] ∨ o.ok = false)) ∨
      ∃ d rest, cb = .listen ∧ queue = d :: rest ∧ r.2 = rest ∧
        Loop.readings r.1.hist = Loop.readings m.hist ++ [(d.src, m.now)] := by
  cases h with
  | skip cb hlisten => exact .inl ⟨rfl, rfl, hlisten⟩
  | listen d rest hqueue =>
      refine .inr ⟨d, rest, rfl, hqueue, rfl, ?_⟩
      obtain ⟨l, hl, hrest⟩ := handleAnswer_hist o.call wall m d.src o.re o.res
      have hnil : Loop.readings l = [] := by
        refine List.filterMap_eq_nil_iff.mpr fun x hx => ?_
        obtain ⟨i, -, ⟨text, ok, t, rfl⟩ | ⟨interval, t, rfl⟩⟩ := hrest x hx <;> rfl
      have hcons : Loop.readings (.answer d.src (getTarget o.res m.targets d.src) o.re m.now :: l)
          = (d.src, m.now) :: Loop.readings l := rfl
      rw [hl, readings_append, hcons, hnil]
  | poll i =>
      refine .inl ⟨?_, rfl, by simp⟩
      cases ht : (reschedulePoll m i).targets[i]? with
      | none =>
          rw [sendBip_none wall ht]
          rfl
      | some t =>
          obtain ⟨dest, hdest⟩ := sendBip_hist wall ht o.res o.ok
          rw [hdest, readings_append]
          exact List.append_nil _
  | err i =>
      refine .inl ⟨?_, rfl, by simp⟩
      obtain ⟨l, hl, hnotice⟩ := handleErrEvent_hist o.call (rescheduleErr m i) i
      have hnil : Loop.readings l = [] := by
        refine List.filterMap_eq_nil_iff.mpr fun x hx => ?_
        obtain ⟨text, ok, t, rfl⟩ := hnotice x hx
        rfl
      rw [hl, readings_append, hnil, List.append_nil]
      rfl

variable (wall) in
/-- A callback, with the socket that it leaves. -/
lemma act_run {s : Loop} {todo : List Callback} (htodo : s.todo = cb :: todo) (o : Outcome) :
    act wall s (.run o)
      = ⟨(runCallback wall s.monitor s.queue o cb).1,
          (runCallback wall s.monitor s.queue o cb).2 ++ brings s (.run o), todo⟩ := by
  simp only [act, brings, htodo]

end Callbacks

/-! ### How long a datagram waits -/

/-- `recvfrom` does not fail on a socket that was found readable. -/
def Receiving (s : Loop) : Event → Prop
  | .run o => s.todo.head? = some .listen → o.ok = true
  | _ => True

instance (s : Loop) : ∀ e : Event, Decidable (Receiving s e)
  | .run o => inferInstanceAs (Decidable (s.todo.head? = some .listen → o.ok = true))
  | .arrive _ => isTrue trivial
  | .wait _ => isTrue trivial
  | .pass _ => isTrue trivial

/-- Calls of Telegram are quick and receptions succeed. -/
def Serving (D : ℕ) (s : Loop) (e : Event) : Prop := Quick D s e ∧ Receiving s e

instance (wall : ℤ → Reading) (D : ℕ) (s : Loop) (e : Event) :
    Decidable (((machine wall).restrict (Serving D)).guard s e) :=
  inferInstanceAs (Decidable (s.guard wall e ∧ Quick D s e ∧ Receiving s e))

/-- The number of datagrams read since an instant. -/
def readSince (a : ℤ) (hist : List Act) : ℕ := (readings hist).countP fun x => a ≤ x.2

/-- The receptions that a pass has still to make. -/
def toRead (todo : List Callback) : ℕ := if .listen ∈ todo then 1 else 0

/-- In a pass that began at `began`, a datagram has waited for at most one pass for
every datagram read since it arrived or still to be read in the pass. -/
structure Served (n D : ℕ) (began : ℤ) (s : Loop) : Prop where
  past : ∀ d ∈ s.queue, d.arrival ≤ s.monitor.now
  waited : ∀ d ∈ s.queue,
    began ≤ d.arrival + (readSince d.arrival s.monitor.hist + toRead s.todo) * span n D
  once : .listen ∉ s.todo.tail

section Waiting

variable {wall : ℤ → Reading} {n D : ℕ} {began : ℤ} {s : Loop}

lemma listen_not_due (m : Monitor) : .listen ∉ dueCallbacks m := by
  intro hmem
  obtain ⟨i, -, hi⟩ := List.mem_flatMap.mp hmem
  revert hi
  cases m.targets[i]? with
  | none => simp
  | some t => simp only []; split_ifs <;> simp

/-- A pass begins. -/
lemma Served.pass (h : Served n D began s) (hpass : InPass n D began s) (hdone : s.todo = [])
    {order : List Callback} (hperm : order.Perm (dueCallbacks s.monitor)) :
    Served n D s.monitor.now (act wall s (.pass order)) := by
  have hnone : .listen ∉ order := fun hmem => listen_not_due s.monitor (hperm.mem_iff.mp hmem)
  refine ⟨h.past, fun d hd => ?_, ?_⟩
  · have hd : d ∈ s.queue := hd
    have hqueue : s.queue ≠ [] := List.ne_nil_of_mem hd
    have hwaited := h.waited d hd
    obtain ⟨hlast, -⟩ := hpass.idle hdone
    have hread : toRead (act wall s (.pass order)).todo = 1 := by simp [toRead, act, hqueue]
    rw [hdone, toRead, if_neg (by simp), Nat.cast_zero, add_zero] at hwaited
    rw [hread]
    show s.monitor.now ≤ d.arrival + (readSince d.arrival s.monitor.hist + (1 : ℕ)) * span n D
    rw [Nat.cast_one, add_mul, one_mul]
    linarith
  · simp only [act]
    split_ifs
    · exact fun hmem => hnone (List.mem_of_mem_tail hmem)
    · simpa using hnone

/-- A callback runs. -/
lemma Served.run (h : Served n D began s) (hpass : InPass n D began s) {o : Outcome}
    (hg : s.guard wall (.run o)) (hreceive : Receiving s (.run o)) :
    Served n D began (act wall s (.run o)) := by
  obtain ⟨hrun, harrivals⟩ := hg
  cases htodo : s.todo with
  | nil => exact absurd htodo hrun
  | cons cb todo =>
      have hran := runCallback_ran wall s.monitor s.queue o cb
      have hact := act_run wall htodo o
      have hnow := hran.takes.1
      have honce : .listen ∉ todo := by simpa [htodo] using h.once
      have hnone : toRead todo = 0 := if_neg honce
      have hspan := span_nonneg n D
      -- what arrives meanwhile has not waited for this pass yet
      have hnew : ∀ d ∈ brings s (.run o), s.monitor.now ≤ d.arrival ∧
          d.arrival ≤ (act wall s (.run o)).monitor.now := by
        intro d hd
        simp only [brings, htodo] at hd
        obtain ⟨x, hx, rfl⟩ := List.mem_map.mp hd
        exact ⟨by simp, harrivals x hx⟩
      have hold : ∀ d ∈ (runCallback wall s.monitor s.queue o cb).2, d ∈ s.queue :=
        fun d hd => hran.suffix.subset hd
      rw [hact] at hnew ⊢
      refine ⟨fun d hd => ?_, fun d hd => ?_, fun hmem => honce (List.mem_of_mem_tail hmem)⟩
      · rcases List.mem_append.mp hd with hd | hd
        · exact (h.past d (hold d hd)).trans hnow
        · exact (hnew d hd).2
      · rw [hnone, Nat.cast_zero, add_zero]
        rcases List.mem_append.mp hd with hd | hd
        · have hwaited := h.waited d (hold d hd)
          obtain ⟨hhist, hqueue, hskip⟩ | ⟨d', rest, rfl, hcons, hqueue, hhist⟩ := hran.readings
          · -- nothing was read, so the pass had nothing to read
            have hcb : cb ≠ .listen := by
              rintro rfl
              rcases hskip rfl with hnil | hfail
              · rw [hqueue, hnil] at hd
                simp at hd
              · rw [hreceive (by simp [htodo])] at hfail
                cases hfail
            have hread : toRead s.todo = 0 := by
              rw [toRead, htodo, if_neg]
              simp [honce, Ne.symm hcb]
            rw [hread, Nat.cast_zero, add_zero] at hwaited
            simpa only [readSince, hhist] using hwaited
          · have hread : toRead s.todo = 1 := by simp [toRead, htodo]
            have hcount : readSince d.arrival (runCallback wall s.monitor s.queue o .listen).1.hist
                = readSince d.arrival s.monitor.hist + 1 := by
              rw [readSince, hhist, List.countP_append]
              simp [readSince, h.past d (hold d hd)]
            rw [hread] at hwaited
            rw [hcount]
            exact_mod_cast hwaited
        · have harrived := (hnew d hd).1
          have hprod : 0 ≤ (readSince d.arrival
              (runCallback wall s.monitor s.queue o cb).1.hist : ℤ) * span n D := by positivity
          have hstarted := hpass.started
          linarith

/-- Every step that serves keeps the datagrams served. -/
lemma Served.step (h : Served n D began s) (hpass : InPass n D began s) {e : Event}
    (hg : s.guard wall e) (hserve : Serving D s e) :
    ∃ began', InPass n D began' (act wall s e) ∧ Served n D began' (act wall s e) := by
  cases e with
  | arrive src =>
      refine ⟨began, ⟨hpass.targets, hpass.errTv, hpass.started, hpass.spent, hpass.timers⟩,
        fun d hd => ?_, fun d hd => ?_, h.once⟩
      · rcases List.mem_append.mp hd with hd | hd
        · exact h.past d hd
        · rw [List.mem_singleton.mp hd]
          exact le_rfl
      · rcases List.mem_append.mp hd with hd | hd
        · exact h.waited d hd
        · rw [List.mem_singleton.mp hd]
          have hspan := span_nonneg n D
          have hprod : 0 ≤ ((readSince s.monitor.now s.monitor.hist : ℤ) + toRead s.todo)
              * span n D := by positivity
          have hstarted := hpass.started
          show began ≤ s.monitor.now
            + ((readSince s.monitor.now s.monitor.hist : ℤ) + toRead s.todo) * span n D
          linarith
  | wait d =>
      have hquick : Quick D s (.wait d) := trivial
      obtain ⟨began', hnext⟩ := hpass.step hg hquick
      have hempty : (act wall s (.wait d)).queue = [] := hg.2.1
      exact ⟨began', hnext, by simp [hempty], by simp [hempty], h.once⟩
  | pass order => exact ⟨_, hpass.pass hg.1 hg.2, h.pass hpass hg.1 hg.2⟩
  | run o => exact ⟨began, hpass.run hg.1 hserve.1, h.run hpass hg hserve.2⟩

end Waiting

variable {wall : ℤ → Reading} {cfg : Config} {t₀ : ℤ} {took : ℕ}
  {arrivals : List (SockAddr × ℕ)} {es : List Event}

/-- If calls of Telegram are quick and receptions succeed, a datagram waits for at most one pass
for every datagram read since it arrived, and two more. -/
theorem waits_within {D : ℕ} (hp : 0 < cfg.pollInterval) (he : 0 < cfg.errInterval)
    (htook : took ≤ D) (harrivals : ∀ x ∈ arrivals, x.2 ≤ took)
    (h : ((machine wall).restrict (Serving D)).Allowed (start cfg t₀ took arrivals) es) :
    let s := (machine wall).exec (start cfg t₀ took arrivals) es
    ∀ d ∈ s.queue, s.monitor.now
      ≤ d.arrival + (readSince d.arrival s.monitor.hist + 2) * span cfg.targets.length D := by
  intro s d hd
  have hstep : ∀ s e, (∃ began, InPass cfg.targets.length D began s ∧
      Served cfg.targets.length D began s) → ((machine wall).restrict (Serving D)).guard s e →
      ∃ began, InPass cfg.targets.length D began (act wall s e) ∧
        Served cfg.targets.length D began (act wall s e) := by
    rintro s e ⟨began, hpass, hserved⟩ ⟨hg, hserve⟩
    exact hserved.step hpass hg hserve
  have hstart : Served cfg.targets.length D t₀ (start cfg t₀ took arrivals) := by
    refine ⟨fun d hd => ?_, fun d hd => ?_, by simp [start]⟩
    · obtain ⟨x, hx, rfl⟩ := List.mem_map.mp hd
      have hle : (x.2 : ℤ) ≤ took := by exact_mod_cast harrivals x hx
      simpa [start] using hle
    · obtain ⟨x, hx, rfl⟩ := List.mem_map.mp hd
      simp [start, Monitor.start, init, readSince, readings, toRead]
  obtain ⟨began, hpass, hserved⟩ := h.induction hstep
    ⟨t₀, inPass_start hp.le he.le t₀ htook arrivals, hstart⟩
  have hwaited := hserved.waited d hd
  have hleft : s.monitor.now ≤ began + span cfg.targets.length D := by
    have hmore : 0 ≤ (slowLeft s.todo : ℤ) * D := by positivity
    have hspent : s.monitor.now + (slowLeft s.todo : ℤ) * D ≤ began + span cfg.targets.length D :=
      hpass.spent
    linarith
  have hread : ((readSince d.arrival s.monitor.hist : ℤ) + toRead s.todo)
      * span cfg.targets.length D
      ≤ (readSince d.arrival s.monitor.hist + 1) * span cfg.targets.length D := by
    have hspan := span_nonneg cfg.targets.length D
    have hone : toRead s.todo ≤ 1 := by
      rw [toRead]
      split_ifs <;> simp
    have hone' : (toRead s.todo : ℤ) ≤ 1 := by exact_mod_cast hone
    gcongr
  have hwaited' : began ≤ d.arrival
      + ((readSince d.arrival s.monitor.hist : ℤ) + toRead s.todo) * span cfg.targets.length D :=
    hwaited
  linarith

/-- Two datagrams, the second of which arrives while the first is handled. -/
def twoAnswers : List Event :=
  [.wait 4000000000, .arrive piAddr, .pass [],
    .run ⟨piResolver, true, ⟨true, 1000000000⟩, 0, [(piAddr, 5)]⟩, .pass [.poll 0]]

theorem waits_within_twoAnswers :
    let s := (machine fun _ => .epoch).exec (start polledOften 0 0 []) twoAnswers
    ∀ d ∈ s.queue, s.monitor.now
      ≤ d.arrival + (readSince d.arrival s.monitor.hist + 2) * span 1 1000000000 :=
  waits_within (by decide) (by decide) (by decide) (by simp) (by decide)

end Hearthbeat.Loop
