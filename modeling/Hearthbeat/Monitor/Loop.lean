import Hearthbeat.Monitor.Frame

/-!
The event loop of the monitor pass by pass, with calls of Telegram that take their time.

Datagrams queue at `udp_server_socket`. A pass finds out whether the socket is
readable and which timers are due, and then runs their callbacks: one reception,
which reads one datagram, and the due timers. While a callback waits for Telegram
more datagrams arrive and more timers become due, but the pass goes on with what
it has found. A due timer that a callback deletes does not run.

`Loop.machine` has the steps of this loop. The callbacks are those of
`Monitor.machine`; what a pass adds is when they run. All else takes no time: lookups,
`sendto`, and the database. A timer that is added after a call of Telegram counts from
the time after it, not from the time that libevent keeps for the pass.
-/

namespace Hearthbeat

open Monitor

/-- A datagram that waits at the socket, and when it arrived. -/
structure Queued where
  src : SockAddr
  arrival : ℤ
  deriving DecidableEq

/-- A callback of the event loop: the reception, or that of a timer of a target. -/
inductive Callback where
  | listen
  | poll (i : ℕ)
  | err (i : ℕ)
  deriving DecidableEq

/-- What the calls of one callback come to: lookups, `recvfrom` or `sendto`,
Telegram; and the datagrams that arrive meanwhile, with the time since the
callback began. `re` is the poll that the datagram read replies to. -/
structure Outcome where
  res : Resolver
  ok : Bool
  call : Call
  re : ℕ
  arrivals : List (SockAddr × ℕ)

/-- The monitor, its socket, and the callbacks that the pass has still to run. -/
structure Loop where
  monitor : Monitor
  queue : List Queued
  todo : List Callback

namespace Loop

/-- The timers found due, in the order of the targets. -/
def dueCallbacks (m : Monitor) : List Callback :=
  (List.range m.targets.length).flatMap fun i =>
    match m.targets[i]? with
    | none => []
    | some t =>
        (if t.pollEv.Due m.now then [.poll i] else []) ++ if t.errEv.Due m.now then [.err i] else []

/-- The loop looks at the two timers of a target. -/
def expireTimers (now : ℤ) (t : Target) : Target :=
  { t with pollEv := t.pollEv.expire now, errEv := t.errEv.expire now }

/-- libevent adds the poll timer again before its callback runs. -/
def reschedulePoll (m : Monitor) (i : ℕ) : Monitor :=
  m.modifyTarget i fun t => { t with pollEv := t.pollEv.reschedule m.now }

/-- libevent adds the error timer again before its callback runs. -/
def rescheduleErr (m : Monitor) (i : ℕ) : Monitor :=
  m.modifyTarget i fun t => { t with errEv := t.errEv.reschedule m.now }

/-- One callback, with the socket that it leaves. -/
def runCallback (wall : ℤ → Reading) (m : Monitor) (queue : List Queued) (o : Outcome) :
    Callback → Monitor × List Queued
  | .listen =>
      match queue with
      | [] => (m, [])
      | d :: rest =>
          if o.ok then (m.handleAnswer wall (some d.src) o.re o.res o.call, rest)
          else (m.handleAnswer wall none o.re o.res o.call, d :: rest)
  | .poll i =>
      match m.targets[i]? with
      | none => (m, queue)
      | some t =>
          if t.pollEv.active.isSome then
            ((reschedulePoll m i).handlePollEvent wall i o.res o.ok, queue)
          else (m, queue)
  | .err i =>
      match m.targets[i]? with
      | none => (m, queue)
      | some t =>
          if t.errEv.active.isSome then
            ((rescheduleErr m i).handleErrEvent i o.call, queue)
          else (m, queue)

/-- The target that a callback concerns: the one that the datagram read is
attributed to, or the one whose error timer it is. -/
def concern (m : Monitor) (queue : List Queued) (o : Outcome) : Callback → Option ℕ
  | .listen =>
      match queue with
      | [] => none
      | d :: _ => if o.ok then getTarget o.res m.targets d.src else none
  | .poll _ => none
  | .err i => some i

/-- What a callback leaves at the socket: a reception takes the first datagram, if
`recvfrom` succeeds. -/
def left (queue : List Queued) (o : Outcome) : Callback → List Queued
  | .listen => if o.ok then queue.tail else queue
  | _ => queue

/-- A datagram arrives, time passes, a pass begins with the due timers in some order, or the
next callback of the pass runs. -/
inductive Event where
  | arrive (src : SockAddr)
  | wait (d : ℕ)
  | pass (order : List Callback)
  | run (o : Outcome)

/-- A step of the loop; a pass runs the reception first and then the due timers in
some order. -/
def act (wall : ℤ → Reading) (s : Loop) : Event → Loop
  | .arrive src => { s with queue := s.queue ++ [⟨src, s.monitor.now⟩] }
  | .wait d => { s with monitor := { s.monitor with now := s.monitor.now + d } }
  | .pass order =>
      { s with
        monitor := { s.monitor with targets := s.monitor.targets.map (expireTimers s.monitor.now) }
        todo := (if s.queue = [] then [] else [.listen]) ++ order }
  | .run o =>
      match s.todo with
      | [] => s
      | cb :: todo =>
          let (m, queue) := runCallback wall s.monitor s.queue o cb
          ⟨m, queue ++ o.arrivals.map fun x => ⟨x.1, s.monitor.now + x.2⟩, todo⟩

/-- The loop waits while there is nothing to do, a pass begins when the one before
is over, and what arrives during a callback does so before its end. -/
def guard (wall : ℤ → Reading) (s : Loop) : Event → Prop
  | .arrive _ => True
  | .wait d => s.todo = [] ∧ s.queue = [] ∧ ∀ t ∈ s.monitor.targets,
      t.pollEv.Spares (s.monitor.now + d) ∧ t.errEv.Spares (s.monitor.now + d)
  | .pass order => s.todo = [] ∧ order.Perm (dueCallbacks s.monitor)
  | .run o => s.todo ≠ [] ∧
      ∀ x ∈ o.arrivals, s.monitor.now + x.2 ≤ (act wall s (.run o)).monitor.now

instance (wall : ℤ → Reading) : ∀ (s : Loop) (e : Event), Decidable (s.guard wall e)
  | _, .arrive _ => isTrue trivial
  | s, .wait d => inferInstanceAs (Decidable (s.todo = [] ∧ s.queue = [] ∧
      ∀ t ∈ s.monitor.targets,
        t.pollEv.Spares (s.monitor.now + d) ∧ t.errEv.Spares (s.monitor.now + d)))
  | s, .pass order => inferInstanceAs
      (Decidable (s.todo = [] ∧ order.Perm (dueCallbacks s.monitor)))
  | s, .run o => inferInstanceAs (Decidable (s.todo ≠ [] ∧
      ∀ x ∈ o.arrivals, s.monitor.now + x.2 ≤ (act wall s (.run o)).monitor.now))

/-- The event loop, its socket, and the passage of time. -/
def machine (wall : ℤ → Reading) : Machine Loop Event where
  guard s e := s.guard wall e
  act := act wall

instance (wall : ℤ → Reading) (s : Loop) (e : Event) : Decidable ((machine wall).guard s e) :=
  inferInstanceAs (Decidable (s.guard wall e))

/-- The loop as `main` enters it: after the timers are added, the message that the
monitor is starting takes its time, and datagrams arrive meanwhile. -/
def start (cfg : Config) (t₀ : ℤ) (took : ℕ) (arrivals : List (SockAddr × ℕ)) : Loop :=
  ⟨{ Monitor.start cfg t₀ with now := t₀ + took },
    arrivals.map fun x => ⟨x.1, t₀ + x.2⟩, []⟩

/-! ### What a callback does in a pass -/

section Callbacks

variable (wall : ℤ → Reading) (m : Monitor) (queue : List Queued) (o : Outcome) (cb : Callback)

/-- A callback handles the first datagram, is one of a timer that is still active,
or does nothing, because `recvfrom` failed or the timer was deleted. -/
inductive Ran : Callback → Monitor × List Queued → Prop where
  | skip (cb : Callback) (hlisten : cb = .listen → queue = [] ∨ o.ok = false)
      (herr : ∀ i, cb = .err i → ∀ t, m.targets[i]? = some t → t.errEv.active = none) :
      Ran cb (m, queue)
  | listen (d : Queued) (rest : List Queued) (hqueue : queue = d :: rest) (hok : o.ok = true) :
      Ran .listen (m.handleAnswer wall (some d.src) o.re o.res o.call, rest)
  | poll (i : ℕ) : Ran (.poll i) ((reschedulePoll m i).sendBip wall i o.res o.ok, queue)
  | err (i : ℕ) (t : Target) (ht : m.targets[i]? = some t) (hact : t.errEv.active.isSome = true) :
      Ran (.err i) ((rescheduleErr m i).handleErrEvent i o.call, queue)

lemma runCallback_ran : Ran wall m queue o cb (runCallback wall m queue o cb) := by
  cases cb with
  | listen =>
      cases queue with
      | nil => exact .skip _ (fun _ => .inl rfl) (by simp)
      | cons d rest =>
          simp only [runCallback]
          split_ifs with hok
          · exact .listen d rest rfl hok
          · exact .skip _ (fun _ => .inr (by simpa using hok)) (by simp)
  | poll i =>
      simp only [runCallback]
      split
      · exact .skip _ (by simp) (by simp)
      · split_ifs
        · exact .poll i
        · exact .skip _ (by simp) (by simp)
  | err i =>
      cases ht : m.targets[i]? with
      | none =>
          have hskip : Ran wall m queue o (.err i) (m, queue) := .skip _ (by simp) (by simp [ht])
          simpa [runCallback, ht] using hskip
      | some t =>
          simp only [runCallback, ht]
          split_ifs with hact
          · exact .err i t ht hact
          · refine .skip _ (by simp) fun k hk t' ht' => ?_
            cases hk
            rw [ht, Option.some.injEq] at ht'
            simpa [ht'] using hact

variable {wall m queue o cb} {r : Monitor × List Queued} {j : ℕ}

lemma Ran.keeps (h : Ran wall m queue o cb r) : Keeps m r.1 := by
  cases h with
  | skip => exact Keeps.refl m
  | listen d rest => exact (Passive.handleAnswer wall m (some d.src) o.re o.res o.call).keeps
  | poll i =>
      have htimer : Keeps m (reschedulePoll m i) :=
        ⟨rfl, rfl, rfl, modifyTarget_map m i _ fun _ => rfl, List.prefix_refl _⟩
      exact htimer.trans (Keeps.sendBip wall _ i o.res o.ok)
  | err i =>
      have htimer : Passive m (rescheduleErr m i) := Passive.modifyTarget m i fun _ => rfl
      exact (htimer.trans (Passive.handleErrEvent _ i o.call)).keeps

lemma Ran.takes (h : Ran wall m queue o cb r) : Takes o.call.took m r.1 := by
  cases h with
  | skip => exact takes_of_eq _ rfl
  | listen d rest => exact handleAnswer_takes wall m _ o.re o.res o.call
  | poll i => exact takes_of_eq _ (sendBip_now wall _ i o.res o.ok)
  | err i => exact handleErrEvent_takes (rescheduleErr m i) i o.call

lemma Ran.left (h : Ran wall m queue o cb r) : r.2 = left queue o cb := by
  cases h with
  | skip _ hlisten =>
      cases cb with
      | listen => rcases hlisten rfl with rfl | hfail <;> simp [Loop.left, *]
      | _ => rfl
  | listen d rest hqueue hok => simp [Loop.left, hqueue, hok]
  | _ => rfl

/-- A callback adds nothing to the socket. -/
lemma Ran.suffix (h : Ran wall m queue o cb r) : r.2 <:+ queue := by
  cases h with
  | listen d rest hqueue => exact hqueue ▸ List.suffix_cons d rest
  | _ => exact List.suffix_refl _

/-- A callback leaves the flag and the error timer of every other target as they
are. -/
lemma Ran.status (h : Ran wall m queue o cb r) (hj : concern m queue o cb ≠ some j) :
    r.1.targets[j]?.map Target.status = m.targets[j]?.map Target.status := by
  cases h with
  | skip => rfl
  | listen d rest hqueue hok =>
      have hapart : Apart j m (m.handleAnswer wall (some d.src) o.re o.res o.call) := by
        refine Apart.handleAnswer wall m _ o.re o.res o.call fun client hsrc hw => hj ?_
        obtain rfl : d.src = client := by simpa using hsrc
        simp [concern, hqueue, hok, hw]
      rw [hapart.target]
  | poll i =>
      have hapart : Apart j (reschedulePoll m i) _ := Apart.sendBip wall _ i o.res o.ok
      have htimer : (reschedulePoll m i).targets.map Target.status
          = m.targets.map Target.status := modifyTarget_map m i _ fun _ => rfl
      rw [hapart.target, ← List.getElem?_map, ← List.getElem?_map, htimer]
  | err i =>
      have hij : i ≠ j := fun heq => hj (by rw [concern, heq])
      rw [(Apart.handleErrEvent _ o.call hij).target, rescheduleErr, modifyTarget_other m _ hij]

/-- The error timer of the target that a callback concerns is not active after
it. -/
lemma Ran.inactive (h : Ran wall m queue o cb r) (hj : concern m queue o cb = some j) {t : Target}
    (ht : r.1.targets[j]? = some t) : t.errEv.active = none := by
  cases h with
  | skip _ hlisten herr =>
      cases cb with
      | listen =>
          rcases hlisten rfl with rfl | hfail
          · cases hj
          · cases queue <;> simp [concern, hfail] at hj
      | poll i => cases hj
      | err i =>
          obtain rfl : i = j := by simpa [concern] using hj
          exact herr i rfl t ht
  | listen d rest hqueue hok =>
      have hw : getTarget o.res m.targets d.src = some j := by simpa [concern, hqueue, hok] using hj
      obtain ⟨t₀, ht₀⟩ : ∃ t₀, m.targets[j]? = some t₀ :=
        ⟨_, List.getElem?_eq_getElem (getTarget_lt hw)⟩
      have hreset := resetErrorTimer_target (m := m.log (.answer d.src (some j) o.re m.now))
        o.call ht₀
      rw [handleAnswer_attributed o.call wall o.re hw ht₀,
        (Apart.recordAnswer wall _ j o.re t₀.name).target, hreset, Option.some.injEq] at ht
      rw [← ht]
  | poll i => cases hj
  | err i t₀ ht₀ hact =>
      obtain rfl : i = j := by simpa [concern] using hj
      have htimer : (rescheduleErr m i).targets[i]?.map Target.errEv
          = some (t₀.errEv.reschedule m.now) := by
        rw [rescheduleErr, modifyTarget_same, ht₀]
        rfl
      have herr := congrArg (fun evs => evs[i]?) (handleErrEvent_errEv o.call (rescheduleErr m i) i)
      simp only [List.getElem?_map, ht, htimer, Option.map_some, Option.some.injEq] at herr
      rw [herr, Timer.reschedule]

end Callbacks

end Loop

end Hearthbeat
