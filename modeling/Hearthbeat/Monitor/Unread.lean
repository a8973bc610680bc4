import Hearthbeat.Monitor.Loop
import Hearthbeat.Monitor.Notices

/-!
Alarms while an answer waits unread.

A pass reads one datagram, whatever else waits at the socket, and then raises the
alarms of all timers that it found due. So a host is reported down although its
answer is there, if that answer waits behind another (`alarm_before_reading`).

* `NoAlarmUnread`: no alarm is raised for a host with an unread answer younger
  than `err_interval`.
* `Prompt`: where the error timer of a host that is online is found due, its
  young unread answers have one of its own in front of them, whose reception
  resets the timer or leaves none of them, and no other joins them before the
  timer's callback.
* `no_alarm_unread`: in a run of prompt steps no such alarm is raised.
-/

namespace Hearthbeat.Loop

open Monitor

variable (addr : ℕ → SockAddr)

/-- One of these datagrams is an answer of the target `i`, younger than
`err_interval`. -/
def Young (s : Loop) (queue : List Queued) (i : ℕ) : Prop :=
  ∃ d ∈ queue, d.src = addr i ∧ s.monitor.now - d.arrival < s.monitor.errTv

/-- Such an answer waits at the socket. -/
def Unread (s : Loop) (i : ℕ) : Prop := Young addr s s.queue i

/-- The target `i` is online, and its error timer was found due and has its
callback still to run. -/
def Waiting (s : Loop) (i : ℕ) : Prop :=
  ∃ t ∈ s.monitor.targets[i]?, t.isonline = true ∧ t.errEv.active.isSome = true

/-- The target `i` is online, and its error timer is due. -/
def OnlineDue (s : Loop) (i : ℕ) : Prop :=
  ∃ t ∈ s.monitor.targets[i]?, t.isonline = true ∧ t.errEv.Due s.monitor.now

/-- An answer of the target `i` is the first at the socket. -/
def First (s : Loop) (i : ℕ) : Prop := ∃ d ∈ s.queue.head?, d.src = addr i

/-- It is, and the pass is about to read it. -/
def Heard (s : Loop) (i : ℕ) : Prop := s.todo.head? = some .listen ∧ First addr s i

/-- Whatever the next step is, no alarm of it comes while an answer waits. -/
def NoAlarmUnread (wall : ℤ → Reading) (s : Loop) : Prop :=
  ∀ e, s.guard wall e → ∀ i text ok t,
    .notice i false text ok t ∈ (act wall s e).monitor.hist.drop s.monitor.hist.length →
      ¬ Unread addr s i

/-- The condition on a step: an answer of a target whose timer was found due
arrives only behind one that is about to be read; a timer is found due only if a
young answer of its target has one of its own in front; and the reception of that
one resets the timer or leaves none behind. -/
def Prompt (s : Loop) : Event → Prop
  | .arrive src => ∀ i < s.monitor.targets.length, src = addr i → Waiting s i → Heard addr s i
  | .wait _ => True
  | .pass _ => ∀ i < s.monitor.targets.length, OnlineDue s i → Unread addr s i → First addr s i
  | .run o => ∀ cb ∈ s.todo.head?, ∀ i < s.monitor.targets.length, Waiting s i →
      concern s.monitor s.queue o cb = some i ∨
        (∀ x ∈ o.arrivals, x.1 ≠ addr i) ∧
          (Heard addr s i → ¬ Young addr s (left s.queue o cb) i)

section Decide

instance (s : Loop) (queue : List Queued) (i : ℕ) : Decidable (Young addr s queue i) :=
  inferInstanceAs (Decidable (∃ d ∈ queue, d.src = addr i ∧
    s.monitor.now - d.arrival < s.monitor.errTv))

instance (s : Loop) (i : ℕ) : Decidable (Unread addr s i) :=
  inferInstanceAs (Decidable (Young addr s s.queue i))

instance (s : Loop) (i : ℕ) : Decidable (Waiting s i) :=
  inferInstanceAs (Decidable (∃ t ∈ s.monitor.targets[i]?,
    t.isonline = true ∧ t.errEv.active.isSome = true))

instance (s : Loop) (i : ℕ) : Decidable (OnlineDue s i) :=
  inferInstanceAs (Decidable (∃ t ∈ s.monitor.targets[i]?,
    t.isonline = true ∧ t.errEv.Due s.monitor.now))

instance (s : Loop) (i : ℕ) : Decidable (First addr s i) :=
  inferInstanceAs (Decidable (∃ d ∈ s.queue.head?, d.src = addr i))

instance (s : Loop) (i : ℕ) : Decidable (Heard addr s i) :=
  inferInstanceAs (Decidable (s.todo.head? = some .listen ∧ First addr s i))

instance : ∀ (s : Loop) (e : Event), Decidable (Prompt addr s e)
  | s, .arrive src => inferInstanceAs (Decidable
      (∀ i < s.monitor.targets.length, src = addr i → Waiting s i → Heard addr s i))
  | _, .wait _ => isTrue trivial
  | s, .pass _ => inferInstanceAs (Decidable
      (∀ i < s.monitor.targets.length, OnlineDue s i → Unread addr s i → First addr s i))
  | s, .run o => inferInstanceAs (Decidable
      (∀ cb ∈ s.todo.head?, ∀ i < s.monitor.targets.length, Waiting s i →
        concern s.monitor s.queue o cb = some i ∨
          (∀ x ∈ o.arrivals, x.1 ≠ addr i) ∧
            (Heard addr s i → ¬ Young addr s (left s.queue o cb) i)))

instance (wall : ℤ → Reading) (s : Loop) (e : Event) :
    Decidable (((machine wall).restrict (Prompt addr)).guard s e) :=
  inferInstanceAs (Decidable (s.guard wall e ∧ Prompt addr s e))

end Decide

/-- In a pass, a target whose alarm is due has no young unread answer, or has one
that is about to be read. -/
def Promptly (s : Loop) : Prop := ∀ i, Waiting s i → Unread addr s i → Heard addr s i

variable {addr} {wall : ℤ → Reading} {s : Loop} {i : ℕ}

lemma Waiting.lt (h : Waiting s i) : i < s.monitor.targets.length := by
  obtain ⟨t, ht, -⟩ := h
  exact (List.getElem?_eq_some_iff.mp ht).1

/-! ### Which steps raise an alarm -/

/-- Only the callback of a target's own error timer reports it down, if it is
online. -/
lemma Ran.alarm {m : Monitor} {queue : List Queued} {o : Outcome} {cb : Callback}
    {r : Monitor × List Queued} (h : Ran wall m queue o cb r) {text : Text} {ok : Bool} {τ : ℤ}
    (hmem : .notice i false text ok τ ∈ r.1.hist.drop m.hist.length) :
    cb = .err i ∧ ∃ t ∈ m.targets[i]?, t.isonline = true ∧ t.errEv.active.isSome = true := by
  cases h with
  | skip => simp at hmem
  | listen d rest =>
      obtain ⟨l, hl, hrest⟩ := handleAnswer_hist o.call wall m d.src o.re o.res
      rw [hl, List.drop_left] at hmem
      obtain ⟨k, -, ⟨text', ok', t', heq⟩ | ⟨interval, t', heq⟩⟩ :=
        hrest _ (List.mem_of_ne_of_mem (by simp) hmem) <;> cases heq
  | poll k =>
      cases ht : (reschedulePoll m k).targets[k]? with
      | none =>
          rw [sendBip_none wall ht] at hmem
          simp [reschedulePoll] at hmem
      | some t =>
          obtain ⟨dest, hhist⟩ := sendBip_hist wall ht o.res o.ok
          rw [hhist] at hmem
          simp [reschedulePoll] at hmem
  | err k t ht hact =>
      have ht' : (rescheduleErr m k).targets[k]?
          = some { t with errEv := t.errEv.reschedule m.now } := by
        rw [rescheduleErr, modifyTarget_same, ht]
        rfl
      cases hon : t.isonline with
      | true =>
          rw [handleErrEvent_online o.call ht' hon] at hmem
          obtain rfl : i = k := by
            simp [telegramSendMessage, rescheduleErr] at hmem
            exact hmem.1
          exact ⟨rfl, t, ht, hon, hact⟩
      | false =>
          rw [handleErrEvent_offline o.call ht' hon] at hmem
          simp [rescheduleErr] at hmem

/-- A step that reports a target down runs its callback. -/
lemma alarm_inv {e : Event} {text : Text} {ok : Bool} {τ : ℤ}
    (hmem : .notice i false text ok τ ∈ (act wall s e).monitor.hist.drop s.monitor.hist.length) :
    Waiting s i ∧ s.todo.head? = some (.err i) := by
  cases e with
  | run o =>
      cases htodo : s.todo with
      | nil => simp [act, htodo] at hmem
      | cons cb todo =>
          have hstep : (act wall s (.run o)).monitor
              = (runCallback wall s.monitor s.queue o cb).1 := by
            simp [act, htodo]
          rw [hstep] at hmem
          obtain ⟨rfl, hwait⟩ := (runCallback_ran wall s.monitor s.queue o cb).alarm hmem
          exact ⟨hwait, rfl⟩
  | _ => simp [act] at hmem

/-- Where the callbacks are run promptly no alarm comes too early. -/
lemma Promptly.noAlarmUnread (h : Promptly addr s) : NoAlarmUnread addr wall s := by
  intro e hg i text ok τ hmem hunread
  obtain ⟨hwait, hhead⟩ := alarm_inv hmem
  obtain ⟨hlisten, -⟩ := h i hwait hunread
  rw [hhead] at hlisten
  cases hlisten

/-! ### The run -/

/-- A callback, with what arrives meanwhile. -/
lemma Promptly.run (h : Promptly addr s) {o : Outcome} {cb : Callback} {todo : List Callback}
    (htodo : s.todo = cb :: todo) (hp : Prompt addr s (.run o)) :
    Promptly addr (act wall s (.run o)) := by
  set r := runCallback wall s.monitor s.queue o cb
  have hran : Ran wall s.monitor s.queue o cb r := runCallback_ran wall s.monitor s.queue o cb
  have hstep : act wall s (.run o)
      = ⟨r.1, r.2 ++ o.arrivals.map fun x => ⟨x.1, s.monitor.now + x.2⟩, todo⟩ := by
    simp [act, htodo, r]
  rw [hstep]
  rintro i ⟨t, ht, hon, hact⟩ ⟨d, hd, hsrc, hyoung⟩
  exfalso
  have hother : concern s.monitor s.queue o cb ≠ some i := by
    intro hown
    rw [hran.inactive hown ht] at hact
    cases hact
  -- so the target was waiting already, and nothing of it is read or arrives
  have hwait : Waiting s i := by
    have hstatus := hran.status hother
    rw [ht, Option.map_some] at hstatus
    obtain ⟨t₀, ht₀, heq⟩ := Option.map_eq_some_iff.mp hstatus.symm
    obtain ⟨hon₀, herr₀⟩ := Prod.mk.inj heq
    exact ⟨t₀, ht₀, hon₀ ▸ hon, herr₀ ▸ hact⟩
  obtain ⟨hnoarrival, hnoneleft⟩ := (hp cb (by simp [htodo]) i hwait.lt hwait).resolve_left hother
  rcases List.mem_append.mp hd with hold | hnew
  · have hnow := hran.takes.1
    have htv : r.1.errTv = s.monitor.errTv := hran.keeps.errTv
    have hyoung₀ : s.monitor.now - d.arrival < s.monitor.errTv := by
      simp only [htv] at hyoung
      omega
    have hheard := h i hwait ⟨d, hran.suffix.subset hold, hsrc, hyoung₀⟩
    exact hnoneleft hheard ⟨d, hran.left ▸ hold, hsrc, hyoung₀⟩
  · obtain ⟨x, hx, rfl⟩ := List.mem_map.mp hnew
    exact hnoarrival x hx hsrc

/-- Every prompt step is followed by a prompt one. -/
lemma Promptly.step (s : Loop) (e : Event) (h : Promptly addr s) (hg : s.guard wall e)
    (hp : Prompt addr s e) : Promptly addr (act wall s e) := by
  cases e with
  | arrive src =>
      rintro i hwait ⟨d, hd, hsrc, hyoung⟩
      have hwait' : Waiting s i := hwait
      have hheard : Heard addr s i := by
        rcases List.mem_append.mp hd with hold | hnew
        · exact h i hwait' ⟨d, hold, hsrc, hyoung⟩
        · rw [List.mem_singleton] at hnew
          exact hp i hwait'.lt (by rw [← hsrc, hnew]) hwait'
      obtain ⟨hlisten, d', hd', hsrc'⟩ := hheard
      refine ⟨hlisten, d', ?_, hsrc'⟩
      rw [Option.mem_def] at hd' ⊢
      simp [act, List.head?_append, hd']
  | wait d =>
      rintro i - ⟨x, hx, -⟩
      -- the process waits only while nothing is queued
      have hempty : s.queue = [] := hg.2.1
      simp [act, hempty] at hx
  | pass order =>
      rintro i ⟨t, ht, hon, hact⟩ hunread
      have hunread' : Unread addr s i := hunread
      rw [Option.mem_def] at ht
      simp only [act, List.getElem?_map, Option.map_eq_some_iff] at ht
      obtain ⟨t₀, ht₀, rfl⟩ := ht
      have hnonempty : s.queue ≠ [] := by
        obtain ⟨x, hx, -⟩ := hunread'
        exact List.ne_nil_of_mem hx
      have hlt : i < s.monitor.targets.length := (List.getElem?_eq_some_iff.mp ht₀).1
      by_cases hdue : t₀.errEv.Due s.monitor.now
      · refine ⟨by simp [act, hnonempty], ?_⟩
        exact hp i hlt ⟨t₀, ht₀, hon, hdue⟩ hunread'
      · -- a timer that was active before the pass has its callback still to run
        have hwait : Waiting s i := by
          refine ⟨t₀, ht₀, hon, ?_⟩
          simpa [expireTimers, Timer.expire_of_not_due hdue] using hact
        obtain ⟨hlisten, -⟩ := h i hwait hunread'
        rw [hg.1] at hlisten
        cases hlisten
  | run o =>
      obtain ⟨cb, todo, htodo⟩ := List.exists_cons_of_ne_nil hg.1
      exact h.run htodo hp

variable (addr wall) (cfg : Config) (t₀ : ℤ) (took : ℕ) (arrivals : List (SockAddr × ℕ))
  {es : List Event}

/-- In a run of prompt steps no alarm comes while an answer waits unread. -/
theorem no_alarm_unread
    (h : ((machine wall).restrict (Prompt addr)).Allowed (start cfg t₀ took arrivals) es) :
    NoAlarmUnread addr wall ((machine wall).exec (start cfg t₀ took arrivals) es) := by
  have hstart : Promptly addr (start cfg t₀ took arrivals) := by
    rintro i ⟨t, ht, -, hact⟩
    obtain ⟨t₁, -, rfl⟩ := Option.map_eq_some_iff.mp (List.getElem?_map ▸ ht)
    cases hact
  have hrun : Promptly addr ((machine wall).exec (start cfg t₀ took arrivals) es) :=
    h.induction (fun s e hs hg => hs.step s e hg.1 hg.2) hstart
  exact hrun.noAlarmUnread

/-! ### Two runs -/

/-- A callback whose calls succeed and take that long, with what arrives
meanwhile. -/
def outcome (res : Resolver) (took : ℕ) (arrivals : List (SockAddr × ℕ)) : Outcome where
  res := res
  ok := true
  call := ⟨true, took⟩
  re := 0
  arrivals := arrivals

/-- A host that answers just as its error timer is due, and is heard. -/
def heardInTime : List Event :=
  [.arrive piAddr, .pass [], .run (outcome piResolver 0 []), .wait 15000000000,
    .arrive piAddr, .pass [.err 0], .run (outcome piResolver 0 []),
    .run (outcome piResolver 0 [])]

theorem no_alarm_unread_heardInTime :
    NoAlarmUnread (fun _ => piAddr) (fun _ => .epoch)
      ((machine fun _ => .epoch).exec (start oneTarget 0 0 []) heardInTime) :=
  no_alarm_unread (fun _ => piAddr) (fun _ => .epoch) oneTarget 0 0 [] (by decide)

/-- While the notice about `pi` takes 20 s, `pi` answers again, then `nas`, whose
error timer is due at 15 s. The next pass reads the answer of `pi`. -/
def heardTooLate : List Event :=
  [.arrive nasAddr, .pass [], .run (outcome twoResolver 0 []), .wait 1000000000,
    .arrive piAddr, .pass [],
    .run (outcome twoResolver 20000000000 [(piAddr, 4000000000), (nasAddr, 13000000000)]),
    .pass [.err 1, .poll 0, .poll 1], .run (outcome twoResolver 0 [])]

/-- Then `nas` is reported down, its answer of seven seconds ago unread. -/
theorem alarm_before_reading :
    (machine fun _ => .epoch).Allowed (start twoTargets 0 0 []) heardTooLate ∧
      ¬ NoAlarmUnread (fun i => if i = 0 then piAddr else nasAddr) (fun _ => .epoch)
        ((machine fun _ => .epoch).exec (start twoTargets 0 0 []) heardTooLate) := by
  refine ⟨by decide, fun h => ?_⟩
  have hguard : ((machine fun _ => .epoch).exec (start twoTargets 0 0 []) heardTooLate).guard
      (fun _ => .epoch) (.run (outcome twoResolver 0 [])) := by decide
  have hmem : .notice 1 false (bytes "local: Host nas is down!") true 21000000000
      ∈ (act (fun _ => .epoch)
            ((machine fun _ => .epoch).exec (start twoTargets 0 0 []) heardTooLate)
            (.run (outcome twoResolver 0 []))).monitor.hist.drop
          ((machine fun _ => .epoch).exec (start twoTargets 0 0 [])
            heardTooLate).monitor.hist.length :=
    List.mem_singleton_self _
  exact h _ hguard 1 _ _ _ hmem (by decide)

end Hearthbeat.Loop
