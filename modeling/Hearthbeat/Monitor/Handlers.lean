import Hearthbeat.Monitor.Target
import Hearthbeat.Machine.Run

/-!
`monitor.c`, the callbacks, and the event machine in which they run.

Every function of the source is a function on `Monitor`: what it sends, stores
or reports goes to the history, and the outcomes of the calls it makes outside
the program (lookups, `sendto`, `recvfrom`, Telegram) are its arguments.
`wall` is the reading of `CLOCK_REALTIME` at every instant of the loop's clock.

The machine `Monitor.machine` takes polls, expiries and answers in any order. Its
guard is the timers' promise: the clock does not advance past a due timer, no
timer fires before its deadline, and a callback takes no time; what is due at
one instant may run in any order, since a deleted timer does not fire. Sequences
of events without a guard are its `exec`.
-/

namespace Hearthbeat

namespace Monitor

/-! ### The callbacks -/

/-- The text of the two notifications. -/
def noticeText (m : Monitor) (name : Text) (up : Bool) : Text :=
  snprintf 256 (m.myname ++ bytes ": Host " ++ name ++
    if up then bytes " is up!" else bytes " is down!")

/-- The source's `telegram_send_message`, called about the target `i`: the result
of `send_message` is dropped, the time it takes passes. -/
def telegramSendMessage (m : Monitor) (i : ℕ) (up : Bool) (text : Text) (c : Call) : Monitor :=
  { m.log (.notice i up text c.ok m.now) with now := m.now + c.took }

/-- The source's `send_bip`; `sent` says that `sendto` does not fail. -/
def sendBip (wall : ℤ → Reading) (m : Monitor) (i : ℕ) (res : Resolver) (sent : Bool) :
    Monitor :=
  match m.targets[i]? with
  | none => m
  | some arg =>
      match lookupTarget res i arg.host arg.port with
      | none => m.log (.poll i none m.now)
      | some target =>
          if sent then
            { m.log (.poll i (some target) m.now) with
              clocks := logtimeSetStart m.clocks arg.name (wall m.now) }
          else m.log (.poll i none m.now)

/-- The source's `handle_poll_event`. -/
def handlePollEvent (wall : ℤ → Reading) (m : Monitor) (i : ℕ) (res : Resolver)
    (sent : Bool) : Monitor :=
  m.sendBip wall i res sent

/-- The source's `handle_err_event`: only a target that is online is reported, and it is
offline before the message is sent. -/
def handleErrEvent (m : Monitor) (i : ℕ) (c : Call) : Monitor :=
  match m.targets[i]? with
  | none => m
  | some target =>
      if target.isonline then
        (m.modifyTarget i fun t => { t with isonline := false }).telegramSendMessage i false
          (m.noticeText target.name false) c
      else m

/-- The source's `reset_error_timer`: the notification comes first, so the timer
runs from the time it is over. -/
def resetErrorTimer (m : Monitor) (i : ℕ) (c : Call) : Monitor :=
  match m.targets[i]? with
  | none => m
  | some target =>
      let m := if target.isonline then m
        else m.telegramSendMessage i true (m.noticeText target.name true) c
      m.modifyTarget i fun t =>
        { t with isonline := true, errEv := t.errEv.del.add m.now m.errTv }

/-- The call of `logtime_set_record` for the answer at `re`. -/
def recordAnswer (wall : ℤ → Reading) (m : Monitor) (i re : ℕ) (name : Text) : Monitor :=
  match logtimeSetRecord m.clocks name (wall m.now) with
  | none => m
  | some interval => m.log (.record i re interval m.now)

/-- The source's `handle_answer`: `src` is the source of the datagram read, none
where `recvfrom` fails. -/
def handleAnswer (wall : ℤ → Reading) (m : Monitor) (src : Option SockAddr) (re : ℕ)
    (res : Resolver) (c : Call) : Monitor :=
  match src with
  | none => m
  | some client =>
      let who := getTarget res m.targets client
      let m := m.log (.answer client who re m.now)
      match who with
      | none => m
      | some i =>
          match m.targets[i]? with
          | none => m
          | some target => (m.resetErrorTimer i c).recordAnswer wall i re target.name

/-! ### What a callback does -/

section Specs

variable {m : Monitor} {i : ℕ} {t : Target} (c : Call)

/-- What a poll adds to the history. -/
lemma sendBip_hist (wall : ℤ → Reading) (ht : m.targets[i]? = some t) (res : Resolver)
    (sent : Bool) :
    ∃ dest, (m.sendBip wall i res sent).hist = m.hist ++ [.poll i dest m.now] := by
  simp only [sendBip, ht]
  split
  · exact ⟨none, rfl⟩
  · split_ifs
    · exact ⟨_, rfl⟩
    · exact ⟨none, rfl⟩

/-- A poll of no target. -/
lemma sendBip_none (wall : ℤ → Reading) (ht : m.targets[i]? = none) (res : Resolver)
    (sent : Bool) : m.sendBip wall i res sent = m := by
  simp only [sendBip, ht]

lemma handleErrEvent_online (ht : m.targets[i]? = some t) (hon : t.isonline = true) :
    m.handleErrEvent i c
      = (m.modifyTarget i fun t => { t with isonline := false }).telegramSendMessage i false
          (m.noticeText t.name false) c := by
  simp [handleErrEvent, ht, hon]

lemma handleErrEvent_offline (ht : m.targets[i]? = some t) (hon : t.isonline = false) :
    m.handleErrEvent i c = m := by
  simp [handleErrEvent, ht, hon]

lemma handleErrEvent_none (ht : m.targets[i]? = none) : m.handleErrEvent i c = m := by
  simp [handleErrEvent, ht]

lemma resetErrorTimer_online (ht : m.targets[i]? = some t) (hon : t.isonline = true) :
    m.resetErrorTimer i c
      = m.modifyTarget i fun t =>
          { t with isonline := true, errEv := t.errEv.del.add m.now m.errTv } := by
  simp [resetErrorTimer, ht, hon]

lemma resetErrorTimer_offline (ht : m.targets[i]? = some t) (hon : t.isonline = false) :
    m.resetErrorTimer i c
      = (m.telegramSendMessage i true (m.noticeText t.name true) c).modifyTarget i fun t =>
          { t with isonline := true, errEv := t.errEv.del.add (m.now + c.took) m.errTv } := by
  simp [resetErrorTimer, ht, hon, telegramSendMessage]

/-- A datagram that no target resolves to is only read. -/
lemma handleAnswer_unattributed (wall : ℤ → Reading) {client : SockAddr} (re : ℕ)
    {res : Resolver} (hw : getTarget res m.targets client = none) :
    m.handleAnswer wall (some client) re res c = m.log (.answer client none re m.now) := by
  simp [handleAnswer, hw]

lemma handleAnswer_attributed (wall : ℤ → Reading) {client : SockAddr} (re : ℕ)
    {res : Resolver} (hw : getTarget res m.targets client = some i)
    (ht : m.targets[i]? = some t) :
    m.handleAnswer wall (some client) re res c
      = ((m.log (.answer client (some i) re m.now)).resetErrorTimer i c).recordAnswer wall i re
          t.name := by
  simp [handleAnswer, hw, ht]

/-- The expiry of an error timer sets no timer. -/
lemma handleErrEvent_errEv (m : Monitor) (i : ℕ) :
    (m.handleErrEvent i c).targets.map Target.errEv = m.targets.map Target.errEv := by
  simp only [handleErrEvent]
  split
  · rfl
  · split_ifs
    · exact modifyTarget_map m i _ fun _ => rfl
    · rfl

/-- The target of an answer, once its timer is reset. -/
lemma resetErrorTimer_target (ht : m.targets[i]? = some t) :
    (m.resetErrorTimer i c).targets[i]? = some { t with
      isonline := true
      errEv := ⟨m.errTv, some ((m.resetErrorTimer i c).now + m.errTv), none⟩ } := by
  cases hon : t.isonline with
  | true =>
      rw [resetErrorTimer_online c ht hon, modifyTarget_same, ht]
      rfl
  | false =>
      rw [resetErrorTimer_offline c ht hon, modifyTarget_same]
      simp only [telegramSendMessage, log_targets, ht]
      rfl

/-! ### What a callback adds to the history -/

lemma handleErrEvent_hist (m : Monitor) (i : ℕ) :
    ∃ l, (m.handleErrEvent i c).hist = m.hist ++ l ∧
      ∀ x ∈ l, ∃ text ok t, x = .notice i false text ok t := by
  cases ht : m.targets[i]? with
  | none => exact ⟨[], by simp [handleErrEvent_none c ht], by simp⟩
  | some t =>
      cases hon : t.isonline with
      | true =>
          rw [handleErrEvent_online c ht hon]
          exact ⟨_, rfl, fun x hx => ⟨_, _, _, List.mem_singleton.mp hx⟩⟩
      | false => exact ⟨[], by simp [handleErrEvent_offline c ht hon], by simp⟩

lemma resetErrorTimer_hist (ht : m.targets[i]? = some t) :
    ∃ l, (m.resetErrorTimer i c).hist = m.hist ++ l ∧
      ∀ x ∈ l, ∃ text ok t, x = .notice i true text ok t := by
  cases hon : t.isonline with
  | true => exact ⟨[], by simp [resetErrorTimer_online c ht hon], by simp⟩
  | false =>
      rw [resetErrorTimer_offline c ht hon]
      exact ⟨_, rfl, fun x hx => ⟨_, _, _, List.mem_singleton.mp hx⟩⟩

lemma recordAnswer_hist (wall : ℤ → Reading) (m : Monitor) (i re : ℕ) (name : Text) :
    ∃ l, (m.recordAnswer wall i re name).hist = m.hist ++ l ∧
      ∀ x ∈ l, ∃ interval t, x = .record i re interval t := by
  simp only [recordAnswer]
  split
  · exact ⟨[], by simp, by simp⟩
  · exact ⟨_, rfl, by simp⟩

/-- The datagram read comes first, then what concerns its target. -/
lemma handleAnswer_hist (wall : ℤ → Reading) (m : Monitor) (client : SockAddr) (re : ℕ)
    (res : Resolver) :
    ∃ l, (m.handleAnswer wall (some client) re res c).hist
        = m.hist ++ .answer client (getTarget res m.targets client) re m.now :: l ∧
      ∀ x ∈ l, ∃ i, getTarget res m.targets client = some i ∧
        ((∃ text ok t, x = .notice i true text ok t) ∨
          ∃ interval t, x = .record i re interval t) := by
  cases hw : getTarget res m.targets client with
  | none => exact ⟨[], by rw [handleAnswer_unattributed c wall re hw]; rfl, by simp⟩
  | some i =>
      obtain ⟨t, ht⟩ : ∃ t, m.targets[i]? = some t :=
        ⟨_, List.getElem?_eq_getElem (getTarget_lt hw)⟩
      rw [handleAnswer_attributed c wall re hw ht]
      obtain ⟨l, hl, hnotice⟩ := resetErrorTimer_hist
        (m := m.log (.answer client (some i) re m.now)) c ht
      obtain ⟨l', hl', hrecord⟩ := recordAnswer_hist wall
        ((m.log (.answer client (some i) re m.now)).resetErrorTimer i c) i re t.name
      refine ⟨l ++ l', by rw [hl', hl]; simp, fun x hx => ⟨i, rfl, ?_⟩⟩
      rcases List.mem_append.mp hx with hx | hx
      · exact .inl (hnotice x hx)
      · exact .inr (hrecord x hx)

end Specs

/-! ### The event machine -/

/-- What may happen to a monitor. -/
inductive Event where
  | tick (d : ℕ)
  | poll (i : ℕ) (res : Resolver) (sent : Bool)
  | err (i : ℕ) (c : Call)
  | recv (src : Option SockAddr) (re : ℕ) (res : Resolver) (c : Call)

/-- An event and its callback; a timer is rescheduled before its callback
runs. -/
def act (wall : ℤ → Reading) (m : Monitor) : Event → Monitor
  | .tick d => { m with now := m.now + d }
  | .poll i res sent =>
      (m.modifyTarget i fun t => { t with pollEv := t.pollEv.fire }).handlePollEvent wall i res sent
  | .err i c =>
      (m.modifyTarget i fun t => { t with errEv := t.errEv.fire }).handleErrEvent i c
  | .recv src re res c => m.handleAnswer wall src re res c

/-- Time passes up to the next deadline, timers fire when they are due, and no call takes
time. -/
def guard (m : Monitor) : Event → Prop
  | .tick d => ∀ t ∈ m.targets, t.pollEv.Spares (m.now + d) ∧ t.errEv.Spares (m.now + d)
  | .poll i _ _ => ∃ t ∈ m.targets[i]?, t.pollEv.Due m.now
  | .err i c => c.took = 0 ∧ ∃ t ∈ m.targets[i]?, t.errEv.Due m.now
  | .recv _ _ _ c => c.took = 0

instance : ∀ (m : Monitor) (ev : Event), Decidable (m.guard ev)
  | m, .tick d => inferInstanceAs
      (Decidable (∀ t ∈ m.targets, t.pollEv.Spares (m.now + d) ∧ t.errEv.Spares (m.now + d)))
  | m, .poll i _ _ => inferInstanceAs (Decidable (∃ t ∈ m.targets[i]?, t.pollEv.Due m.now))
  | m, .err i c => inferInstanceAs
      (Decidable (c.took = 0 ∧ ∃ t ∈ m.targets[i]?, t.errEv.Due m.now))
  | _, .recv _ _ _ c => inferInstanceAs (Decidable (c.took = 0))

/-- The events in which the timers keep their promise. -/
def machine (wall : ℤ → Reading) : Machine Monitor Event where
  guard := guard
  act := act wall

instance (wall : ℤ → Reading) (m : Monitor) (ev : Event) :
    Decidable ((machine wall).guard m ev) :=
  inferInstanceAs (Decidable (m.guard ev))

end Monitor

end Hearthbeat
