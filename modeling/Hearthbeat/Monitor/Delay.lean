import Hearthbeat.Monitor.Polls

/-!
What a notification does to the latency that is measured behind it.

`handle_answer` notifies first and reads the clock for `arrival_time` afterwards, so the
time that the notification takes is part of the interval (`handed_eq`).

* `same_interval_iff`: two runs that differ in the flag of the target and in the call of
  `telegram_send_message` hand over the same interval exactly if they hand over none, or
  the clock reads the same behind both calls.
* `slow_notice`: an answer that took one second is logged with the 20 seconds that its
  notification took.
-/

namespace Hearthbeat.Monitor

/-- The interval of a record. -/
def intervalOf : Act → Option Timespec
  | .record _ _ interval _ => some interval
  | _ => none

/-- The intervals that a call of `handle_answer` hands to `execute_insert_query`. -/
def handed (wall : ℤ → Reading) (m : Monitor) (client : SockAddr) (re : ℕ) (res : Resolver)
    (c : Call) : List Timespec :=
  ((m.handleAnswer wall (some client) re res c).hist.drop m.hist.length).filterMap intervalOf

/-- How long `reset_error_timer` takes for a target with that flag. -/
def delay (online : Bool) (c : Call) : ℕ := if online then 0 else c.took

/-- The same state but for the flag of a target. -/
def setOnline (m : Monitor) (i : ℕ) (online : Bool) : Monitor :=
  m.modifyTarget i fun t => { t with isonline := online }

section Delay

variable {m : Monitor} {i : ℕ} {t : Target} (c : Call)

lemma resetErrorTimer_now (ht : m.targets[i]? = some t) :
    (m.resetErrorTimer i c).now = m.now + delay t.isonline c := by
  cases hon : t.isonline with
  | true =>
      rw [resetErrorTimer_online c ht hon, modifyTarget_now]
      simp [delay]
  | false =>
      rw [resetErrorTimer_offline c ht hon, modifyTarget_now]
      rfl

/-- The interval ends behind the notification. -/
lemma handed_eq (wall : ℤ → Reading) {client : SockAddr} {res : Resolver}
    (hw : getTarget res m.targets client = some i) (ht : m.targets[i]? = some t) (re : ℕ) :
    m.handed wall client re res c
      = ((departure m.clocks t.name).map fun d =>
          timespecDiff d.toTimespec (wall (m.now + delay t.isonline c)).toTimespec).toList := by
  set m₁ := m.log (.answer client (some i) re m.now) with hm₁
  have ht₁ : m₁.targets[i]? = some t := ht
  obtain ⟨l, hl, hnotice⟩ := resetErrorTimer_hist c ht₁
  have hclocks : (m₁.resetErrorTimer i c).clocks = m.clocks :=
    (Passive.resetErrorTimer m₁ i c).clocks
  have hnow : (m₁.resetErrorTimer i c).now = m.now + delay t.isonline c :=
    resetErrorTimer_now c ht₁
  -- neither the answer nor a notice of it has an interval
  have hnone : (Act.answer client (some i) re m.now :: l).filterMap intervalOf = [] := by
    refine List.filterMap_eq_nil_iff.mpr fun x hx => ?_
    rcases List.mem_cons.mp hx with rfl | hx
    · rfl
    · obtain ⟨text, ok, τ, rfl⟩ := hnotice x hx
      rfl
  have hhist : (m₁.resetErrorTimer i c).hist
      = m.hist ++ (.answer client (some i) re m.now :: l) := by
    rw [hl, hm₁, log_hist, List.append_assoc, List.singleton_append]
  rw [handed, handleAnswer_attributed c wall re hw ht, ← hm₁, recordAnswer, logtimeSetRecord_eq,
    hclocks, hnow]
  cases departure m.clocks t.name with
  | none =>
      show ((m₁.resetErrorTimer i c).hist.drop m.hist.length).filterMap intervalOf = []
      rw [hhist, List.drop_left, hnone]
  | some d =>
      simp only [Option.map_some, log_hist]
      rw [hhist, List.append_assoc, List.drop_left, List.filterMap_append, hnone]
      rfl

end Delay

/-- Two runs of `handle_answer` on one datagram hand over the same interval exactly if no
departure is kept for the name, or the clock reads the same behind both notifications. -/
theorem same_interval_iff (wall : ℤ → Reading) {m : Monitor} {client : SockAddr}
    {res : Resolver} {i : ℕ} {t : Target} (hw : getTarget res m.targets client = some i)
    (ht : m.targets[i]? = some t) (re : ℕ) (online : Bool) (c c' : Call) :
    (m.setOnline i online).handed wall client re res c' = m.handed wall client re res c ↔
      departure m.clocks t.name = none ∨
        wall (m.now + delay online c') = wall (m.now + delay t.isonline c) := by
  have hw' : getTarget res (m.setOnline i online).targets client = some i := by
    rw [← hw]
    exact getTarget_congr res client (modifyTarget_map m i _ fun _ => rfl)
  have ht' : (m.setOnline i online).targets[i]? = some { t with isonline := online } := by
    rw [setOnline, modifyTarget_same, ht, Option.map_some]
  rw [handed_eq c wall hw ht re, handed_eq c' wall hw' ht' re]
  cases hd : departure m.clocks t.name with
  | none => simp [setOnline, hd]
  | some d => simp [setOnline, hd, timespecDiff_inj]

/-- A request was sent to `pi`, which is offline, and a second has passed. -/
def polledPi : Monitor :=
  (machine Reading.ofNanos).exec (start polledOften 0)
    [.tick 5000000000, .poll 0 piResolver true, .tick 1000000000]

/-- A call that takes 20 seconds. -/
def slowCall : Call := ⟨true, 20000000000⟩

theorem same_interval_slowCall :
    (polledPi.setOnline 0 true).handed Reading.ofNanos piAddr 0 piResolver slowCall
        = polledPi.handed Reading.ofNanos piAddr 0 piResolver slowCall ↔
      departure polledPi.clocks (bytes "pi") = none ∨
        Reading.ofNanos (polledPi.now + delay true slowCall)
          = Reading.ofNanos (polledPi.now + delay false slowCall) :=
  same_interval_iff Reading.ofNanos (i := 0) (t := polledPi.targets.get ⟨0, by decide⟩) rfl rfl 0
    true slowCall slowCall

/-- The answer of a target that is back is logged with the time of its notification. -/
theorem slow_notice :
    polledPi.handed Reading.ofNanos piAddr 0 piResolver slowCall = [⟨21, 0⟩] ∧
      (polledPi.setOnline 0 true).handed Reading.ofNanos piAddr 0 piResolver slowCall
        = [⟨1, 0⟩] ∧
      (polledPi.setOnline 0 true).handed Reading.ofNanos piAddr 0 piResolver slowCall
        ≠ polledPi.handed Reading.ofNanos piAddr 0 piResolver slowCall := by
  have hslow : polledPi.handed Reading.ofNanos piAddr 0 piResolver slowCall = [⟨21, 0⟩] := by
    decide
  have hquick : (polledPi.setOnline 0 true).handed Reading.ofNanos piAddr 0 piResolver slowCall
      = [⟨1, 0⟩] := by
    decide
  exact ⟨hslow, hquick, by rw [hslow, hquick]; decide⟩

end Hearthbeat.Monitor
