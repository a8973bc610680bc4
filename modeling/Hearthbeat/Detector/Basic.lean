import Hearthbeat.Machine.Run
import Hearthbeat.Machine.History

/-!
A failure detector for one peer, over any ordered time: it is told of the
peer's answers and of the expiries of one timer, and announces every change of
its opinion.

An answer pushes the deadline to `e` after it and takes the peer online; an
expiry takes the peer offline and sets the next deadline `e` later. A change of
opinion is announced by a notice, which may be lost (`ok = false`) and may block
the detector for `took`. The guard is that of a timer that fires on time: the
clock does not pass a deadline, and a step costs no time.

* `Obs`, `State`, `Event`, `act`, `machine`, `start`: the detector.
* `lastAnswer`, `notices`: what is read off the observations.
-/

namespace Hearthbeat.Detector

/-- What the detector has seen and said: an answer of the peer, or a notice
that the peer is up or down, delivered or not. -/
inductive Obs (T : Type*) where
  | answer (t : T)
  | notice (up ok : Bool) (t : T)

/-- A clock, whether the peer is thought to be up, the deadline of the timer, and what was
observed. -/
structure State (T : Type*) where
  now : T
  online : Bool
  deadline : T
  obs : List (Obs T)

/-- Time passes, an answer comes, or the timer fires; a notice may be delivered or not, and
may take time. -/
inductive Event (T : Type*) where
  | tick (d : T)
  | answer (ok : Bool) (took : T)
  | expire (ok : Bool) (took : T)

namespace Obs

variable {T : Type*}

/-- When it was observed. -/
def time : Obs T → T
  | answer t => t
  | notice _ _ t => t

/-- The time of an answer. -/
def answer? : Obs T → Option T
  | answer t => some t
  | notice _ _ _ => none

/-- What a notice said, and whether it was delivered. -/
def notice? : Obs T → Option (Bool × Bool)
  | answer _ => none
  | notice up ok _ => some (up, ok)

end Obs

section Machine

variable {T : Type*} [AddCommGroup T]

/-- The step of a detector with timeout `e`. -/
def act (e : T) (s : State T) : Event T → State T
  | .tick d => { s with now := s.now + d }
  | .answer ok took =>
      if s.online then
        { s with deadline := s.now + e, obs := s.obs ++ [.answer s.now] }
      else
        { now := s.now + took, online := true, deadline := s.now + took + e,
          obs := s.obs ++ [.answer s.now, .notice true ok s.now] }
  | .expire ok took =>
      if s.online then
        { now := s.now + took, online := false, deadline := s.deadline + e,
          obs := s.obs ++ [.notice false ok s.now] }
      else
        { s with deadline := s.deadline + e }

/-- The peer counts as offline until it answers; the timer runs from the start. -/
def start (e t₀ : T) : State T where
  now := t₀
  online := false
  deadline := t₀ + e
  obs := []

section Steps

variable {e : T} {s : State T} (ok : Bool) (took : T)

lemma act_answer_online (h : s.online = true) :
    act e s (.answer ok took)
      = { s with deadline := s.now + e, obs := s.obs ++ [.answer s.now] } := by
  simp [act, h]

lemma act_answer_offline (h : s.online = false) :
    act e s (.answer ok took)
      = { now := s.now + took, online := true, deadline := s.now + took + e,
          obs := s.obs ++ [.answer s.now, .notice true ok s.now] } := by
  simp [act, h]

lemma act_expire_online (h : s.online = true) :
    act e s (.expire ok took)
      = { now := s.now + took, online := false, deadline := s.deadline + e,
          obs := s.obs ++ [.notice false ok s.now] } := by
  simp [act, h]

lemma act_expire_offline (h : s.online = false) :
    act e s (.expire ok took) = { s with deadline := s.deadline + e } := by
  simp [act, h]

end Steps

variable [LinearOrder T]

/-- The clock does not pass the deadline, the timer does not fire before it, and
no step takes time. -/
def guard (s : State T) : Event T → Prop
  | .tick d => 0 ≤ d ∧ s.now + d ≤ s.deadline
  | .answer _ took => took = 0
  | .expire _ took => took = 0 ∧ s.deadline ≤ s.now

/-- A detector with timeout `e`. -/
def machine (e : T) : Machine (State T) (Event T) where
  guard := guard
  act := act e

end Machine

/-! ### Reading the observations -/

section Readings

variable {T : Type*} (l : List (Obs T)) (t : T) (up ok : Bool)

/-- The time of the last answer. -/
def lastAnswer : Option T := latest Obs.answer? l

/-- The notices, each with its outcome, in order. -/
def notices : List (Bool × Bool) := l.filterMap Obs.notice?

@[simp] lemma lastAnswer_nil : lastAnswer ([] : List (Obs T)) = none := rfl

@[simp] lemma lastAnswer_answer : lastAnswer (l ++ [.answer t]) = some t :=
  latest_concat_some _ rfl

@[simp] lemma lastAnswer_notice : lastAnswer (l ++ [.notice up ok t]) = lastAnswer l :=
  latest_concat_none _ rfl

@[simp] lemma lastAnswer_answer_notice (t' : T) :
    lastAnswer (l ++ [.answer t, .notice up ok t']) = some t := by
  rw [show l ++ [.answer t, .notice up ok t'] = l ++ [.answer t] ++ [.notice up ok t'] by simp,
    lastAnswer_notice, lastAnswer_answer]

@[simp] lemma notices_nil : notices ([] : List (Obs T)) = [] := rfl

@[simp] lemma notices_append (l' : List (Obs T)) :
    notices (l ++ l') = notices l ++ notices l' := List.filterMap_append

@[simp] lemma notices_cons_answer : notices (.answer t :: l) = notices l := rfl

@[simp] lemma notices_cons_notice :
    notices (.notice up ok t :: l) = (up, ok) :: notices l := rfl

end Readings

end Hearthbeat.Detector
