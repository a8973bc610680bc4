import Hearthbeat.Network.Datagram
import Hearthbeat.Libevent.Timer
import Hearthbeat.Logtime.Clock

/-!
`monitor.c`, the data: lookups, the struct `target`, the state of a monitor process
with the history of what it has done, and the states that `init` and `main` leave
behind.

Times are nanoseconds since some origin, so the two intervals of the
configuration, whole seconds, are multiples of `seconds 1`.
-/

namespace Hearthbeat

/-- Whole seconds, as nanoseconds. -/
def seconds (n : ℤ) : ℤ := n * 1000000000

/-! ### Lookups -/

/-- The outcomes of the `getaddrinfo` calls made while a callback runs: for the
target at an index, with its host and its port, an address or a failure. -/
abbrev Resolver := ℕ → Text → Text → Option SockAddr

/-! ### Targets -/

/-- A target of the configuration file, `name:host:port`. -/
structure Entry where
  name : Text
  host : Text
  port : Text
  deriving DecidableEq, Repr

/-- The struct `target`. -/
structure Target where
  host : Text
  port : Text
  name : Text
  pollEv : Timer ℤ
  errEv : Timer ℤ
  isonline : Bool

/-- The `newtarget` of `init`: offline, its two events not made yet. -/
def Entry.newTarget (x : Entry) : Target where
  host := x.host
  port := x.port
  name := x.name
  pollEv := Timer.inert
  errEv := Timer.inert
  isonline := false

/-- The strings of a target, which no callback assigns to. -/
def Target.entry (t : Target) : Entry := ⟨t.name, t.host, t.port⟩

/-- What only a poll assigns to. -/
def Target.setup (t : Target) : Entry × Timer ℤ := (t.entry, t.pollEv)

/-- The flag and the error timer of a target. -/
def Target.status (t : Target) : Bool × Timer ℤ := (t.isonline, t.errEv)

/-- The source's `lookup_target`; none is its result -1. -/
def lookupTarget (res : Resolver) (i : ℕ) (host port : Text) : Option SockAddr := res i host port

/-- The loop of `get_target`, from the target with index `i` on. A failed lookup
leaves the zero address in `resolved`, which is compared all the same. -/
def getTargetFrom (res : Resolver) (client : SockAddr) : ℕ → List Target → Option ℕ
  | _, [] => none
  | i, t :: ts =>
      let resolved := (lookupTarget res i t.host t.port).getD SockAddr.zero
      if client = resolved then some i else getTargetFrom res client (i + 1) ts

/-- The first target that resolves to the client, by its index. -/
def getTarget (res : Resolver) (targets : List Target) (client : SockAddr) : Option ℕ :=
  getTargetFrom res client 0 targets

lemma getTargetFrom_bound {res : Resolver} {client : SockAddr} {ts : List Target} {i j : ℕ}
    (h : getTargetFrom res client i ts = some j) : i ≤ j ∧ j < i + ts.length := by
  induction ts generalizing i with
  | nil => cases h
  | cons t ts ih =>
      simp only [getTargetFrom] at h
      split_ifs at h with heq
      · cases h
        simp
      · have hrec := ih h
        rw [List.length_cons]
        omega

lemma getTarget_lt {res : Resolver} {targets : List Target} {client : SockAddr} {j : ℕ}
    (h : getTarget res targets client = some j) : j < targets.length := by
  simpa using (getTargetFrom_bound h).2

lemma getTargetFrom_resolved {res : Resolver} {client : SockAddr} {ts : List Target} {i j : ℕ}
    (h : getTargetFrom res client i ts = some j) :
    ∃ t, ts[j - i]? = some t ∧ (lookupTarget res j t.host t.port).getD SockAddr.zero = client := by
  induction ts generalizing i with
  | nil => cases h
  | cons t ts ih =>
      simp only [getTargetFrom] at h
      split_ifs at h with heq
      · obtain rfl : i = j := by simpa using h
        exact ⟨t, by simp, heq.symm⟩
      · obtain ⟨t', ht', hres⟩ := ih h
        have hlt := (getTargetFrom_bound h).1
        refine ⟨t', ?_, hres⟩
        rw [show j - i = j - (i + 1) + 1 by omega]
        exact ht'

/-- The target that a datagram is attributed to resolves to its source. -/
lemma getTarget_resolved {res : Resolver} {targets : List Target} {client : SockAddr} {j : ℕ}
    (h : getTarget res targets client = some j) :
    ∃ t, targets[j]? = some t ∧
      (lookupTarget res j t.host t.port).getD SockAddr.zero = client :=
  getTargetFrom_resolved h

/-- The attribution of a datagram depends on the strings of the targets only. -/
lemma getTargetFrom_congr (res : Resolver) (client : SockAddr) :
    ∀ {ts ts' : List Target} (i : ℕ), ts.map Target.entry = ts'.map Target.entry →
      getTargetFrom res client i ts = getTargetFrom res client i ts'
  | [], [], _, _ => rfl
  | [], _ :: _, _, h => by simp at h
  | _ :: _, [], _, h => by simp at h
  | t :: ts, t' :: ts', i, h => by
      simp only [List.map_cons, List.cons.injEq, Target.entry, Entry.mk.injEq] at h
      obtain ⟨⟨-, hhost, hport⟩, htail⟩ := h
      have ih := getTargetFrom_congr res client (i + 1) htail
      simp only [getTargetFrom, hhost, hport, ih]

lemma getTarget_congr (res : Resolver) (client : SockAddr) {ts ts' : List Target}
    (h : ts.map Target.entry = ts'.map Target.entry) :
    getTarget res ts client = getTarget res ts' client :=
  getTargetFrom_congr res client 0 h

/-! ### The monitor -/

/-- What one call of `telegram_send_message` comes to: what `send_message`
returns, and how long the call blocks. -/
structure Call where
  ok : Bool
  took : ℕ
  deriving DecidableEq, Repr

/-- What a monitor does, each with its time.

A poll has the address the request went to, none if the lookup or `sendto`
failed. An answer has its source, the target it was attributed to, and `re`, the
place in the history of the poll that it replies to, which the program never
sees. A notice is a call of `telegram_send_message` for a target, a record a call
of `execute_insert_query`. -/
inductive Act where
  | poll (i : ℕ) (dest : Option SockAddr) (t : ℤ)
  | answer (src : SockAddr) (who : Option ℕ) (re : ℕ) (t : ℤ)
  | notice (i : ℕ) (up : Bool) (text : Text) (ok : Bool) (t : ℤ)
  | record (i re : ℕ) (interval : Timespec) (t : ℤ)

/-- The target that an act concerns, if it is an answer or a notice of one. -/
def Act.about : Act → Option ℕ
  | .answer _ who _ _ => who
  | .notice i _ _ _ _ => some i
  | _ => none

/-- Whether an act is a poll. -/
def Act.isPoll : Act → Bool
  | .poll _ _ _ => true
  | _ => false

/-- Whether an act is a notice. -/
def Act.isNotice : Act → Bool
  | .notice _ _ _ _ _ => true
  | _ => false

/-- The globals of a monitor process that its callbacks use, the clock of its
event loop, and its history. -/
structure Monitor where
  now : ℤ
  myname : Text
  pollTv : ℤ
  errTv : ℤ
  targets : List Target
  clocks : List NamedClock
  hist : List Act

/-- The configuration that `init` reads. -/
structure Config where
  myname : Text
  pollInterval : ℤ
  errInterval : ℤ
  targets : List Entry

namespace Monitor

/-- The text of every request. -/
def message : Text := bytes "bip?"

/-- The state `init` leaves. -/
def init (cfg : Config) (t₀ : ℤ) : Monitor where
  now := t₀
  myname := cfg.myname
  pollTv := seconds cfg.pollInterval
  errTv := seconds cfg.errInterval
  targets := cfg.targets.map Entry.newTarget
  clocks := []
  hist := []

/-- The body of the loop of `main`: make the two events and add them. -/
def addTimers (m : Monitor) (t : Target) : Target :=
  { t with pollEv := Timer.inert.add m.now m.pollTv, errEv := Timer.inert.add m.now m.errTv }

/-- The state in which `main` enters the event loop. -/
def start (cfg : Config) (t₀ : ℤ) : Monitor :=
  let m := init cfg t₀
  { m with targets := m.targets.map m.addTimers }

/-- Assign to the target with index `i`, if there is one. -/
def modifyTarget (m : Monitor) (i : ℕ) (f : Target → Target) : Monitor :=
  { m with targets := m.targets.modify i f }

/-- Write down what was done. -/
def log (m : Monitor) (x : Act) : Monitor := { m with hist := m.hist ++ [x] }

section Updates

variable (m : Monitor) (i : ℕ) (f : Target → Target) (x : Act)

@[simp] lemma modifyTarget_now : (m.modifyTarget i f).now = m.now := rfl
@[simp] lemma modifyTarget_myname : (m.modifyTarget i f).myname = m.myname := rfl
@[simp] lemma modifyTarget_errTv : (m.modifyTarget i f).errTv = m.errTv := rfl
@[simp] lemma modifyTarget_pollTv : (m.modifyTarget i f).pollTv = m.pollTv := rfl
@[simp] lemma modifyTarget_clocks : (m.modifyTarget i f).clocks = m.clocks := rfl
@[simp] lemma modifyTarget_hist : (m.modifyTarget i f).hist = m.hist := rfl

lemma modifyTarget_same : (m.modifyTarget i f).targets[i]? = m.targets[i]?.map f := by
  simp [modifyTarget]

lemma modifyTarget_other {i j : ℕ} (h : i ≠ j) :
    (m.modifyTarget i f).targets[j]? = m.targets[j]? := by
  simp [modifyTarget, h]

/-- A part of the targets that the assignment leaves alone. -/
lemma modifyTarget_map {α : Type*} {g : Target → α} (hf : ∀ t, g (f t) = g t) :
    (m.modifyTarget i f).targets.map g = m.targets.map g := by
  refine List.ext_getElem? fun j => ?_
  rw [List.getElem?_map, List.getElem?_map]
  by_cases hij : i = j
  · subst hij
    rw [modifyTarget_same, Option.map_map]
    congr 1
    exact funext hf
  · rw [modifyTarget_other m f hij]

@[simp] lemma log_now : (m.log x).now = m.now := rfl
@[simp] lemma log_myname : (m.log x).myname = m.myname := rfl
@[simp] lemma log_errTv : (m.log x).errTv = m.errTv := rfl
@[simp] lemma log_pollTv : (m.log x).pollTv = m.pollTv := rfl
@[simp] lemma log_targets : (m.log x).targets = m.targets := rfl
@[simp] lemma log_clocks : (m.log x).clocks = m.clocks := rfl
@[simp] lemma log_hist : (m.log x).hist = m.hist ++ [x] := rfl

end Updates

end Monitor

end Hearthbeat
