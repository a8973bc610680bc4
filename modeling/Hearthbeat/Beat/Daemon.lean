import Hearthbeat.Machine.Run
import Hearthbeat.Text.Bytes

/-!
`beat.c`, the pidfile: any number of launches on one host, which share the file.

* `Host.machine`: launches, the calls of `main` before the loop, each of which may fail,
  and signals to processes in the loop. An iteration of the loop leaves the file alone.
* `Host.PidfileRight`: the file names the daemon that serves, and is gone with the last.
* `Host.Careful`: a daemon opens the file only while no other holds it, and ends only if
  it leaves no file behind.
* `Host.right_of_careful`: then the file is right. `removepidfile` asks for the
  `fork_pid` of the parent, which never calls it, so no run removes the file
  (`left_behind`).
-/

namespace Hearthbeat.Beat

/-- The next call of a process, in the order of `main`. -/
inductive Phase where
  | fopen
  | fprintf
  | fclose
  | tcpSocket
  | tcpBind
  | listen
  | udpSocket
  | udpBind
  | serving
  | ended
  deriving DecidableEq

namespace Phase

/-- What follows a call that succeeds. -/
def next : Phase → Phase
  | fopen => fprintf
  | fprintf => fclose
  | fclose => tcpSocket
  | tcpSocket => tcpBind
  | tcpBind => listen
  | listen => udpSocket
  | udpSocket => udpBind
  | udpBind => serving
  | serving => serving
  | ended => ended

/-- The phases in which a call may fail. -/
def Starting (p : Phase) : Prop := p ≠ serving ∧ p ≠ ended

end Phase

/-- A process: `arguments.fork`, the global `fork_pid`, and whether it has written the
pidfile. -/
structure Process where
  pid : ℕ
  fork : Bool
  forkPid : ℤ
  phase : Phase
  wrote : Bool
  deriving DecidableEq

namespace Process

/-- The process after the line `fork_pid = arguments.fork ? fork() : 0`. -/
def enter (pid : ℕ) (fork : Bool) (forkPid : ℤ) : Process where
  pid := pid
  fork := fork
  forkPid := forkPid
  phase := if forkPid = 0 then (if fork then .fopen else .tcpSocket) else .ended
  wrote := false

/-- A child that was forked. -/
def isDaemon (p : Process) : Bool := p.fork && decide (p.forkPid = 0)

/-- A daemon that has opened the pidfile and not ended. -/
def Holding (p : Process) : Prop := p.isDaemon = true ∧ p.phase ≠ .fopen ∧ p.phase ≠ .ended

instance : DecidablePred Holding := fun p =>
  inferInstanceAs (Decidable (p.isDaemon = true ∧ p.phase ≠ .fopen ∧ p.phase ≠ .ended))

/-- What a daemon that has opened the pidfile has put into it. -/
def text (p : Process) : Text :=
  if p.phase = .fprintf ∨ p.phase = .fclose then [] else decimal p.pid

end Process

/-- The processes of a host, the pidfile, and the processes that have called `unlink`. -/
structure Host where
  processes : List Process
  pidfile : Option Text
  unlinks : List Process

namespace Host

/-- A launch, with the result of its `fork`; the next call of a process; a signal. -/
inductive Event where
  | launch (fork : Bool) (pid : ℕ) (child : Option ℕ)
  | call (k : ℕ) (ok : Bool)
  | signal (k : ℕ)

/-- The source's `removepidfile`: it looks at `fork_pid`, not at who has written the file. -/
def removepidfile (h : Host) (p : Process) : Host :=
  if p.forkPid ≠ 0 then { h with pidfile := none, unlinks := h.unlinks ++ [p] } else h

/-- The end of a process, in `die` or in `signal_handler`. -/
def finish (h : Host) (k : ℕ) (p : Process) : Host :=
  { h with processes := h.processes.set k { p with phase := .ended } }.removepidfile p

/-- What a call that succeeds does to the pidfile: `fopen` empties it, and `fclose` writes
what `fprintf` has left in the buffer to its beginning. -/
def written (h : Host) (p : Process) : Option Text :=
  match p.phase with
  | .fopen => some []
  | .fclose => h.pidfile.map fun old => decimal p.pid ++ old.drop (decimal p.pid).length
  | _ => h.pidfile

/-- The process after a call that succeeds. -/
def advance (p : Process) : Process :=
  { p with phase := p.phase.next, wrote := p.wrote || decide (p.phase = .fclose) }

/-- A step of the host. A launch that forks leaves two processes, or one if `fork` fails. -/
def act (h : Host) : Event → Host
  | .launch fork pid child =>
      let forkPid : ℤ := if fork then child.elim (-1) fun c => c else 0
      let children := if fork then child.toList.map fun c => Process.enter c true 0 else []
      { h with processes := h.processes ++ Process.enter pid fork forkPid :: children }
  | .call k ok =>
      match h.processes[k]? with
      | none => h
      | some p =>
          if ok then { h with processes := h.processes.set k (advance p), pidfile := h.written p }
          else h.finish k p
  | .signal k =>
      match h.processes[k]? with
      | none => h
      | some p => h.finish k p

/-- A process id that is not in use. -/
def Free (h : Host) (pid : ℕ) : Prop := 0 < pid ∧ ∀ p ∈ h.processes, p.phase ≠ .ended → p.pid ≠ pid

/-- A new process gets a free id; a call is made by a process that is starting, and a signal
reaches one that serves. -/
def guard (h : Host) : Event → Prop
  | .launch _ pid child => h.Free pid ∧ ∀ c ∈ child, h.Free c ∧ c ≠ pid
  | .call k _ => ∃ p ∈ h.processes[k]?, p.phase.Starting
  | .signal k => ∃ p ∈ h.processes[k]?, p.phase = .serving

/-- The processes of a host, in any interleaving. -/
def machine : Machine Host Event where
  guard := guard
  act := act

/-- Nothing has been launched. -/
def start : Host := ⟨[], none, []⟩

/-- What is asked of the pidfile. -/
structure PidfileRight (h : Host) : Prop where
  named : ∀ p, h.processes.filter (fun p => p.isDaemon && decide (p.phase = .serving)) = [p] →
    h.pidfile = some (decimal p.pid)
  removed : (∀ p ∈ h.processes, p.isDaemon = true → p.phase = .ended) → h.pidfile = none
  own : ∀ p ∈ h.unlinks, p.wrote = true

/-- There is no pidfile, or another daemon runs. -/
def Relieved (h : Host) (k : ℕ) : Prop :=
  h.pidfile = none ∨ ∃ q ∈ h.processes.eraseIdx k, q.isDaemon = true ∧ q.phase ≠ .ended

/-- The condition on a step. -/
def Careful (h : Host) : Event → Prop
  | .launch _ _ _ => True
  | .call k true => ∀ p ∈ h.processes[k]?, p.phase = .fopen → ∀ q ∈ h.processes, ¬ q.Holding
  | .call k false | .signal k => ∀ p ∈ h.processes[k]?, p.isDaemon = true → h.Relieved k

section Decidable

instance (p : Phase) : Decidable p.Starting :=
  inferInstanceAs (Decidable (p ≠ .serving ∧ p ≠ .ended))

variable (h : Host)

instance (pid : ℕ) : Decidable (h.Free pid) :=
  inferInstanceAs (Decidable (0 < pid ∧ ∀ p ∈ h.processes, p.phase ≠ .ended → p.pid ≠ pid))

instance (k : ℕ) : Decidable (h.Relieved k) :=
  inferInstanceAs (Decidable (h.pidfile = none ∨
    ∃ q ∈ h.processes.eraseIdx k, q.isDaemon = true ∧ q.phase ≠ .ended))

instance : ∀ e, Decidable (machine.guard h e)
  | .launch _ pid child =>
      inferInstanceAs (Decidable (h.Free pid ∧ ∀ c ∈ child, h.Free c ∧ c ≠ pid))
  | .call k _ => inferInstanceAs (Decidable (∃ p ∈ h.processes[k]?, p.phase.Starting))
  | .signal k => inferInstanceAs (Decidable (∃ p ∈ h.processes[k]?, p.phase = .serving))

instance : ∀ e, Decidable (Careful h e)
  | .launch _ _ _ => isTrue trivial
  | .call k true => inferInstanceAs (Decidable (∀ p ∈ h.processes[k]?, p.phase = .fopen →
      ∀ q ∈ h.processes, ¬ q.Holding))
  | .call k false | .signal k =>
      inferInstanceAs (Decidable (∀ p ∈ h.processes[k]?, p.isDaemon = true → h.Relieved k))

end Decidable

/-- The invariant: at most one daemon holds the pidfile, which contains what it has
written; while there is a file a daemon runs; and nobody has removed it. -/
structure Kept (h : Host) : Prop where
  parents : ∀ p ∈ h.processes, p.phase ≠ .ended → p.forkPid = 0
  openers : ∀ p ∈ h.processes, p.phase = .fopen ∨ p.phase = .fprintf ∨ p.phase = .fclose →
    p.fork = true
  holder : ∀ (i j : ℕ) (p q : Process), h.processes[i]? = some p → h.processes[j]? = some q →
    p.Holding → q.Holding → i = j
  text : ∀ p ∈ h.processes, p.Holding → h.pidfile = some p.text
  live : h.pidfile = none ∨ ∃ p ∈ h.processes, p.isDaemon = true ∧ p.phase ≠ .ended
  unlinks : h.unlinks = []

section Steps

variable {h : Host} {k : ℕ} {p p' : Process}

lemma Kept.right (hkept : Kept h) : PidfileRight h where
  named p hp := by
    have hmem : p ∈ h.processes.filter fun p => p.isDaemon && decide (p.phase = .serving) := by
      simp [hp]
    obtain ⟨hmem, hserving⟩ := List.mem_filter.mp hmem
    obtain ⟨hdaemon, hphase⟩ : p.isDaemon = true ∧ p.phase = .serving := by simpa using hserving
    have htext := hkept.text p hmem ⟨hdaemon, by simp [hphase], by simp [hphase]⟩
    simpa [Process.text, hphase] using htext
  removed hended := by
    rcases hkept.live with hnone | ⟨p, hp, hdaemon, hrun⟩
    · exact hnone
    · exact absurd (hended p hp hdaemon) hrun
  own p hp := by simp [hkept.unlinks] at hp

/-- The other processes stay. -/
lemma mem_set_of_ne {j : ℕ} {q : Process} (hj : h.processes[j]? = some q) (hne : j ≠ k) :
    q ∈ h.processes.set k p' := by
  have hset : (h.processes.set k p')[j]? = some q := by rw [List.getElem?_set_ne hne.symm, hj]
  exact List.mem_of_getElem? hset

/-- One process changes, and perhaps the file. -/
lemma Kept.set (hkept : Kept h) (hk : h.processes[k]? = some p) {file : Option Text}
    (hparents : p'.phase ≠ .ended → p'.forkPid = 0)
    (hopeners : p'.phase = .fopen ∨ p'.phase = .fprintf ∨ p'.phase = .fclose → p'.fork = true)
    (hholder : p'.Holding → file = some p'.text ∧
      ∀ j q, j ≠ k → h.processes[j]? = some q → ¬ q.Holding)
    (hfile : ∀ j q, j ≠ k → h.processes[j]? = some q → q.Holding → file = h.pidfile)
    (hlive : file = none ∨ ∃ q ∈ h.processes.set k p', q.isDaemon = true ∧ q.phase ≠ .ended) :
    Kept { h with processes := h.processes.set k p', pidfile := file } := by
  have hlt : k < h.processes.length := (List.getElem?_eq_some_iff.mp hk).1
  have hget (j : ℕ) (q : Process) (hj : (h.processes.set k p')[j]? = some q) :
      j = k ∧ q = p' ∨ j ≠ k ∧ h.processes[j]? = some q := by
    rw [List.getElem?_set] at hj
    split_ifs at hj with heq
    · exact .inl ⟨heq.symm, by simpa using hj.symm⟩
    · exact .inr ⟨Ne.symm heq, hj⟩
  have hmem (q : Process) (hq : q ∈ h.processes.set k p') :
      q = p' ∨ ∃ j, j ≠ k ∧ h.processes[j]? = some q := by
    obtain ⟨j, hj⟩ := List.mem_iff_getElem?.mp hq
    rcases hget j q hj with ⟨-, rfl⟩ | ⟨hne, hj⟩
    · exact .inl rfl
    · exact .inr ⟨j, hne, hj⟩
  refine ⟨fun q hq => ?_, fun q hq => ?_, fun i j q r hi hj hq hr => ?_, fun q hq hhold => ?_,
    hlive, hkept.unlinks⟩
  · rcases hmem q hq with rfl | ⟨j, -, hj⟩
    · exact hparents
    · exact hkept.parents q (List.mem_of_getElem? hj)
  · rcases hmem q hq with rfl | ⟨j, -, hj⟩
    · exact hopeners
    · exact hkept.openers q (List.mem_of_getElem? hj)
  · rcases hget i q hi with ⟨hik, hqp⟩ | ⟨hik, hi'⟩ <;>
      rcases hget j r hj with ⟨hjk, hrp⟩ | ⟨hjk, hj'⟩
    · exact hik.trans hjk.symm
    · exact absurd hr ((hholder (hqp ▸ hq)).2 j r hjk hj')
    · exact absurd hq ((hholder (hrp ▸ hr)).2 i q hik hi')
    · exact hkept.holder i j q r hi' hj' hq hr
  · rcases hmem q hq with rfl | ⟨j, hne, hj⟩
    · exact (hholder hhold).1
    · have htext := hkept.text q (List.mem_of_getElem? hj) hhold
      exact (hfile j q hne hj hhold).trans htext

/-- The child and the process that does not fork have the `fork_pid` 0, so that no
process that ends calls `unlink`. -/
lemma Kept.finish (hkept : Kept h) (hk : h.processes[k]? = some p) (hrun : p.phase ≠ .ended)
    (hrelieved : p.isDaemon = true → h.Relieved k) : Kept (h.finish k p) := by
  have hzero := hkept.parents p (List.mem_of_getElem? hk) hrun
  have hfinish : h.finish k p
      = { h with
          processes := h.processes.set k { p with phase := .ended }
          pidfile := h.pidfile } := by
    simp [Host.finish, removepidfile, hzero]
  rw [hfinish]
  refine hkept.set hk (fun hne => absurd rfl hne) (fun h => by simp at h)
    (fun hhold => absurd rfl hhold.2.2) (fun _ _ _ _ _ => rfl) ?_
  cases hdaemon : p.isDaemon with
  | true =>
      rcases hrelieved hdaemon with hnone | ⟨q, hq, hrun⟩
      · exact .inl hnone
      · obtain ⟨j, hne, hj⟩ := List.mem_eraseIdx_iff_getElem?.mp hq
        exact .inr ⟨q, mem_set_of_ne hj hne, hrun⟩
  | false =>
      rcases hkept.live with hnone | ⟨q, hq, hqd, hqr⟩
      · exact .inl hnone
      · obtain ⟨j, hj⟩ := List.mem_iff_getElem?.mp hq
        refine .inr ⟨q, mem_set_of_ne hj fun heq => ?_, hqd, hqr⟩
        subst heq
        obtain rfl : p = q := by simpa [hk] using hj
        simp [hdaemon] at hqd

section Calls

variable (hkept : Kept h) (hk : h.processes[k]? = some p)

include hkept hk

/-- The process that advances is a daemon that runs, where it has opened the file. -/
lemma live_advance (hfork : p.fork = true) (hrun : p.phase ≠ .ended)
    (hnext : p.phase.next ≠ .ended) :
    ∃ q ∈ h.processes.set k (advance p), q.isDaemon = true ∧ q.phase ≠ .ended := by
  have hzero := hkept.parents p (List.mem_of_getElem? hk) hrun
  have hlt : k < h.processes.length := (List.getElem?_eq_some_iff.mp hk).1
  exact ⟨advance p, List.mem_set hlt _, by simp [Process.isDaemon, advance, hfork, hzero], hnext⟩

lemma Kept.fopen (hphase : p.phase = .fopen) (halone : ∀ q ∈ h.processes, ¬ q.Holding) :
    Kept { h with processes := h.processes.set k (advance p), pidfile := some [] } := by
  have hmem := List.mem_of_getElem? hk
  have hfork := hkept.openers p hmem (.inl hphase)
  refine hkept.set hk (fun _ => hkept.parents p hmem (by simp [hphase])) (fun _ => hfork)
    (fun _ => ⟨by simp [Process.text, advance, hphase, Phase.next], fun j q _ hj => ?_⟩)
    (fun j q _ hj hq => ?_) (.inr ?_)
  · exact halone q (List.mem_of_getElem? hj)
  · exact absurd hq (halone q (List.mem_of_getElem? hj))
  · exact live_advance hkept hk hfork (by simp [hphase]) (by simp [hphase, Phase.next])

lemma Kept.fclose (hphase : p.phase = .fclose) :
    Kept { h with processes := h.processes.set k (advance p), pidfile := h.written p } := by
  have hmem := List.mem_of_getElem? hk
  have hfork := hkept.openers p hmem (.inr (.inr hphase))
  have hzero := hkept.parents p hmem (by simp [hphase])
  have hhold : p.Holding := ⟨by simp [Process.isDaemon, hfork, hzero], by simp [hphase],
    by simp [hphase]⟩
  have hothers : ∀ j q, j ≠ k → h.processes[j]? = some q → ¬ q.Holding := fun j q hne hj hq =>
    hne (hkept.holder j k q p hj hk hq hhold)
  have hempty : h.pidfile = some [] := by
    rw [hkept.text p hmem hhold]
    simp [Process.text, hphase]
  refine hkept.set hk (fun _ => hzero) (fun _ => hfork) (fun _ => ⟨?_, hothers⟩)
    (fun j q hne hj hq => absurd hq (hothers j q hne hj)) (.inr ?_)
  · simp [written, hphase, hempty, Process.text, advance, Phase.next]
  · exact live_advance hkept hk hfork (by simp [hphase]) (by simp [hphase, Phase.next])

/-- The other calls leave the file and what the process has put into it. -/
lemma Kept.next (hstarting : p.phase.Starting) (hopen : p.phase ≠ .fopen)
    (hclose : p.phase ≠ .fclose) :
    Kept { h with processes := h.processes.set k (advance p), pidfile := h.pidfile } := by
  have hmem := List.mem_of_getElem? hk
  have hnext : p.phase.next ≠ .ended ∧
      (p.phase.next = .fopen ∨ p.phase.next = .fprintf ∨ p.phase.next = .fclose →
        p.phase = .fprintf) := by
    cases hp : p.phase <;> simp_all [Phase.next, Phase.Starting]
  have htext : (advance p).text = p.text := by
    cases hp : p.phase <;> simp_all [Process.text, advance, Phase.next, Phase.Starting]
  have hhold : (advance p).Holding → p.Holding := fun hnew => ⟨hnew.1, hopen, hstarting.2⟩
  refine hkept.set hk (fun _ => hkept.parents p hmem hstarting.2)
    (fun hphase => hkept.openers p hmem (.inr (.inl (hnext.2 hphase))))
    (fun hnew => ⟨?_, fun j q hne hj hq => ?_⟩) (fun _ _ _ _ _ => rfl) ?_
  · rw [htext]
    exact hkept.text p hmem (hhold hnew)
  · exact hne (hkept.holder j k q p hj hk hq (hhold hnew))
  · rcases hkept.live with hnone | ⟨q, hq, hdaemon, hrun⟩
    · exact .inl hnone
    · obtain ⟨j, hj⟩ := List.mem_iff_getElem?.mp hq
      by_cases hjk : j = k
      · subst hjk
        obtain rfl : p = q := by simpa [hk] using hj
        have hfork : p.fork = true := by simp_all [Process.isDaemon]
        exact .inr (live_advance hkept hk hfork hrun hnext.1)
      · exact .inr ⟨q, mem_set_of_ne hj hjk, hdaemon, hrun⟩

end Calls

lemma Kept.append (hkept : Kept h) {new : List Process}
    (hnew : ∀ p ∈ new, (p.phase ≠ .ended → p.forkPid = 0) ∧
      (p.phase = .fopen ∨ p.phase = .fprintf ∨ p.phase = .fclose → p.fork = true) ∧ ¬ p.Holding) :
    Kept { h with processes := h.processes ++ new } := by
  have hold (i : ℕ) (p : Process) (hi : (h.processes ++ new)[i]? = some p) (hp : p.Holding) :
      h.processes[i]? = some p := by
    rw [List.getElem?_append] at hi
    split_ifs at hi
    · exact hi
    · exact absurd hp (hnew p (List.mem_of_getElem? hi)).2.2
  refine ⟨fun p hp => ?_, fun p hp => ?_, fun i j p q hi hj hp hq => ?_, fun p hp hhold => ?_, ?_,
    hkept.unlinks⟩
  · exact (List.mem_append.mp hp).elim (hkept.parents p) fun hp => (hnew p hp).1
  · exact (List.mem_append.mp hp).elim (hkept.openers p) fun hp => (hnew p hp).2.1
  · exact hkept.holder i j p q (hold i p hi hp) (hold j q hj hq) hp hq
  · obtain ⟨i, hi⟩ := List.mem_iff_getElem?.mp hp
    exact hkept.text p (List.mem_of_getElem? (hold i p hi hhold)) hhold
  · exact hkept.live.imp id fun ⟨p, hp, hrun⟩ => ⟨p, List.mem_append_left _ hp, hrun⟩

/-- The process of a `fork_pid` enters `main` where it is 0, and else ends. -/
lemma enter_spec {pid : ℕ} {fork : Bool} {forkPid : ℤ} :
    ((Process.enter pid fork forkPid).phase ≠ .ended → forkPid = 0) ∧
      ((Process.enter pid fork forkPid).phase = .fopen ∨
        (Process.enter pid fork forkPid).phase = .fprintf ∨
        (Process.enter pid fork forkPid).phase = .fclose → fork = true) ∧
      ¬ (Process.enter pid fork forkPid).Holding := by
  by_cases hzero : forkPid = 0 <;> cases fork <;>
    simp [Process.enter, Process.Holding, Process.isDaemon, hzero]

lemma Kept.launch (hkept : Kept h) (fork : Bool) (pid : ℕ) (child : Option ℕ) :
    Kept (h.act (.launch fork pid child)) := by
  refine hkept.append fun p hp => ?_
  rcases List.mem_cons.mp hp with rfl | hp
  · exact enter_spec
  · cases fork with
    | false => simp at hp
    | true =>
        obtain ⟨c, -, rfl⟩ : ∃ c ∈ child.toList, Process.enter c true 0 = p := by simpa using hp
        exact enter_spec

lemma Kept.step (h : Host) (e : Event) (hkept : Kept h)
    (hg : (machine.restrict Careful).guard h e) : Kept (h.act e) := by
  obtain ⟨hguard, hcareful⟩ := hg
  cases e with
  | launch fork pid child => exact hkept.launch fork pid child
  | call k ok =>
      obtain ⟨p, hmem, hstarting⟩ := hguard
      have hk : h.processes[k]? = some p := hmem
      cases ok with
      | false =>
          have hact : h.act (.call k false) = h.finish k p := by simp [act, hk]
          rw [hact]
          exact hkept.finish hk hstarting.2 (hcareful p hk)
      | true =>
          have hact : h.act (.call k true)
              = { h with processes := h.processes.set k (advance p), pidfile := h.written p } := by
            simp [act, hk]
          rw [hact]
          by_cases hopen : p.phase = .fopen
          · simpa only [written, hopen] using hkept.fopen hk hopen (hcareful p hk hopen)
          · by_cases hclose : p.phase = .fclose
            · exact hkept.fclose hk hclose
            · have hfile : h.written p = h.pidfile := by
                cases hp : p.phase <;> simp_all [written]
              rw [hfile]
              exact hkept.next hk hstarting hopen hclose
  | signal k =>
      obtain ⟨p, hmem, hserving⟩ := hguard
      have hk : h.processes[k]? = some p := hmem
      have hact : h.act (.signal k) = h.finish k p := by simp [act, hk]
      rw [hact]
      exact hkept.finish hk (by simp [hserving]) (hcareful p hk)

lemma kept_start : Kept start := by
  refine ⟨?_, ?_, ?_, ?_, .inl rfl, rfl⟩ <;> simp [start]

end Steps

/-- In every run whose steps are careful, the pidfile is right. -/
theorem right_of_careful {es : List Event} (h : (machine.restrict Careful).Allowed start es) :
    PidfileRight (machine.exec start es) :=
  (h.induction Kept.step kept_start).right

/-- A daemon is launched and reaches the loop, another is launched, the first is stopped,
and the second opens the pidfile. -/
def succession : List Event :=
  .launch true 100 (some 101) :: List.replicate 8 (.call 1 true)
    ++ [.launch true 102 (some 103), .signal 1] ++ List.replicate 8 (.call 3 true)

theorem right_succession : PidfileRight (machine.exec start succession) :=
  right_of_careful (by decide)

/-- A daemon is launched and stopped. -/
def stopped : List Event :=
  .launch true 100 (some 101) :: List.replicate 8 (.call 1 true) ++ [.signal 1]

/-- Its pidfile stays. -/
theorem left_behind :
    machine.Allowed start stopped ∧
      (machine.exec start stopped).pidfile = some (bytes "101") ∧
      ¬ PidfileRight (machine.exec start stopped) := by
  have hfile : (machine.exec start stopped).pidfile = some (bytes "101") := by decide
  refine ⟨by decide, hfile, fun h => ?_⟩
  have hnone := h.removed (by decide)
  rw [hfile] at hnone
  cases hnone

end Host

end Hearthbeat.Beat
