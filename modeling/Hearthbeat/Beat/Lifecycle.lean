import Hearthbeat.Beat.Server

/-!
The life of the descriptors of `beat`, whatever the calls return and whenever a signal
arrives.

* `Lifecycle`: only open descriptors are closed, every connection is closed once before
  its iteration or the process ends, and the handler closes no connection but an open one.
* `Careful`: connections are accepted and sent to without failure, and a signal arrives
  only while `tcp_sock` says which connection is open (`Interruptible`).
* `lifecycle_of_careful`: then the lifecycle is right; `Running` and `Stopping` are the
  invariant, without and with a handler. `tcp_sock` keeps its value after the `close`,
  so that a signal after the first connection closes it again (`closed_again`).
-/

namespace Hearthbeat.Beat

namespace Act

/-- The act closes the descriptor. -/
def closes (fd : ℤ) : Act → Bool
  | .loop (.close d) | .handler d _ => d = fd
  | _ => false

/-- The act begins an iteration. -/
def isPoll : Act → Bool
  | .loop (.poll _) => true
  | _ => false

/-- The end of an iteration: the next begins, or the process ends. -/
def isEnd (a : Act) : Bool := a.isPoll || decide (a = .exit)

end Act

open Server

/-- The acts of the last iteration, without its `poll`. -/
def iteration (h : List Act) : List Act := (h.reverse.takeWhile fun a => !a.isPoll).reverse

/-- What is asked of a history. -/
structure Lifecycle (sk : Sockets) (h : List Act) : Prop where
  isOpen : Justified (fun pre a => ∀ fd, a.closes fd = true → opened sk pre fd = true) h
  once : Justified (fun pre a => a.isEnd = true → ∀ n : ℕ,
    .loop (.accept (some n)) ∈ iteration pre → (iteration pre).countP (Act.closes n) = 1) h
  own : Justified (fun pre a => ∀ fd, a = .handler fd true → latest (about fd) pre = some true) h

/-- The connection that is accepted and not yet closed. -/
def pending (s : Server) : Option ℤ :=
  match s.pc with
  | .store accepted => accepted.map fun n => (n : ℤ)
  | .send | .closeFailed | .close => some s.tcpSock
  | _ => none

/-- No handler has closed anything, and `tcp_sock` is the connection, or 0 where there is
none. -/
structure Interruptible (sk : Sockets) (s : Server) : Prop where
  handler : ∀ l ∈ s.closing, l = closes sk s.tcpSock
  tcpSock : s.tcpSock = (pending s).getD 0
  ne_zero : pending s ≠ some 0

/-- The condition on a step. -/
def Careful (sk : Sockets) (s : Server) : Event → Prop
  | .accept fd => fd.isSome = true
  | .send ok => ok = true
  | .signal _ => Interruptible sk s
  | _ => True

/-- What holds while no handler runs: the descriptors open are those at the start and the
connection pending, and every other connection of the iteration has been closed. -/
structure Running (sk : Sockets) (s : Server) : Prop where
  lifecycle : Lifecycle sk s.hist
  sent : s.pc ≠ .closeFailed ∧ s.pc ≠ .store none
  isOpen : ∀ fd, opened sk s.hist fd = true ↔ initial sk fd = true ∨ pending s = some fd
  fresh : ∀ fd, pending s = some fd →
    initial sk fd = false ∧ latest (about fd) s.hist = some true
  accepted : ∀ n : ℕ, .loop (.accept (some n)) ∈ iteration s.hist → initial sk n = false ∧
    (iteration s.hist).countP (Act.closes n) + (if pending s = some (n : ℤ) then 1 else 0) = 1
  begun : s.pc = .accept → iteration s.hist = []

/-- What holds while a handler has `l` to close. -/
structure Stopping (sk : Sockets) (h : List Act) (l : List (ℤ × Bool)) : Prop where
  lifecycle : Lifecycle sk h
  nodup : (l.map Prod.fst).Nodup
  isOpen : ∀ x ∈ l, opened sk h x.1 = true ∧ (x.2 = true → latest (about x.1) h = some true)
  accepted : ∀ n : ℕ, .loop (.accept (some n)) ∈ iteration h →
    (iteration h).countP (Act.closes n) + (l.map Prod.fst).count (n : ℤ) = 1

/-- The invariant. -/
def Held (sk : Sockets) (s : Server) : Prop :=
  match s.closing with
  | none => Running sk s
  | some l => Stopping sk s.hist l

section Histories

variable {sk : Sockets} {h : List Act} {a : Act}

lemma iteration_concat :
    iteration (h ++ [a]) = if a.isPoll = true then [] else iteration h ++ [a] := by
  cases ha : a.isPoll <;> simp [iteration, ha]

lemma lifecycle_concat (hlife : Lifecycle sk h)
    (hopen : ∀ fd, a.closes fd = true → opened sk h fd = true)
    (honce : a.isEnd = true → ∀ n : ℕ, .loop (.accept (some n)) ∈ iteration h →
      (iteration h).countP (Act.closes n) = 1)
    (hown : ∀ fd, a = .handler fd true → latest (about fd) h = some true) :
    Lifecycle sk (h ++ [a]) :=
  ⟨justified_concat.mpr ⟨hlife.isOpen, hopen⟩, justified_concat.mpr ⟨hlife.once, honce⟩,
    justified_concat.mpr ⟨hlife.own, hown⟩⟩

lemma opened_concat (fd : ℤ) : opened sk (h ++ [a]) fd = ((about fd a).getD (opened sk h fd)) := by
  rw [opened, latest_concat]
  cases about fd a <;> rfl

lemma closes_iff {fd : ℤ} : a.closes fd = true ↔ about fd a = some false := by
  rcases a with (_ | (_ | n) | _ | d | _ | _) | ⟨d, _⟩ | _ <;> simp [Act.closes, about]

lemma accept_of_mem {n : ℕ} (ha : ∀ fd, about fd a = none)
    (hmem : .loop (.accept (some n)) ∈ iteration h ++ [a]) :
    .loop (.accept (some n)) ∈ iteration h := by
  rcases List.mem_append.mp hmem with hold | hnew
  · exact hold
  · have hn := ha n
    rw [List.mem_singleton.mp hnew |>.symm] at hn
    simp [about] at hn

/-- An act that is about no descriptor ends nothing wrong. -/
lemma Lifecycle.silent (hlife : Lifecycle sk h) (ha : ∀ fd, about fd a = none)
    (honce : a.isEnd = true → ∀ n : ℕ, .loop (.accept (some n)) ∈ iteration h →
      (iteration h).countP (Act.closes n) = 1) :
    Lifecycle sk (h ++ [a]) := by
  refine lifecycle_concat hlife (fun fd hfd => ?_) honce fun fd hfd => ?_
  · simp [closes_iff, ha fd] at hfd
  · have hfd' := ha fd
    simp [hfd, about] at hfd'

end Histories

section Loop

variable {sk : Sockets} {s s' : Server} {a : Act}

lemma Running.silent (hrun : Running sk s) (hhist : s'.hist = s.hist ++ [a])
    (ha : ∀ fd, about fd a = none) (hend : a.isEnd = false) (hpending : pending s' = pending s)
    (hsent : s'.pc ≠ .closeFailed ∧ s'.pc ≠ .store none) (hpc : s'.pc ≠ .accept) :
    Running sk s' := by
  have hpoll : ¬ a.isPoll = true := by simp_all [Act.isEnd]
  have hiter : iteration s'.hist = iteration s.hist ++ [a] := by
    rw [hhist, iteration_concat, if_neg hpoll]
  refine ⟨?_, hsent, fun fd => ?_, fun fd hfd => ?_, fun n hn => ?_, fun h => absurd h hpc⟩
  · rw [hhist]
    exact hrun.lifecycle.silent ha fun h => absurd h (by simp [hend])
  · rw [hhist, opened_concat, ha, Option.getD_none, hrun.isOpen, hpending]
  · rw [hhist, latest_concat_none _ (ha fd)]
    exact hrun.fresh fd (hpending ▸ hfd)
  · have hcloses : a.closes n = false := by
      rw [← Bool.not_eq_true, closes_iff, ha]
      exact nofun
    rw [hiter] at hn ⊢
    rw [List.countP_append, List.countP_singleton, hcloses, hpending]
    simpa using hrun.accepted n (accept_of_mem ha hn)

/-- The loop begins an iteration. -/
lemma Running.poll (hrun : Running sk s) (hpc : s.pc = .poll) (ready : Option Revents) :
    Running sk (act sk s (.poll ready)) := by
  have hpending : pending s = none := by simp [pending, hpc]
  have hiter : iteration (s.hist ++ [.loop (.poll ready)]) = [] := by
    rw [iteration_concat]
    rfl
  have ha : ∀ fd, about fd (.loop (.poll ready)) = none := fun fd => rfl
  have hpending' : pending (act sk s (.poll ready)) = none := by
    simp only [pending, act, branch]
    split_ifs <;> rfl
  refine ⟨?_, ?_, fun fd => ?_, fun fd hfd => ?_, fun n hn => ?_, fun _ => hiter⟩
  · refine hrun.lifecycle.silent ha fun _ n hn => ?_
    simpa [hpending] using (hrun.accepted n hn).2
  · simp only [act, branch]
    split_ifs <;> simp
  · rw [hpending']
    simp only [act]
    rw [opened_concat, ha, Option.getD_none, hrun.isOpen, hpending]
  · rw [hpending'] at hfd
    cases hfd
  · simp only [act, hiter] at hn
    cases hn

lemma Running.accept (hrun : Running sk s) (hpc : s.pc = .accept) {n : ℕ}
    (hn : opened sk s.hist n = false) : Running sk (act sk s (.accept (some n))) := by
  have hinitial : initial sk n = false := by
    by_contra h
    have hopen := (hrun.isOpen n).mpr (.inl (by simpa using h))
    rw [hn] at hopen
    cases hopen
  have hpending : pending s = none := by simp [pending, hpc]
  have hpending' : pending (act sk s (.accept (some n))) = some (n : ℤ) := rfl
  have hiter : iteration (act sk s (.accept (some n))).hist = [.loop (.accept (some n))] := by
    simp only [act]
    rw [iteration_concat, hrun.begun hpc]
    rfl
  refine ⟨?_, ?_, fun fd => ?_, fun fd hfd => ?_, fun m hm => ?_, ?_⟩
  · exact lifecycle_concat hrun.lifecycle (fun fd hfd => by cases hfd) (fun h => by cases h)
      fun fd hfd => by cases hfd
  · simp [act]
  · rw [hpending', Option.some.injEq]
    simp only [act]
    rw [opened_concat, about]
    by_cases hfd : (n : ℤ) = fd
    · simp [hfd]
    · rw [if_neg hfd, Option.getD_none, hrun.isOpen, hpending]
      simp [hfd]
  · obtain rfl : (n : ℤ) = fd := by simpa [hpending'] using hfd
    exact ⟨hinitial, latest_concat_some _ (by simp [about])⟩
  · rw [hiter] at hm ⊢
    obtain rfl : m = n := by simpa using hm
    exact ⟨hinitial, by simp [hpending', Act.closes]⟩
  · simp [act]

/-- The close of the connection. -/
lemma Running.close (hrun : Running sk s) (hpc : s.pc = .close) :
    Running sk (act sk s .close) := by
  have hpending : pending s = some s.tcpSock := by simp [pending, hpc]
  have hpending' : pending (act sk s .close) = none := by simp [pending, act, hpc]
  obtain ⟨hinitial, hlatest⟩ := hrun.fresh s.tcpSock hpending
  refine ⟨?_, ?_, fun fd => ?_, fun fd hfd => ?_, fun n hn => ?_, ?_⟩
  · refine lifecycle_concat hrun.lifecycle (fun fd hfd => ?_) (fun h => by cases h)
      fun fd hfd => by cases hfd
    obtain rfl : s.tcpSock = fd := by simpa [Act.closes] using hfd
    exact (hrun.isOpen _).mpr (.inr hpending)
  · simp [act, hpc]
  · rw [hpending']
    simp only [act]
    rw [opened_concat, about]
    by_cases hfd : s.tcpSock = fd
    · simp [hfd ▸ hinitial, hfd]
    · rw [if_neg hfd, Option.getD_none, hrun.isOpen, hpending, Option.some.injEq]
      simp [hfd]
  · rw [hpending'] at hfd
    cases hfd
  · have hiter : iteration (act sk s .close).hist
        = iteration s.hist ++ [.loop (.close s.tcpSock)] := by
      simp only [act]
      rw [iteration_concat, if_neg (by simp [Act.isPoll])]
    rw [hiter] at hn ⊢
    have hmem : .loop (.accept (some n)) ∈ iteration s.hist := by simpa using hn
    obtain ⟨hfresh, hcount⟩ := hrun.accepted n hmem
    refine ⟨hfresh, ?_⟩
    have hone : [Act.loop (.close s.tcpSock)].countP (Act.closes n)
        = if pending s = some (n : ℤ) then 1 else 0 := by
      simp [List.countP_singleton, Act.closes, hpending]
    have hnone : pending (act sk s .close) ≠ some (n : ℤ) := by simp [hpending']
    rw [List.countP_append, hone, if_neg hnone, Nat.add_zero, hcount]
  · simp [act, hpc]

/-- The store to `tcp_sock` of an accepted connection changes no descriptor. -/
lemma Running.store (hrun : Running sk s) {accepted : Option ℕ} (hpc : s.pc = .store accepted) :
    Running sk (act sk s .store) := by
  obtain ⟨n, rfl⟩ : ∃ n, accepted = some n :=
    Option.ne_none_iff_exists'.mp fun h => hrun.sent.2 (h ▸ hpc)
  have hact : act sk s .store = { s with pc := .send, tcpSock := n } := by
    simp [act, hpc, descriptor]
  have hpending : pending { s with pc := .send, tcpSock := n } = pending s := by
    simp [pending, hpc]
  rw [hact]
  exact ⟨hrun.lifecycle, by simp, fun fd => by rw [hpending]; exact hrun.isOpen fd,
    fun fd hfd => hrun.fresh fd (hpending ▸ hfd),
    fun m hm => by rw [hpending]; exact hrun.accepted m hm, by simp⟩

end Loop

section Handler

variable {sk : Sockets} {s : Server}

lemma map_closes (tcpSock : ℤ) : (closes sk tcpSock).map Prod.fst
    = [(sk.tcpServer : ℤ), tcpSock, (sk.udpServer : ℤ)].filter (· ≠ 0) := by
  simp only [closes, List.filter_cons, List.filter_nil]
  split_ifs <;> rfl

lemma Interruptible.pending_iff (h : Interruptible sk s) (fd : ℤ) :
    pending s = some fd ↔ fd = s.tcpSock ∧ fd ≠ 0 := by
  obtain ⟨-, htcp, hne⟩ := h
  cases hp : pending s with
  | none =>
      rw [hp, Option.getD_none] at htcp
      simp [htcp]
  | some d =>
      rw [hp, Option.getD_some] at htcp
      rw [hp] at hne
      rw [htcp, Option.some.injEq, eq_comm]
      exact ⟨fun hfd => ⟨hfd, fun h0 => hne (by rw [← hfd, h0])⟩, And.left⟩

lemma initial_tcpServer : initial sk sk.tcpServer = true := by simp [initial]

lemma initial_udpServer : initial sk sk.udpServer = true := by simp [initial]

/-- A connection pending is no server socket. -/
lemma Running.nodup_closes (hrun : Running sk s) (h : Interruptible sk s) :
    ((closes sk s.tcpSock).map Prod.fst).Nodup := by
  have hne := sk.ne
  rw [map_closes]
  by_cases hzero : s.tcpSock = 0
  · have hservers : [(sk.tcpServer : ℤ), s.tcpSock, (sk.udpServer : ℤ)].filter (· ≠ 0)
        = [(sk.tcpServer : ℤ), (sk.udpServer : ℤ)].filter (· ≠ 0) := by
      simp [List.filter_cons, hzero]
    rw [hservers]
    exact List.Nodup.filter _ (by simpa using hne)
  · have hfresh := (hrun.fresh _ ((h.pending_iff _).mpr ⟨rfl, hzero⟩)).1
    have htcp : (sk.tcpServer : ℤ) ≠ s.tcpSock := fun heq => by
      rw [← heq, initial_tcpServer] at hfresh
      cases hfresh
    have hudp : s.tcpSock ≠ (sk.udpServer : ℤ) := fun heq => by
      rw [heq, initial_udpServer] at hfresh
      cases hfresh
    exact List.Nodup.filter _ (by simp [htcp, hudp, hne])

/-- A signal that may come finds nothing to close but the server sockets and the
connection pending. -/
lemma Running.signal (hrun : Running sk s) (h : Interruptible sk s) :
    Stopping sk s.hist (closes sk s.tcpSock) := by
  have hnodup := hrun.nodup_closes h
  refine ⟨hrun.lifecycle, hnodup, ?_, fun n hn => ?_⟩
  · rintro ⟨fd, connection⟩ hmem
    simp only [closes, List.mem_filter, List.mem_cons, Prod.mk.injEq, List.not_mem_nil, or_false,
      decide_eq_true_eq] at hmem
    obtain ⟨⟨rfl, rfl⟩ | ⟨rfl, rfl⟩ | ⟨rfl, rfl⟩, hne⟩ := hmem
    · exact ⟨(hrun.isOpen _).mpr (.inl initial_tcpServer), by simp⟩
    · have hpending := (h.pending_iff _).mpr ⟨rfl, hne⟩
      exact ⟨(hrun.isOpen _).mpr (.inr hpending), fun _ => (hrun.fresh _ hpending).2⟩
    · exact ⟨(hrun.isOpen _).mpr (.inl initial_udpServer), by simp⟩
  · obtain ⟨hfresh, hcount⟩ := hrun.accepted n hn
    have htcp : (n : ℤ) ≠ sk.tcpServer := fun heq => by
      rw [heq, initial_tcpServer] at hfresh
      cases hfresh
    have hudp : (n : ℤ) ≠ sk.udpServer := fun heq => by
      rw [heq, initial_udpServer] at hfresh
      cases hfresh
    have hmem : (n : ℤ) ∈ (closes sk s.tcpSock).map Prod.fst ↔ pending s = some (n : ℤ) := by
      rw [map_closes, h.pending_iff]
      simp [htcp, hudp]
    rw [hnodup.count]
    simpa only [hmem] using hcount

/-- The handler closes what comes next. -/
lemma Stopping.close {h : List Act} {fd : ℤ} {connection : Bool} {l : List (ℤ × Bool)}
    (hstop : Stopping sk h ((fd, connection) :: l)) :
    Stopping sk (h ++ [.handler fd connection]) l := by
  obtain ⟨hnot, hnodup⟩ := List.nodup_cons.mp hstop.nodup
  obtain ⟨hopen, hlatest⟩ := hstop.isOpen (fd, connection) List.mem_cons_self
  have hiter : iteration (h ++ [.handler fd connection])
      = iteration h ++ [.handler fd connection] := by
    rw [iteration_concat, if_neg (by simp [Act.isPoll])]
  refine ⟨?_, hnodup, fun x hx => ?_, fun n hn => ?_⟩
  · refine lifecycle_concat hstop.lifecycle (fun d hd => ?_) (fun h => by cases h) fun d hd => ?_
    · obtain rfl : fd = d := by simpa [Act.closes] using hd
      exact hopen
    · obtain ⟨rfl, rfl⟩ : fd = d ∧ connection = true := by simpa using hd
      exact hlatest rfl
  · have hne : fd ≠ x.1 := fun heq => hnot (List.mem_map.mpr ⟨x, hx, heq.symm⟩)
    have habout : about x.1 (.handler fd connection) = none := if_neg hne
    rw [opened_concat, latest_concat_none _ habout, habout, Option.getD_none]
    exact hstop.isOpen x (List.mem_cons_of_mem _ hx)
  · rw [hiter] at hn ⊢
    have hcount := hstop.accepted n (by simpa using hn)
    have hone : [Act.handler fd connection].countP (Act.closes n) = if fd = n then 1 else 0 := by
      simp [List.countP_singleton, Act.closes]
    rw [List.map_cons, List.count_cons] at hcount
    rw [List.countP_append, hone]
    simp only [beq_iff_eq] at hcount
    omega

/-- The handler ends the process. -/
lemma Stopping.exit {h : List Act} (hstop : Stopping sk h []) : Stopping sk (h ++ [.exit]) [] := by
  have hiter : iteration (h ++ [.exit]) = iteration h ++ [.exit] := by
    rw [iteration_concat, if_neg (by simp [Act.isPoll])]
  refine ⟨?_, hstop.nodup, by simp, fun n hn => ?_⟩
  · exact hstop.lifecycle.silent (fun fd => rfl) fun _ n hn => by simpa using hstop.accepted n hn
  · rw [hiter] at hn ⊢
    have hcount := hstop.accepted n (by simpa using hn)
    simpa [List.countP_append, List.countP_singleton, Act.closes] using hcount

end Handler

section Steps

variable {sk : Sockets}

lemma Held.step (s : Server) (e : Event) (h : Held sk s)
    (hg : ((machine sk).restrict (Careful sk)).guard s e) : Held sk (act sk s e) := by
  obtain ⟨⟨-, hguard⟩, hcareful⟩ := hg
  have hrun (hclosing : s.closing = none) : Running sk s := by simpa [Held, hclosing] using h
  -- outside the handler every step keeps `Running`, inside it the handler closes what is left
  cases e with
  | poll ready =>
      have hnext := (hrun hguard.1).poll hguard.2 ready
      simpa [Held, act, hguard.1] using hnext
  | accept fd =>
      obtain ⟨n, rfl⟩ := Option.isSome_iff_exists.mp hcareful
      have hnext := (hrun hguard.1).accept hguard.2.1 (hguard.2.2 n rfl)
      simpa [Held, act, hguard.1] using hnext
  | store =>
      obtain ⟨hclosing, accepted, hpc⟩ := hguard
      have hnext := (hrun hclosing).store hpc
      simpa [Held, act, hclosing, hpc] using hnext
  | send ok =>
      obtain rfl : ok = true := hcareful
      have hnext : Running sk (act sk s (.send true)) :=
        (hrun hguard.1).silent rfl (fun _ => rfl) rfl (by simp [pending, act, hguard.2])
          (by simp [act]) (by simp [act])
      simpa [Held, act, hguard.1] using hnext
  | close =>
      have hpc : s.pc = .close := hguard.2.resolve_left (hrun hguard.1).sent.1
      have hnext := (hrun hguard.1).close hpc
      simpa [Held, act, hguard.1] using hnext
  | recvfrom clientAddr src =>
      have hnext : Running sk (act sk s (.recvfrom clientAddr src)) :=
        (hrun hguard.1).silent rfl (fun _ => rfl) rfl (by simp [pending, act, hguard.2])
          (by simp [act]) (by simp [act])
      simpa [Held, act, hguard.1] using hnext
  | sendto ok =>
      obtain ⟨hclosing, dest, text, hpc⟩ := hguard
      have hact : act sk s (.sendto ok)
          = { s with pc := .poll, hist := s.hist ++ [.loop (.sendto dest text ok)] } := by
        simp [act, hpc]
      have hnext : Running sk (act sk s (.sendto ok)) := by
        rw [hact]
        exact (hrun hclosing).silent rfl (fun _ => rfl) rfl (by simp [pending, hpc]) (by simp)
          (by simp)
      simpa [Held, hact, hclosing] using hnext
  | signal signo =>
      have hinterrupt : Interruptible sk s := hcareful
      cases hclosing : s.closing with
      | none => exact (hrun hclosing).signal hinterrupt
      | some l =>
          have hl := hinterrupt.handler l hclosing
          simpa [Held, act, hclosing, hl] using h
  | handler =>
      -- one more socket is closed, or none is left and the process exits
      obtain ⟨l, hclosing⟩ := Option.isSome_iff_exists.mp hguard
      have hstop : Stopping sk s.hist l := by simpa [Held, hclosing] using h
      cases l with
      | nil => simpa [Held, act, hclosing] using hstop.exit
      | cons x l => simpa [Held, act, hclosing] using hstop.close

lemma running_start (sk : Sockets) : Running sk start := by
  have hlife : Lifecycle sk start.hist := ⟨justified_nil, justified_nil, justified_nil⟩
  refine ⟨hlife, by simp [start], fun fd => ?_, by simp [pending, start],
    by simp [start, iteration], by simp [start]⟩
  simp [opened, start, pending]

end Steps

/-- In every run whose steps are careful, the lifecycle of the descriptors is right. -/
theorem lifecycle_of_careful (sk : Sockets) {es : List Event}
    (h : ((machine sk).restrict (Careful sk)).Allowed start es) :
    Lifecycle sk ((machine sk).exec start es).hist := by
  have hstart : Held sk start := running_start sk
  have hheld : Held sk ((machine sk).exec start es) := h.induction Held.step hstart
  simp only [Held] at hheld
  split at hheld
  · exact hheld.lifecycle
  · exact hheld.lifecycle

/-- The sockets of a process that was started with three descriptors. -/
def sockets : Sockets := ⟨3, 4, by decide, [0, 1, 2]⟩

lemma opened_five :
    ∀ n ∈ some 5, opened sockets [.loop (.poll (some ⟨true, false⟩))] (n : ℕ) = false := by
  intro n hn
  obtain rfl := Option.some.inj hn
  decide

/-- A signal while a connection is open. -/
def interrupted : List Event :=
  [.poll (some ⟨true, false⟩), .accept (some 5), .store, .send true, .signal .sigterm,
    .handler, .handler, .handler, .handler]

lemma allowed_interrupted :
    ((machine sockets).restrict (Careful sockets)).Allowed start interrupted := by
  have hinterrupt : Interruptible sockets ((machine sockets).exec start (interrupted.take 4)) :=
    ⟨nofun, by decide, by decide⟩
  exact ⟨⟨⟨rfl, rfl, rfl⟩, trivial⟩, ⟨⟨rfl, rfl, rfl, opened_five⟩, rfl⟩,
    ⟨⟨rfl, rfl, _, rfl⟩, trivial⟩, ⟨⟨rfl, rfl, rfl⟩, rfl⟩, ⟨⟨rfl, by decide⟩, hinterrupt⟩,
    ⟨⟨rfl, rfl⟩, trivial⟩, ⟨⟨rfl, rfl⟩, trivial⟩, ⟨⟨rfl, rfl⟩, trivial⟩, ⟨⟨rfl, rfl⟩, trivial⟩,
    trivial⟩

theorem lifecycle_interrupted :
    Lifecycle sockets ((machine sockets).exec start interrupted).hist :=
  lifecycle_of_careful sockets allowed_interrupted

/-- A signal after the connection has been closed. -/
def closedBefore : List Event :=
  [.poll (some ⟨true, false⟩), .accept (some 5), .store, .send true, .close, .signal .sigterm,
    .handler, .handler]

/-- The handler closes the connection again. -/
theorem closed_again :
    (machine sockets).Allowed start closedBefore ∧
      ¬ Lifecycle sockets ((machine sockets).exec start closedBefore).hist := by
  refine ⟨?_, fun h => ?_⟩
  · exact ⟨⟨rfl, rfl, rfl⟩, ⟨rfl, rfl, rfl, opened_five⟩, ⟨rfl, rfl, _, rfl⟩, ⟨rfl, rfl, rfl⟩,
      ⟨rfl, rfl, .inr rfl⟩, ⟨rfl, by decide⟩, ⟨rfl, rfl⟩, ⟨rfl, rfl⟩, trivial⟩
  · have hhist : ((machine sockets).exec start closedBefore).hist
        = ((machine sockets).exec start (closedBefore.take 7)).hist ++ [.handler 5 true] := by
      decide
    have hopen := h.isOpen.split hhist 5 (by decide)
    exact absurd hopen (by decide)

end Hearthbeat.Beat
