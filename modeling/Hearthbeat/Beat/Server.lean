import Hearthbeat.Beat.Loop
import Hearthbeat.Machine.History

/-!
`beat.c`, the serving loop one system call after the other, and `signal_handler`,
which may interrupt it between any two of them.

* `Server.machine`: the calls of the loop, the store to the global `tcp_sock`, the
  arrival of signals, and the calls of the handler, which ends the process.
* `opened`: the descriptors that are open, read off the history.
* `exec_trace`: without signals, the machine makes the calls of `iterate`, iteration
  after iteration.
-/

namespace Hearthbeat.Beat

/-- The two server sockets, and the descriptors that are open beside them when the loop
is entered. -/
structure Sockets where
  tcpServer : ℕ
  udpServer : ℕ
  ne : tcpServer ≠ udpServer
  others : List ℕ

/-- What the loop does next. Between `accept` and the store its result is nowhere. -/
inductive Pc where
  | poll
  | accept
  | store (accepted : Option ℕ)
  | send
  | closeFailed
  | close
  | recvfrom
  | sendto (dest : SockAddr) (text : Text)

/-- The signals that have a handler. -/
inductive Signo where
  | sigint
  | sigterm
  deriving DecidableEq

/-- What happened: a call of the loop, a `close` in the handler, of the connection or of
a server socket, or the `exit` at its end. -/
inductive Act where
  | loop (c : Call)
  | handler (fd : ℤ) (connection : Bool)
  | exit
  deriving DecidableEq

/-- The process: where the loop is, its `revents`, the global `tcp_sock`, the signals whose
handlers have been entered, what the last of them still has to close, and the history. -/
structure Server where
  pc : Pc
  revents : Revents
  tcpSock : ℤ
  handling : List Signo
  closing : Option (List (ℤ × Bool))
  exited : Bool
  hist : List Act

namespace Server

variable (sk : Sockets)

/-- What `signal_handler` closes. -/
def closes (tcpSock : ℤ) : List (ℤ × Bool) :=
  [((sk.tcpServer : ℤ), false), (tcpSock, true), ((sk.udpServer : ℤ), false)].filter (·.1 ≠ 0)

/-- A step of the loop, with the result of its call, or of a handler. -/
inductive Event where
  | poll (ready : Option Revents)
  | accept (fd : Option ℕ)
  | store
  | send (ok : Bool)
  | close
  | recvfrom (clientAddr : SockAddr) (src : Option SockAddr)
  | sendto (ok : Bool)
  | signal (signo : Signo)
  | handler

/-- The branch that the loop takes. -/
def branch (revents : Revents) : Pc :=
  if revents.tcp then .accept else if revents.udp then .recvfrom else .poll

/-- A step of the loop or of a handler, with the calls that it makes. A `send` that fails makes
the loop close the connection once more. -/
def act (s : Server) : Event → Server
  | .poll ready =>
      let revents := ready.getD s.revents
      { s with pc := branch revents, revents := revents, hist := s.hist ++ [.loop (.poll ready)] }
  | .accept fd => { s with pc := .store fd, hist := s.hist ++ [.loop (.accept fd)] }
  | .store =>
      match s.pc with
      | .store accepted => { s with pc := .send, tcpSock := descriptor accepted }
      | _ => s
  | .send ok =>
      { s with
        pc := if ok then .close else .closeFailed
        hist := s.hist ++ [.loop (.send s.tcpSock message ok)] }
  | .close =>
      { s with
        pc := match s.pc with
          | .closeFailed => .close
          | _ => .poll
        hist := s.hist ++ [.loop (.close s.tcpSock)] }
  | .recvfrom clientAddr src =>
      let (dest, text) := udpBranch clientAddr src
      { s with pc := .sendto dest text, hist := s.hist ++ [.loop (.recvfrom src)] }
  | .sendto ok =>
      match s.pc with
      | .sendto dest text =>
          { s with pc := .poll, hist := s.hist ++ [.loop (.sendto dest text ok)] }
      | _ => s
  | .signal signo =>
      { s with handling := signo :: s.handling, closing := some (closes sk s.tcpSock) }
  | .handler =>
      match s.closing with
      | none => s
      | some [] => { s with exited := true, hist := s.hist ++ [.exit] }
      | some ((fd, connection) :: l) =>
          { s with closing := some l, hist := s.hist ++ [.handler fd connection] }

/-! ### Descriptors -/

/-- What an act does to a descriptor: true where it opens it, false where it closes it. -/
def about (fd : ℤ) : Act → Option Bool
  | .loop (.accept (some n)) => if (n : ℤ) = fd then some true else none
  | .loop (.close d) | .handler d _ => if d = fd then some false else none
  | _ => none

/-- The descriptors that are open when the loop is entered. -/
def initial (fd : ℤ) : Bool :=
  decide (fd = sk.tcpServer) || decide (fd = sk.udpServer) || sk.others.any fun n => (n : ℤ) = fd

/-- A descriptor is open after a history. -/
def opened (h : List Act) (fd : ℤ) : Bool := (latest (about fd) h).getD (initial sk fd)

/-- The loop stands at the call that it makes, unless a handler runs; `accept` returns a
descriptor that is not in use; and a signal is blocked in its own handler. -/
def guard (s : Server) (e : Event) : Prop :=
  s.exited = false ∧
    match e with
    | .poll _ => s.closing = none ∧ s.pc = .poll
    | .accept fd => s.closing = none ∧ s.pc = .accept ∧ ∀ n ∈ fd, opened sk s.hist n = false
    | .store => s.closing = none ∧ ∃ accepted, s.pc = .store accepted
    | .send _ => s.closing = none ∧ s.pc = .send
    | .close => s.closing = none ∧ (s.pc = .closeFailed ∨ s.pc = .close)
    | .recvfrom _ _ => s.closing = none ∧ s.pc = .recvfrom
    | .sendto _ => s.closing = none ∧ ∃ dest text, s.pc = .sendto dest text
    | .signal signo => signo ∉ s.handling
    | .handler => s.closing.isSome = true

/-- The loop of a server, interrupted anywhere by its handlers. -/
def machine : Machine Server Event where
  guard := guard sk
  act := act sk

/-- The loop is entered; no connection has been accepted, so `tcp_sock` is 0. -/
def start : Server := ⟨.poll, .zero, 0, [], none, false, []⟩

/-! ### Iterations without signals -/

/-- The steps of an iteration. -/
def steps (s : Loop) (r : Results) : List Event :=
  let revents := r.poll.getD s.revents
  .poll r.poll ::
    (if revents.tcp then
      [.accept r.accept, .store, .send r.send] ++ (if r.send then [] else [.close]) ++ [.close]
    else if revents.udp then [.recvfrom r.clientAddr r.recvfrom, .sendto r.sendto]
    else [])

/-- The server is between two iterations of the loop. -/
structure Follows (l : Loop) (s : Server) : Prop where
  pc : s.pc = .poll
  revents : s.revents = l.revents
  hist : s.hist = l.iterations.flatten.map .loop

variable {sk}

lemma follows_step {l : Loop} {s : Server} (h : Follows l s) (r : Results) :
    Follows (Loop.machine.act l r) ((machine sk).exec s (steps l r)) := by
  obtain ⟨hpc, hrevents, hhist⟩ := h
  have hpoll : r.poll.getD s.revents = r.poll.getD l.revents := by rw [hrevents]
  cases htcp : (r.poll.getD l.revents).tcp with
  | true =>
      cases hsend : r.send <;>
        constructor <;> simp [steps, machine, act, Loop.machine, Loop.act, iterate, tcpCalls,
          branch, hpoll, htcp, hsend, hhist]
  | false =>
      cases hudp : (r.poll.getD l.revents).udp <;>
        constructor <;> simp [steps, machine, act, Loop.machine, Loop.act, iterate, udpCalls,
          udpBranch, branch, hpoll, htcp, hudp, hhist]

/-- Without signals, the steps are the iterations. -/
theorem exec_trace {l : Loop} {s : Server} (h : Follows l s) (rs : List Results) :
    Follows (Loop.machine.exec l rs) ((machine sk).exec s (Loop.machine.trace steps l rs)) := by
  induction rs generalizing l s with
  | nil => exact h
  | cons r rs ih =>
      rw [Machine.trace, Machine.exec_append]
      exact ih (follows_step h r)

end Server

end Hearthbeat.Beat
