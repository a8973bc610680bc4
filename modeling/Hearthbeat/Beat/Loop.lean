import Hearthbeat.Beat.Reply
import Hearthbeat.Machine.Run

/-!
`beat.c`, the serving loop, one iteration after the other: the system calls that it
makes, given their results.

* `iterate`: an iteration. A `poll` that fails leaves the `revents` of the iteration
  before, and no failed `accept`, `recvfrom` or `send` ends the branch it is in.
* `Answered`: each request of an iteration is answered once, and nothing else is sent.
* `Heard`: the iteration reads only what `poll` has just reported, and reads it.
* `answered_iff`: in a run every iteration is `Answered` exactly if every one is
  `Heard`; an aborted connection is sent the message all the same (`sent_to_nobody`).
-/

namespace Hearthbeat.Beat

/-- The bit `POLLIN` of the two `revents`. -/
structure Revents where
  tcp : Bool
  udp : Bool
  deriving DecidableEq

/-- What `memset` leaves. -/
def Revents.zero : Revents := ⟨false, false⟩

/-- A system call of the loop, with its result; none is a failure. -/
inductive Call where
  | poll (ready : Option Revents)
  | accept (fd : Option ℕ)
  | send (fd : ℤ) (text : Text) (ok : Bool)
  | close (fd : ℤ)
  | recvfrom (src : Option SockAddr)
  | sendto (dest : SockAddr) (text : Text) (ok : Bool)
  deriving DecidableEq

/-- The results of the calls of an iteration, and what the stack holds in its
`client_addr`. The result of `close` decides no more than a message to the user. -/
structure Results where
  poll : Option Revents
  accept : Option ℕ
  send : Bool
  recvfrom : Option SockAddr
  sendto : Bool
  clientAddr : SockAddr

/-- The result of `accept` as an `int`. -/
def descriptor (accepted : Option ℕ) : ℤ := accepted.elim (-1) fun fd => fd

/-- The branch of a connection. -/
def tcpCalls (r : Results) : List Call :=
  let tcpSock := descriptor r.accept
  [.accept r.accept, .send tcpSock message r.send]
    ++ (if r.send then [] else [.close tcpSock]) ++ [.close tcpSock]

/-- The branch of a datagram. -/
def udpCalls (r : Results) : List Call :=
  let (dest, text) := udpBranch r.clientAddr r.recvfrom
  [.recvfrom r.recvfrom, .sendto dest text r.sendto]

/-- An iteration: the `revents` it leaves, and its calls. -/
def iterate (revents : Revents) (r : Results) : Revents × List Call :=
  let revents := r.poll.getD revents
  let calls := if revents.tcp then tcpCalls r else if revents.udp then udpCalls r else []
  (revents, .poll r.poll :: calls)

/-- The loop so far: the `revents`, and the calls of every iteration. -/
structure Loop where
  revents : Revents
  iterations : List (List Call)

namespace Loop

/-- The next iteration, with the results of its calls. -/
def act (s : Loop) (r : Results) : Loop :=
  ⟨(iterate s.revents r).1, s.iterations ++ [(iterate s.revents r).2]⟩

/-- The loop goes on for ever, whatever its calls return. -/
def machine : Machine Loop Results where
  guard _ _ := True
  act := act

/-- The loop is entered with the `revents` zeroed. -/
def start : Loop := ⟨.zero, []⟩

end Loop

/-! ### Requests and answers -/

/-- The `send`s among the calls. -/
def sends (calls : List Call) : List (ℤ × Text) :=
  calls.filterMap fun
    | .send fd text _ => some (fd, text)
    | _ => none

/-- The `sendto`s among the calls. -/
def sendtos (calls : List Call) : List (SockAddr × Text) :=
  calls.filterMap fun
    | .sendto dest text _ => some (dest, text)
    | _ => none

/-- What `poll` reports as readable. -/
def readable (ready : Option Revents) : Bool := ready.any fun r => r.tcp || r.udp

/-- The calls that find no request: a failure, or a `poll` that reports nothing. -/
def Call.idle : Call → Bool
  | .poll ready => !readable ready
  | .accept fd => fd.isNone
  | .recvfrom src => src.isNone
  | _ => false

/-- In the calls of an iteration, a datagram received is followed by one `sendto`, to
its source; a connection accepted is followed by one `send`, on its socket; and nothing
is sent where there was no request. -/
structure Answered (calls : List Call) : Prop where
  udp : ∀ src post, .recvfrom (some src) :: post <:+ calls → sendtos post = [(src, message)]
  tcp : ∀ (fd : ℕ) post, .accept (some fd) :: post <:+ calls → sends post = [((fd : ℤ), message)]
  quiet : (∃ c ∈ calls, c.idle = true) → sends calls = [] ∧ sendtos calls = []

/-- The `poll` succeeds unless there is nothing to carry over, and what it reports is
accepted or received. -/
def Heard (revents : Revents) (r : Results) : Prop :=
  match r.poll with
  | none => revents = .zero
  | some ready =>
      (ready.tcp = true → r.accept.isSome = true) ∧
        (ready.tcp = false → ready.udp = true → r.recvfrom.isSome = true)

section Iterations

variable (ready : Option Revents) (r : Results)

lemma answered_poll : Answered [.poll ready] where
  udp src post h := by simp [List.suffix_cons_iff] at h
  tcp fd post h := by simp [List.suffix_cons_iff] at h
  quiet _ := ⟨rfl, rfl⟩

/-- Where something is sent, there was a request. -/
lemma Answered.heard {calls : List Call} (h : Answered calls)
    (hsent : sends calls ≠ [] ∨ sendtos calls ≠ []) : ∀ c ∈ calls, c.idle = false := by
  intro c hc
  by_contra hidle
  obtain ⟨hsends, hsendtos⟩ := h.quiet ⟨c, hc, by simpa using hidle⟩
  exact hsent.elim (absurd hsends) (absurd hsendtos)

/-- The branch of a connection is right exactly if there is one. -/
lemma answered_tcpCalls :
    Answered (.poll ready :: tcpCalls r) ↔ readable ready = true ∧ r.accept.isSome = true := by
  constructor
  · intro h
    have hheard := h.heard (.inl (by simp [sends, tcpCalls]))
    have hready := hheard (.poll ready) (by simp)
    have haccept := hheard (.accept r.accept) (by simp [tcpCalls])
    exact ⟨by simpa [Call.idle] using hready, by simpa [Call.idle] using haccept⟩
  · rintro ⟨hready, haccept⟩
    obtain ⟨fd, hfd⟩ := Option.isSome_iff_exists.mp haccept
    cases hsend : r.send <;>
      constructor <;> simp [tcpCalls, hfd, hsend, List.suffix_cons_iff, sends, descriptor,
        Call.idle, hready]

/-- The branch of a datagram is right exactly if there is one. -/
lemma answered_udpCalls :
    Answered (.poll ready :: udpCalls r) ↔ readable ready = true ∧ r.recvfrom.isSome = true := by
  constructor
  · intro h
    have hheard := h.heard (.inr (by simp [sendtos, udpCalls]))
    have hready := hheard (.poll ready) (by simp)
    have hrecv := hheard (.recvfrom r.recvfrom) (by simp [udpCalls])
    exact ⟨by simpa [Call.idle] using hready, by simpa [Call.idle] using hrecv⟩
  · rintro ⟨hready, hrecv⟩
    obtain ⟨src, hsrc⟩ := Option.isSome_iff_exists.mp hrecv
    constructor <;> simp [udpCalls, udpBranch, hsrc, List.suffix_cons_iff, sendtos, Call.idle,
      hready]

lemma answered_iterate (revents : Revents) :
    Answered (iterate revents r).2 ↔ Heard revents r := by
  cases hpoll : r.poll with
  | none =>
      -- what is carried over is not what `poll` reports
      have hunready : readable none = false := rfl
      rcases revents with ⟨_ | _, _ | _⟩ <;> simp [iterate, Heard, hpoll, hunready, Revents.zero,
        answered_poll, answered_tcpCalls, answered_udpCalls]
  | some ready =>
      have hready : readable (some ready) = (ready.tcp || ready.udp) := rfl
      rcases ready with ⟨_ | _, _ | _⟩ <;> simp [iterate, Heard, hpoll, hready,
        answered_poll, answered_tcpCalls, answered_udpCalls]

end Iterations

/-- A run of the loop answers every request once, and nothing else, exactly if every
iteration hears what it reads. -/
theorem answered_iff (rs : List Results) :
    (∀ calls ∈ (Loop.machine.exec Loop.start rs).iterations, Answered calls) ↔
      (Loop.machine.restrict fun s r => Heard s.revents r).Allowed Loop.start rs := by
  have hrun : Loop.machine.Allowed Loop.start rs :=
    Machine.allowed_of_forall (fun _ _ => trivial) Loop.start rs
  have hstep (s : Loop) (r : Results) :
      (∀ calls ∈ (s.act r).iterations, Answered calls) ↔
        (∀ calls ∈ s.iterations, Answered calls) ∧ Heard s.revents r := by
    rw [Loop.act, List.forall_mem_append, List.forall_mem_singleton, answered_iterate]
  have hiff := hrun.iff_restrict (P := fun s => ∀ calls ∈ s.iterations, Answered calls)
    (fun _ _ (_ : True) _ => trivial) (fun s r _ _ => hstep s r) trivial
  exact hiff.trans (and_iff_right (by simp [Loop.start]))

/-- A connection that is reset between `poll` and `accept`. -/
def reset : Results :=
  { poll := some ⟨true, false⟩, accept := none, send := false, recvfrom := none, sendto := true,
    clientAddr := .zero }

/-- The message is sent on the descriptor -1. -/
theorem sent_to_nobody :
    (Loop.machine.exec Loop.start [reset]).iterations
        = [[.poll (some ⟨true, false⟩), .accept none, .send (-1) message false, .close (-1),
          .close (-1)]] ∧
      ¬ ∀ calls ∈ (Loop.machine.exec Loop.start [reset]).iterations, Answered calls := by
  refine ⟨by decide, fun h => ?_⟩
  have hquiet := (h (iterate .zero reset).2 (by simp [Loop.machine, Loop.act, Loop.start])).quiet
    ⟨.accept none, by decide, rfl⟩
  exact absurd hquiet.1 (by decide)

end Hearthbeat.Beat
