import Hearthbeat.Machine.Run

/-!
The exchange of requests and replies between one client and one server, over a
channel that may lose either and delivers them in any order: how many there are,
and where they stand.

A request is sent, then answered or lost; its reply is handled or lost. So what
is in flight and what has come through add up to no more than what was sent
(`Bounded`), in every run (`bounded_of_run`).
-/

namespace Hearthbeat

/-- What was sent, answered and handled, and what is in flight. -/
@[ext]
structure Exchange where
  sent : ℕ
  requests : ℕ
  answered : ℕ
  replies : ℕ
  handled : ℕ

namespace Exchange

/-- A request is sent, answered or lost, or a reply is handled or lost. -/
inductive Event where
  | send
  | answer
  | handle
  | loseRequest
  | loseReply

/-- A step moves a message on, and counts it. -/
def act (x : Exchange) : Event → Exchange
  | .send => { x with sent := x.sent + 1, requests := x.requests + 1 }
  | .answer =>
      { x with requests := x.requests - 1, answered := x.answered + 1, replies := x.replies + 1 }
  | .handle => { x with replies := x.replies - 1, handled := x.handled + 1 }
  | .loseRequest => { x with requests := x.requests - 1 }
  | .loseReply => { x with replies := x.replies - 1 }

/-- What is taken out of the channel is there. -/
def guard (x : Exchange) : Event → Prop
  | .send => True
  | .answer | .loseRequest => 0 < x.requests
  | .handle | .loseReply => 0 < x.replies

/-- The messages in any order. -/
def machine : Machine Exchange Event where
  guard := guard
  act := act

/-- Nothing is answered that was not sent, and nothing handled that was not
answered. -/
structure Bounded (x : Exchange) : Prop where
  requests : x.requests + x.answered ≤ x.sent
  replies : x.replies + x.handled ≤ x.answered

lemma Bounded.step (x : Exchange) (e : Event) (h : x.Bounded) (hg : x.guard e) :
    (x.act e).Bounded := by
  obtain ⟨hreq, hrep⟩ := h
  cases e with
  | send => exact ⟨by simp only [act]; omega, hrep⟩
  | loseRequest => exact ⟨by simp only [act]; omega, hrep⟩
  | loseReply => exact ⟨hreq, by simp only [act]; omega⟩
  | answer =>
      have hpos : 0 < x.requests := hg
      exact ⟨by simp only [act]; omega, by simp only [act]; omega⟩
  | handle =>
      have hpos : 0 < x.replies := hg
      exact ⟨hreq, by simp only [act]; omega⟩

theorem bounded_of_run {x : Exchange} {es : List Event} (h : machine.Allowed x es)
    (hx : x.Bounded) : (machine.exec x es).Bounded :=
  h.induction Bounded.step hx

/-- Whatever was handled or is still in flight was sent. -/
lemma Bounded.total {x : Exchange} (h : x.Bounded) :
    x.handled + x.replies + x.requests ≤ x.sent := by
  have hreq := h.requests
  have hrep := h.replies
  omega

end Exchange

end Hearthbeat
