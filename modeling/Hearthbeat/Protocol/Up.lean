import Hearthbeat.Protocol.Network

/-!
No false `up`: what the monitor handles was answered, and what was answered was
sent.

* `no_false_up`: for every address, the answers handled, the replies and the
  requests in flight are together no more than the polls sent there; and when
  `Host T is up!` is sent, the server of the target has already answered a poll
  of this monitor.
-/

namespace Hearthbeat.Net

open Monitor

variable {cfg : Config} (top : Topology cfg)

/-- The polls sent to `a`, over all targets that resolve to it. -/
def pollsSent (a : SockAddr) (hist : List Act) : ℕ :=
  ∑ i ∈ Finset.range cfg.targets.length,
    if top.address i = some a then (pollsOf i hist).length else 0

lemma length_pollsOf_cons (i : ℕ) (x : Act) (l : List Act) :
    (pollsOf i (x :: l)).length = (pollsOf i l).length + if (pollOf i x).isSome then 1 else 0 := by
  cases hx : pollOf i x <;> simp [pollsOf, hx]

lemma length_of_address {i : ℕ} {a : SockAddr} (h : top.address i = some a) :
    i < cfg.targets.length := by
  obtain ⟨x, hx, -⟩ := Option.map_eq_some_iff.mp h
  exact (List.getElem?_eq_some_iff.mp hx).1

/-- The poll of a target counts at its address. -/
lemma pollsSent_poll (a : SockAddr) {i : ℕ} {b : SockAddr} (hb : top.address i = some b) (t : ℤ)
    (l : List Act) :
    pollsSent top a (.poll i (some b) t :: l) = pollsSent top a l + if b = a then 1 else 0 := by
  have hsplit : ∀ j, (if top.address j = some a
        then (pollsOf j (.poll i (some b) t :: l)).length else 0)
      = (if top.address j = some a then (pollsOf j l).length else 0)
        + if j = i then (if b = a then 1 else 0) else 0 := by
    intro j
    rw [length_pollsOf_cons]
    by_cases hji : j = i
    · subst hji
      by_cases hba : b = a <;> simp [hb, hba, pollOf]
    · simp [pollOf, hji, Ne.symm hji]
  have hi : i ∈ Finset.range cfg.targets.length := Finset.mem_range.mpr (length_of_address top hb)
  rw [pollsSent, Finset.sum_congr rfl fun j _ => hsplit j, Finset.sum_add_distrib,
    Finset.sum_ite_eq' _ i, if_pos hi, pollsSent]

/-- The requests sent to `a` are the polls of the targets there. -/
lemma countP_requestTo (a : SockAddr) {hist : List Act}
    (h : ∀ i dest t, .poll i dest t ∈ hist → dest.isSome ∧ dest = top.address i) :
    hist.countP (requestTo a) = pollsSent top a hist := by
  induction hist with
  | nil => simp [pollsSent, pollsOf]
  | cons x l ih =>
      have hrest := ih fun i dest t hmem => h i dest t (List.mem_cons_of_mem x hmem)
      rw [List.countP_cons, hrest]
      cases x with
      | poll i dest t =>
          obtain ⟨hsome, haddr⟩ := h i dest t List.mem_cons_self
          obtain ⟨b, rfl⟩ := Option.isSome_iff_exists.mp hsome
          rw [pollsSent_poll top a haddr.symm]
          simp [requestTo]
      | _ => simp [pollsSent, requestTo, length_pollsOf_cons, pollOf]

/-- The server of the target `i` has answered a poll. -/
def PollAnswered (i : ℕ) (s : Net) : Prop :=
  ∃ d ∈ s.served, d.src = top.me ∧ d.payload = Monitor.message ∧ top.address i = some d.dst

/-- Nothing is handled or in flight that was not sent; and an `up` that the next
step sends has its poll answered already. -/
structure NoFalseUp (wall : ℤ → Reading) (s : Net) : Prop where
  bound : ∀ a, (view top a s).handled + (view top a s).replies + (view top a s).requests
    ≤ pollsSent top a s.monitor.hist
  answered : ∀ e, guard top s e → ∀ i text ok t,
    .notice i true text ok t ∈ (act top wall s e).monitor.hist → PollAnswered top i s

section Runs

variable {top} {wall : ℤ → Reading} {t₀ : ℤ} {s : Net}

/-- What was handled was answered. -/
lemma pollAnswered_of_notice (h : Sound top t₀ s) (hb : ∀ a, (view top a s).Bounded) {i : ℕ}
    {text : Text} {ok : Bool} {t : ℤ} (hup : .notice i true text ok t ∈ s.monitor.hist) :
    PollAnswered top i s := by
  obtain ⟨a, re, t', hans⟩ := h.ups i text ok t hup
  have haddr := h.answers a i re t' hans
  have hhandled : 0 < (view top a s).handled :=
    List.countP_pos_iff.mpr ⟨_, hans, by simp [handledFrom]⟩
  have hle := (hb a).replies
  have hanswered : 0 < s.served.countP (top.isRequest a) := by
    change _ ≤ s.served.countP (top.isRequest a) at hle
    omega
  obtain ⟨d, hd, hreq⟩ := List.countP_pos_iff.mp hanswered
  simp only [Topology.isRequest, Bool.and_eq_true, beq_iff_eq] at hreq
  exact ⟨d, hd, hreq.1, (h.requests d (.inr hd) hreq.1).1, hreq.2 ▸ haddr⟩

variable (top wall) in
/-- A server's step sends no notice, and the monitor's step answers no poll. -/
lemma served_or_hist (s : Net) (e : Event) :
    (act top wall s e).served = s.served ∨ (act top wall s e).monitor.hist = s.monitor.hist := by
  cases e with
  | serve d => exact .inr rfl
  | _ => exact .inl rfl

end Runs

variable (wall : ℤ → Reading) (t₀ : ℤ) {es : List Event}

/-- In every run of the network, no false `up` is sent. -/
theorem no_false_up (h : (machine top wall).Allowed (start cfg t₀) es) :
    NoFalseUp top wall ((machine top wall).exec (start cfg t₀) es) := by
  have hstep : ∀ s e, Sound top t₀ s ∧ (∀ a, (view top a s).Bounded) → guard top s e →
      Sound top t₀ (act top wall s e) ∧ ∀ a, (view top a (act top wall s e)).Bounded := by
    rintro s e ⟨hsound, hbounded⟩ hg
    refine ⟨hsound.step s e hg, fun a => ?_⟩
    obtain ⟨hview, hrun⟩ := view_act (a := a) hsound e hg
    rw [hview]
    exact Exchange.bounded_of_run hrun (hbounded a)
  have hstart : Sound top t₀ (start cfg t₀) ∧ ∀ a, (view top a (start cfg t₀)).Bounded := by
    refine ⟨⟨Keeps.refl _, ?_, ?_, ?_, ?_⟩, fun a => ⟨Nat.zero_le _, Nat.zero_le _⟩⟩ <;>
      simp [start, Monitor.start, Monitor.init]
  obtain ⟨hsound, hbounded⟩ :=
    h.induction (P := fun s => Sound top t₀ s ∧ ∀ a, (view top a s).Bounded) hstep hstart
  generalize (machine top wall).exec (start cfg t₀) es = s at hsound hbounded
  refine ⟨fun a => ?_, fun e hg i text ok t hup => ?_⟩
  · rw [← countP_requestTo top a hsound.polls]
    exact (hbounded a).total
  · obtain ⟨hsound', hbounded'⟩ := hstep s e ⟨hsound, hbounded⟩ hg
    rcases served_or_hist top wall s e with hserved | hhist
    · obtain ⟨d, hd, hpoll⟩ := pollAnswered_of_notice hsound' hbounded' hup
      exact ⟨d, hserved ▸ hd, hpoll⟩
    · exact pollAnswered_of_notice hsound hbounded (hhist ▸ hup)

/-! ### One target -/

/-- The monitor of `oneTarget`, at a port of its own. -/
def oneServer : Topology oneTarget where
  me := ⟨2130706433, 40000⟩
  lookup := fun _ _ _ => piAddr
  server := fun a => a == piAddr
  server_of_target := by simp
  server_me := by decide

/-- A poll, its answer, and its reception. -/
def polledOnce : List Event :=
  let request : Datagram := ⟨oneServer.me, piAddr, Monitor.message⟩
  [.poll 0, .serve request, .receive (Beat.reply request) 0 delivered]

theorem no_false_up_polledOnce :
    NoFalseUp oneServer (fun _ => .epoch)
      ((machine oneServer fun _ => .epoch).exec (start oneTarget 0) polledOnce) := by
  refine no_false_up oneServer (fun _ => .epoch) 0 ⟨trivial, ⟨?_, rfl⟩, ⟨?_, rfl⟩, trivial⟩
  · exact Multiset.mem_coe.mpr (List.mem_singleton_self _)
  · simp only [machine, act]
    exact Multiset.mem_cons_self _ _

end Hearthbeat.Net
