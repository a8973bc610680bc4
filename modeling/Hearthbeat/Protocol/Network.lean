import Hearthbeat.Monitor.Polls
import Hearthbeat.Network.Exchange
import Hearthbeat.Beat.Reply

/-!
One monitor, the `beat` servers it polls, any other clients of theirs, and the
datagrams in flight between them.

* `Topology`: the addresses of the parties, and the lookups, which succeed and
  stay fixed.
* `Net.machine`: polls, receptions and expiries at the monitor, replies of the
  servers, datagrams of the clients, and losses, in any order. Nothing is
  duplicated, and nobody sends from an address that is not its own.
* `Net.view`: what the monitor exchanges with one server, an `Exchange`, and
  `view_act`: every step of the network is a run of it.
-/

namespace Hearthbeat

open Monitor

/-- The addresses of the monitor and of the servers. -/
structure Topology (cfg : Config) where
  me : SockAddr
  lookup : ℕ → Text → Text → SockAddr
  server : SockAddr → Bool
  server_of_target : ∀ i x, cfg.targets[i]? = some x → server (lookup i x.host x.port) = true
  server_me : server me = false

namespace Topology

variable {cfg : Config} (top : Topology cfg)

/-- Every lookup succeeds, and gives the address of the topology. -/
def resolver : Resolver := fun i host port => some (top.lookup i host port)

/-- The address that the target `i` resolves to. -/
def address (i : ℕ) : Option SockAddr :=
  cfg.targets[i]?.map fun x => top.lookup i x.host x.port

lemma server_of_address {i : ℕ} {a : SockAddr} (h : top.address i = some a) :
    top.server a = true := by
  obtain ⟨x, hx, rfl⟩ := Option.map_eq_some_iff.mp h
  exact top.server_of_target i x hx

/-- A datagram from the monitor to `a`. -/
def isRequest (a : SockAddr) (d : Datagram) : Bool := d.src == top.me && d.dst == a

/-- A datagram from the server at `a` to the monitor. -/
def isReply (a : SockAddr) (d : Datagram) : Bool :=
  top.server a && (d.src == a && d.dst == top.me)

/-- The datagram that a poll sends. -/
def requestOf : Act → Option Datagram
  | .poll _ (some dest) _ => some ⟨top.me, dest, Monitor.message⟩
  | _ => none

end Topology

/-- The monitor, the datagrams in flight, up to their reception, and the datagrams
that the servers have answered. -/
structure Net where
  monitor : Monitor
  inFlight : Multiset Datagram
  served : List Datagram

namespace Net

/-- A step of one of the parties or of the network. -/
inductive Event where
  | tick (d : ℕ)
  | poll (i : ℕ)
  | err (i : ℕ) (c : Call)
  | receive (d : Datagram) (re : ℕ) (c : Call)
  | serve (d : Datagram)
  | client (d : Datagram)
  | lose (d : Datagram)

variable {cfg : Config} (top : Topology cfg) (wall : ℤ → Reading)

/-- An event at the monitor, with the datagrams that it sends. -/
def monitorStep (s : Net) (ev : Monitor.Event) : Net :=
  let m := Monitor.act wall s.monitor ev
  let sent := (m.hist.drop s.monitor.hist.length).filterMap top.requestOf
  { s with monitor := m, inFlight := (sent : Multiset Datagram) + s.inFlight }

/-- A step of the monitor, of a server, of a client or of the network. -/
def act (s : Net) : Event → Net
  | .tick d => s.monitorStep top wall (.tick d)
  | .poll i => s.monitorStep top wall (.poll i top.resolver true)
  | .err i c => s.monitorStep top wall (.err i c)
  | .receive d re c =>
      { s with inFlight := s.inFlight.erase d }.monitorStep top wall
        (.recv (some d.src) re top.resolver c)
  | .serve d =>
      { s with inFlight := Beat.reply d ::ₘ s.inFlight.erase d, served := s.served ++ [d] }
  | .client d => { s with inFlight := d ::ₘ s.inFlight }
  | .lose d => { s with inFlight := s.inFlight.erase d }

/-- A datagram reaches the address that it was sent to; clients send from
addresses of their own. -/
def guard (s : Net) : Event → Prop
  | .tick _ | .poll _ | .err _ _ => True
  | .receive d _ _ => d ∈ s.inFlight ∧ d.dst = top.me
  | .serve d => d ∈ s.inFlight ∧ top.server d.dst = true
  | .client d => d.src ≠ top.me ∧ top.server d.src = false
  | .lose d => d ∈ s.inFlight

/-- The whole network, in any interleaving. -/
def machine : Machine Net Event where
  guard := guard top
  act := act top wall

/-- The monitor has started, and nothing is in flight. -/
def start (cfg : Config) (t₀ : ℤ) : Net := ⟨Monitor.start cfg t₀, 0, []⟩

/-! ### The exchange with one address -/

/-- A request sent to `a`. -/
def requestTo (a : SockAddr) : Act → Bool
  | .poll _ (some dest) _ => dest == a
  | _ => false

/-- An answer from `a` that was attributed to a target. -/
def handledFrom (a : SockAddr) : Act → Bool
  | .answer src (some _) _ _ => src == a
  | _ => false

/-- What the monitor exchanges with the server at `a`. -/
def view (a : SockAddr) (s : Net) : Exchange where
  sent := s.monitor.hist.countP (requestTo a)
  requests := s.inFlight.countP fun d => top.isRequest a d = true
  answered := s.served.countP (top.isRequest a)
  replies := s.inFlight.countP fun d => top.isReply a d = true
  handled := s.monitor.hist.countP (handledFrom a)

/-- The steps of the exchange with `a` that a step of the network makes. -/
def label (a : SockAddr) (s : Net) : Event → List Exchange.Event
  | .poll i => if top.address i = some a then [.send] else []
  | .serve d => if top.isRequest a d then [.answer] else []
  | .receive d _ _ =>
      if top.isReply a d then
        [if (getTarget top.resolver s.monitor.targets d.src).isSome then .handle else .loseReply]
      else []
  | .lose d =>
      if top.isRequest a d then [.loseRequest]
      else if top.isReply a d then [.loseReply]
      else []
  | _ => []

section Counts

variable {top} {wall} {s : Net} {a : SockAddr}

lemma not_isRequest_of_isReply {d : Datagram} (h : top.isReply a d = true) (b : SockAddr) :
    top.isRequest b d = false := by
  simp only [Topology.isReply, Bool.and_eq_true, beq_iff_eq] at h
  obtain ⟨hserver, hsrc, -⟩ := h
  have hne : d.src ≠ top.me := by
    intro heq
    rw [← hsrc, heq, top.server_me] at hserver
    cases hserver
  simp [Topology.isRequest, hne]

/-- What comes from the monitor is no reply. -/
lemma not_isReply_of_src {d : Datagram} (h : d.src = top.me) (b : SockAddr) :
    top.isReply b d = false := by
  rw [Bool.eq_false_iff]
  intro hb
  have hreq := not_isRequest_of_isReply hb d.dst
  simp [Topology.isRequest, h] at hreq

/-- Taking a datagram out of the channel. -/
lemma countP_erase (p : Datagram → Bool) {f : Multiset Datagram} {d : Datagram} (hd : d ∈ f) :
    (f.erase d).countP (fun d => p d = true) + (if p d then 1 else 0)
      = f.countP fun d => p d = true := by
  obtain ⟨rest, rfl⟩ := Multiset.exists_cons_of_mem hd
  rw [Multiset.erase_cons_head, Multiset.countP_cons]

end Counts

/-! ### What stays true of the network -/

/-- The monitor polls its targets where they are, is answered from there, and
sends nothing but its requests. -/
structure Sound (t₀ : ℤ) (s : Net) : Prop where
  keeps : Keeps (Monitor.start cfg t₀) s.monitor
  polls : ∀ i dest t, .poll i dest t ∈ s.monitor.hist → dest.isSome ∧ dest = top.address i
  answers : ∀ src i re t, .answer src (some i) re t ∈ s.monitor.hist → top.address i = some src
  ups : ∀ i text ok t, .notice i true text ok t ∈ s.monitor.hist →
    ∃ src re t', .answer src (some i) re t' ∈ s.monitor.hist
  requests : ∀ d, d ∈ s.inFlight ∨ d ∈ s.served → d.src = top.me →
    d.payload = Monitor.message ∧ top.server d.dst = true

section Steps

variable {top} {wall} {t₀ : ℤ} {s : Net} {a : SockAddr}

/-- A step of the monitor that adds `l` to its history. -/
lemma monitorStep_inFlight {ev : Monitor.Event} {l : List Act}
    (hl : (Monitor.act wall s.monitor ev).hist = s.monitor.hist ++ l) :
    (s.monitorStep top wall ev).inFlight
      = (l.filterMap top.requestOf : Multiset Datagram) + s.inFlight := by
  simp [monitorStep, hl]

lemma countP_requestOf (a : SockAddr) (l : List Act) :
    (l.filterMap top.requestOf).countP (top.isRequest a) = l.countP (requestTo a) := by
  rw [List.countP_filterMap]
  congr 1
  funext x
  cases x with
  | poll i dest t => cases dest <;> simp [Topology.requestOf, Topology.isRequest, requestTo]
  | _ => rfl

/-- The datagrams of the monitor are no replies. -/
lemma src_of_requestOf {l : List Act} {d : Datagram} (h : d ∈ l.filterMap top.requestOf) :
    d.src = top.me ∧ d.payload = Monitor.message ∧ ∃ i t, .poll i (some d.dst) t ∈ l := by
  obtain ⟨x, hx, hd⟩ := List.mem_filterMap.mp h
  cases x with
  | poll i dest t =>
      cases dest with
      | none => cases hd
      | some dest =>
          obtain rfl : (⟨top.me, dest, Monitor.message⟩ : Datagram) = d := by
            simpa [Topology.requestOf] using hd
          exact ⟨rfl, rfl, i, t, hx⟩
  | _ => cases hd

lemma view_monitorStep {ev : Monitor.Event} {l : List Act}
    (hl : (Monitor.act wall s.monitor ev).hist = s.monitor.hist ++ l) :
    view top a (s.monitorStep top wall ev) =
      { view top a s with
        sent := (view top a s).sent + l.countP (requestTo a)
        requests := (view top a s).requests + l.countP (requestTo a)
        handled := (view top a s).handled + l.countP (handledFrom a) } := by
  have hreplies : (l.filterMap top.requestOf).countP (top.isReply a) = 0 := by
    refine List.countP_eq_zero.mpr fun d hd => ?_
    rw [not_isReply_of_src (src_of_requestOf hd).1]
    exact Bool.false_ne_true
  have hhist : (s.monitorStep top wall ev).monitor.hist = s.monitor.hist ++ l := hl
  have hrequests : (l.filterMap top.requestOf).countP (top.isRequest a)
      = l.countP (requestTo a) := countP_requestOf a l
  simp only [view, monitorStep_inFlight hl, hhist, List.countP_append, Multiset.countP_add,
    Multiset.coe_countP, Bool.decide_eq_true]
  rw [hrequests, hreplies, Nat.zero_add, Nat.add_comm (l.countP (requestTo a))]
  rfl

/-- Without a poll and without a handled answer the exchange rests. -/
lemma view_rest {ev : Monitor.Event} {l : List Act}
    (hl : (Monitor.act wall s.monitor ev).hist = s.monitor.hist ++ l)
    (hsent : ∀ x ∈ l, requestTo a x = false) (hhandled : ∀ x ∈ l, handledFrom a x = false) :
    view top a (s.monitorStep top wall ev) = view top a s := by
  have h₁ : l.countP (requestTo a) = 0 :=
    List.countP_eq_zero.mpr fun x hx => by simp [hsent x hx]
  have h₂ : l.countP (handledFrom a) = 0 :=
    List.countP_eq_zero.mpr fun x hx => by simp [hhandled x hx]
  rw [view_monitorStep hl, h₁, h₂]
  rfl

/-- The poll of a target adds a request to its address, if there is one. -/
lemma poll_hist (h : Sound top t₀ s) (i : ℕ) :
    (Monitor.act wall s.monitor (.poll i top.resolver true)).hist
      = s.monitor.hist
        ++ (top.address i).toList.map fun dest => .poll i (some dest) s.monitor.now := by
  set m₁ := s.monitor.modifyTarget i fun t => { t with pollEv := t.pollEv.fire }
  have hact : Monitor.act wall s.monitor (.poll i top.resolver true)
      = m₁.sendBip wall i top.resolver true := rfl
  cases ht : s.monitor.targets[i]? with
  | none =>
      have ht₁ : m₁.targets[i]? = none := by rw [modifyTarget_same, ht, Option.map_none]
      have hlen : cfg.targets[i]? = none := by
        have hentries := congrArg (fun xs => xs[i]?) h.keeps.entries
        simpa [ht, Monitor.start, Monitor.init] using hentries.symm
      rw [hact, sendBip_none wall ht₁, Topology.address, hlen]
      simp [m₁]
  | some t =>
      have ht₁ : m₁.targets[i]? = some { t with pollEv := t.pollEv.fire } := by
        rw [modifyTarget_same, ht, Option.map_some]
      have hx := entry_of_keeps h.keeps ht
      have haddr : top.address i = some (top.lookup i t.host t.port) := by
        rw [Topology.address, hx]
        rfl
      rw [hact, haddr]
      simp [sendBip, ht₁, lookupTarget, Topology.resolver, m₁]

lemma view_poll (h : Sound top t₀ s) (i : ℕ) :
    view top a (act top wall s (.poll i))
      = Exchange.machine.exec (view top a s) (label top a s (.poll i)) := by
  rw [act, view_monitorStep (poll_hist h i), label]
  cases haddr : top.address i with
  | none => simp
  | some dest =>
      by_cases hd : dest = a
      · simp [hd, requestTo, handledFrom, Exchange.machine, Exchange.act]
      · simp [hd, requestTo, handledFrom]

lemma view_err (i : ℕ) (c : Call) :
    view top a (act top wall s (.err i c)) = view top a s := by
  obtain ⟨l, hl, hnotice⟩ := handleErrEvent_hist c
    (s.monitor.modifyTarget i fun t => { t with errEv := t.errEv.fire }) i
  have hhist : (Monitor.act wall s.monitor (.err i c)).hist = s.monitor.hist ++ l := hl
  refine view_rest hhist (fun x hx => ?_) fun x hx => ?_
  · obtain ⟨text, ok, t, rfl⟩ := hnotice x hx
    rfl
  · obtain ⟨text, ok, t, rfl⟩ := hnotice x hx
    rfl

/-- A datagram attributed to a target comes from its address. -/
lemma address_of_getTarget (h : Sound top t₀ s) {client : SockAddr} {i : ℕ}
    (hw : getTarget top.resolver s.monitor.targets client = some i) :
    top.address i = some client := by
  obtain ⟨t, ht, hres⟩ := getTarget_resolved hw
  rw [Topology.address, entry_of_keeps h.keeps ht]
  exact congrArg some hres

/-- A reception takes the datagram out of the channel and handles it if it is
attributed to a target. -/
lemma view_receive (h : Sound top t₀ s) {d : Datagram} (hd : d ∈ s.inFlight)
    (hdst : d.dst = top.me) (re : ℕ) (c : Call) :
    view top a (act top wall s (.receive d re c))
      = Exchange.machine.exec (view top a s) (label top a s (.receive d re c)) := by
  set s₁ : Net := { s with inFlight := s.inFlight.erase d }
  set who := getTarget top.resolver s.monitor.targets d.src with hwho
  obtain ⟨l, hl, hrest⟩ := handleAnswer_hist c wall s₁.monitor d.src re top.resolver
  have hhist : (Monitor.act wall s₁.monitor (.recv (some d.src) re top.resolver c)).hist
      = s₁.monitor.hist ++ .answer d.src who re s₁.monitor.now :: l := hl
  -- what follows the answer in the history is neither a request nor an answer
  have hl₁ : l.countP (requestTo a) = 0 := by
    refine List.countP_eq_zero.mpr fun x hx => ?_
    obtain ⟨i, -, ⟨text, ok, t, rfl⟩ | ⟨interval, t, rfl⟩⟩ := hrest x hx <;> simp [requestTo]
  have hl₂ : l.countP (handledFrom a) = 0 := by
    refine List.countP_eq_zero.mpr fun x hx => ?_
    obtain ⟨i, -, ⟨text, ok, t, rfl⟩ | ⟨interval, t, rfl⟩⟩ := hrest x hx <;> simp [handledFrom]
  -- the datagram is for the monitor, so it is no request
  have hreq : top.isRequest a d = false := by
    rw [Bool.eq_false_iff]
    intro hr
    simp only [Topology.isRequest, Bool.and_eq_true, beq_iff_eq] at hr
    have hserver := (h.requests d (.inl hd) hr.1).2
    rw [hdst, top.server_me] at hserver
    cases hserver
  have hhandled : handledFrom a (.answer d.src who re s.monitor.now)
      = (top.isReply a d && who.isSome) := by
    cases hw : who with
    | none => simp [handledFrom]
    | some i =>
        have hserver := top.server_of_address (address_of_getTarget h (hwho.symm.trans hw))
        by_cases hsrc : d.src = a
        · simp [handledFrom, Topology.isReply, hsrc, hdst, hsrc ▸ hserver]
        · simp [handledFrom, Topology.isReply, beq_eq_false_iff_ne.mpr hsrc]
  have hrequests := countP_erase (top.isRequest a) hd
  have hreplies := countP_erase (top.isReply a) hd
  rw [hreq, if_neg Bool.false_ne_true] at hrequests
  have hstep : view top a (act top wall s (.receive d re c)) = _ := view_monitorStep hhist
  rw [hstep, label, List.countP_cons, List.countP_cons, hl₁, hl₂, hhandled, ← hwho]
  cases hrep : top.isReply a d with
  | true =>
      rw [hrep, if_pos rfl] at hreplies
      cases who.isSome <;>
        simp [view, requestTo, Exchange.machine, Exchange.act, ← hrequests, ← hreplies]
  | false =>
      rw [hrep, if_neg Bool.false_ne_true] at hreplies
      simp [view, requestTo, ← hrequests, ← hreplies]

lemma view_serve {d : Datagram} (hd : d ∈ s.inFlight) (hserver : top.server d.dst = true) :
    view top a (act top wall s (.serve d))
      = Exchange.machine.exec (view top a s) (label top a s (.serve d)) := by
  have hne : d.dst ≠ top.me := by
    intro heq
    rw [heq, top.server_me] at hserver
    cases hserver
  have hreq : top.isRequest a (Beat.reply d) = false := by
    simp [Topology.isRequest, hne]
  have hrep : top.isReply a d = false := by simp [Topology.isReply, hne]
  have hreply : top.isReply a (Beat.reply d) = top.isRequest a d := by
    by_cases hdst : d.dst = a
    · simp [Topology.isReply, Topology.isRequest, hdst, hdst ▸ hserver]
    · simp [Topology.isReply, Topology.isRequest, beq_eq_false_iff_ne.mpr hdst]
  have hrequests := countP_erase (top.isRequest a) hd
  have hreplies := countP_erase (top.isReply a) hd
  rw [hrep, if_neg Bool.false_ne_true] at hreplies
  cases hr : top.isRequest a d with
  | true =>
      rw [hr, if_pos rfl] at hrequests
      simp only [view, act, label, hr, hreq, hreply, Multiset.countP_cons]
      simp [Exchange.machine, Exchange.act, hr, ← hrequests, ← hreplies]
  | false =>
      rw [hr, if_neg Bool.false_ne_true] at hrequests
      simp only [view, act, label, hr, hreq, hreply, Multiset.countP_cons]
      simp [hr, ← hrequests, ← hreplies]

lemma view_client {d : Datagram} (hsrc : d.src ≠ top.me) (hserver : top.server d.src = false) :
    view top a (act top wall s (.client d)) = view top a s := by
  have hreq : top.isRequest a d = false := by simp [Topology.isRequest, hsrc]
  have hrep : top.isReply a d = false := by
    by_cases ha : d.src = a
    · simp [Topology.isReply, ← ha, hserver]
    · simp [Topology.isReply, beq_eq_false_iff_ne.mpr ha]
  simp [view, act, hreq, hrep]

lemma view_lose {d : Datagram} (hd : d ∈ s.inFlight) :
    view top a (act top wall s (.lose d))
      = Exchange.machine.exec (view top a s) (label top a s (.lose d)) := by
  have hrequests := countP_erase (top.isRequest a) hd
  have hreplies := countP_erase (top.isReply a) hd
  cases hreq : top.isRequest a d with
  | true =>
      have hrep : top.isReply a d = false := by
        rw [Bool.eq_false_iff]
        intro hr
        rw [not_isRequest_of_isReply hr] at hreq
        cases hreq
      rw [hreq, if_pos rfl] at hrequests
      rw [hrep, if_neg Bool.false_ne_true] at hreplies
      simp [view, act, label, hreq, Exchange.machine, Exchange.act, ← hrequests, ← hreplies]
  | false =>
      rw [hreq, if_neg Bool.false_ne_true] at hrequests
      cases hrep : top.isReply a d with
      | true =>
          rw [hrep, if_pos rfl] at hreplies
          simp [view, act, label, hreq, hrep, Exchange.machine, Exchange.act, ← hrequests,
            ← hreplies]
      | false =>
          rw [hrep, if_neg Bool.false_ne_true] at hreplies
          simp [view, act, label, hreq, hrep, ← hrequests, ← hreplies]

/-- What a step of the monitor may add to its history. -/
lemma Sound.monitorStep (h : Sound top t₀ s) {ev : Monitor.Event} {l : List Act}
    (hl : (Monitor.act wall s.monitor ev).hist = s.monitor.hist ++ l)
    (hpolls : ∀ i dest t, .poll i dest t ∈ l → dest.isSome ∧ dest = top.address i)
    (hanswers : ∀ src i re t, .answer src (some i) re t ∈ l → top.address i = some src)
    (hups : ∀ i text ok t, .notice i true text ok t ∈ l →
      ∃ src re t', .answer src (some i) re t' ∈ l) :
    Sound top t₀ (s.monitorStep top wall ev) := by
  have hhist : (s.monitorStep top wall ev).monitor.hist = s.monitor.hist ++ l := hl
  refine ⟨h.keeps.trans (keeps_act wall s.monitor ev), ?_, ?_, ?_, ?_⟩
  · intro i dest t hmem
    rw [hhist] at hmem
    rcases List.mem_append.mp hmem with hold | hnew
    · exact h.polls i dest t hold
    · exact hpolls i dest t hnew
  · intro src i re t hmem
    rw [hhist] at hmem
    rcases List.mem_append.mp hmem with hold | hnew
    · exact h.answers src i re t hold
    · exact hanswers src i re t hnew
  · intro i text ok t hmem
    rw [hhist] at hmem ⊢
    rcases List.mem_append.mp hmem with hold | hnew
    · obtain ⟨src, re, t', hans⟩ := h.ups i text ok t hold
      exact ⟨src, re, t', List.mem_append_left l hans⟩
    · obtain ⟨src, re, t', hans⟩ := hups i text ok t hnew
      exact ⟨src, re, t', List.mem_append_right _ hans⟩
  · intro d hd hsrc
    rw [monitorStep_inFlight hl, Multiset.mem_add, Multiset.mem_coe] at hd
    rcases hd with (hnew | hold) | hserved
    · obtain ⟨-, hpayload, i, t, hpoll⟩ := src_of_requestOf hnew
      exact ⟨hpayload, top.server_of_address (hpolls i _ t hpoll).2.symm⟩
    · exact h.requests d (.inl hold) hsrc
    · exact h.requests d (.inr hserved) hsrc

/-- A step that leaves the monitor alone. -/
lemma Sound.channel (h : Sound top t₀ s) {f : Multiset Datagram} {l : List Datagram}
    (hown : ∀ d, d ∈ f ∨ d ∈ l → d.src = top.me → d ∈ s.inFlight ∨ d ∈ s.served) :
    Sound top t₀ ⟨s.monitor, f, l⟩ :=
  ⟨h.keeps, h.polls, h.answers, h.ups, fun d hd hsrc => h.requests d (hown d hd hsrc) hsrc⟩

/-- An alarm writes down a notice that the target is down at most. -/
lemma Sound.err (h : Sound top t₀ s) (i : ℕ) (c : Call) :
    Sound top t₀ (act top wall s (.err i c)) := by
  obtain ⟨l, hl, hnotice⟩ := handleErrEvent_hist c
    (s.monitor.modifyTarget i fun t => { t with errEv := t.errEv.fire }) i
  refine h.monitorStep hl ?_ ?_ ?_
  · intro j dest t hmem
    obtain ⟨text, ok, t', heq⟩ := hnotice _ hmem
    cases heq
  · intro src j re t hmem
    obtain ⟨text, ok, t', heq⟩ := hnotice _ hmem
    cases heq
  · intro j text ok t hmem
    obtain ⟨text', ok', t', heq⟩ := hnotice _ hmem
    cases heq

/-- A datagram that the monitor handles is attributed to the target at its source. -/
lemma Sound.receive (h : Sound top t₀ s) (d : Datagram) (re : ℕ) (c : Call) :
    Sound top t₀ (act top wall s (.receive d re c)) := by
  have h₁ : Sound top t₀ { s with inFlight := s.inFlight.erase d } :=
    h.channel fun d' hd' _ => hd'.imp Multiset.mem_of_mem_erase id
  obtain ⟨l, hl, hrest⟩ := handleAnswer_hist c wall s.monitor d.src re top.resolver
  refine h₁.monitorStep hl ?_ ?_ ?_
  · intro i dest t hmem
    obtain ⟨j, -, ⟨text, ok, t', heq⟩ | ⟨interval, t', heq⟩⟩ :=
      hrest _ (List.mem_of_ne_of_mem (by simp) hmem) <;> cases heq
  · intro src i re' t hmem
    rcases List.mem_cons.mp hmem with heq | hl'
    · obtain ⟨rfl, hw, -⟩ := Act.answer.inj heq
      exact address_of_getTarget h hw.symm
    · obtain ⟨j, -, ⟨text, ok, t', heq⟩ | ⟨interval, t', heq⟩⟩ := hrest _ hl' <;> cases heq
  · intro i text ok t hmem
    obtain ⟨j, hw, ⟨text', ok', t', heq⟩ | ⟨interval, t', heq⟩⟩ :=
      hrest _ (List.mem_of_ne_of_mem (by simp) hmem)
    · obtain ⟨rfl, -⟩ := Act.notice.inj heq
      exact ⟨d.src, re, s.monitor.now, by simp [hw]⟩
    · cases heq

/-- The reply of a server does not come from the monitor. -/
lemma Sound.serve (h : Sound top t₀ s) {d : Datagram} (hg : guard top s (.serve d)) :
    Sound top t₀ (act top wall s (.serve d)) := by
  have hsrc : (Beat.reply d).src ≠ top.me := by
    intro heq
    have hserver := hg.2
    rw [← Beat.reply_src d, heq, top.server_me] at hserver
    cases hserver
  refine h.channel fun d' hd' hme => ?_
  rcases hd' with hflight | hserved
  · rcases Multiset.mem_cons.mp hflight with rfl | hold
    · exact absurd hme hsrc
    · exact .inl (Multiset.mem_of_mem_erase hold)
  · rcases List.mem_append.mp hserved with hold | hnew
    · exact .inr hold
    · rw [List.mem_singleton] at hnew
      exact .inl (hnew ▸ hg.1)

theorem Sound.step (s : Net) (e : Event) (h : Sound top t₀ s) (hg : guard top s e) :
    Sound top t₀ (act top wall s e) := by
  cases e with
  | tick d =>
      exact h.monitorStep (l := []) (List.append_nil _).symm (by simp) (by simp) (by simp)
  | poll i =>
      refine h.monitorStep (poll_hist h i) ?_ (by simp) (by simp)
      intro j dest t hmem
      obtain ⟨a, ha, heq⟩ := List.mem_map.mp hmem
      obtain ⟨rfl, rfl, -⟩ := Act.poll.inj heq
      exact ⟨rfl, (Option.mem_toList.mp ha).symm⟩
  | err i c => exact h.err i c
  | receive d re c => exact h.receive d re c
  | serve d => exact h.serve hg
  | client d =>
      refine h.channel fun d' hd' hme => ?_
      rcases hd' with hflight | hserved
      · rcases Multiset.mem_cons.mp hflight with rfl | hold
        · exact absurd hme hg.1
        · exact .inl hold
      · exact .inr hserved
  | lose d => exact h.channel fun d' hd' _ => hd'.imp Multiset.mem_of_mem_erase id

/-- A datagram in the channel counts there. -/
lemma countP_pos {p : Datagram → Bool} {d : Datagram} (hd : d ∈ s.inFlight) (hp : p d = true) :
    0 < s.inFlight.countP fun d => p d = true :=
  Multiset.countP_pos.mpr ⟨d, hd, hp⟩

/-- Every step of the network is a run of the exchange with `a`. -/
theorem view_act (h : Sound top t₀ s) (e : Event) (hg : guard top s e) :
    view top a (act top wall s e) = Exchange.machine.exec (view top a s) (label top a s e) ∧
      Exchange.machine.Allowed (view top a s) (label top a s e) := by
  cases e with
  | tick d =>
      refine ⟨view_rest (l := []) (List.append_nil _).symm (by simp) (by simp), trivial⟩
  | poll i =>
      refine ⟨view_poll h i, ?_⟩
      rw [label]
      split_ifs
      · exact ⟨trivial, trivial⟩
      · trivial
  | err i c => exact ⟨view_err i c, trivial⟩
  | receive d re c =>
      refine ⟨view_receive h hg.1 hg.2 re c, ?_⟩
      rw [label]
      split_ifs with hrep hw
      · exact ⟨countP_pos hg.1 hrep, trivial⟩
      · exact ⟨countP_pos hg.1 hrep, trivial⟩
      · trivial
  | serve d =>
      refine ⟨view_serve hg.1 hg.2, ?_⟩
      rw [label]
      split_ifs with hreq
      · exact ⟨countP_pos hg.1 hreq, trivial⟩
      · trivial
  | client d => exact ⟨view_client hg.1 hg.2, trivial⟩
  | lose d =>
      refine ⟨view_lose hg, ?_⟩
      rw [label]
      split_ifs with hreq hrep
      · exact ⟨countP_pos hg hreq, trivial⟩
      · exact ⟨countP_pos hg hrep, trivial⟩
      · trivial

end Steps

end Net

end Hearthbeat
