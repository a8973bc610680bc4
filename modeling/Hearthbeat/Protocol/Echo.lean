import Hearthbeat.Machine.Run
import Hearthbeat.Beat.Reply

/-!
Any number of `beat` servers and the datagrams between them: whether they can keep
each other busy.

A server answers every datagram, also one that a server has sent. `Echo.machine`
delivers what is in flight in any order; a datagram is traced to the one injected that
it goes back to, with the number of replies between them.

* `Quiet`: no reply is answered, an injected datagram causes one reply at most, and two
  deliveries.
* `unbounded`: one datagram with the source of a server keeps two of them busy for ever.
* `quiet_iff`: so every run is quiet exactly if there is none.
-/

namespace Hearthbeat

/-- A datagram, with the number of the injected one that it goes back to, and how many
replies lie between. -/
structure Traced extends Datagram where
  origin : ℕ
  depth : ℕ
  deriving DecidableEq

/-- What a server sends for it. -/
def Traced.reply (t : Traced) : Traced :=
  { toDatagram := Beat.reply t.toDatagram, origin := t.origin, depth := t.depth + 1 }

/-- What is in flight, what the servers have answered, and how often something was
delivered. -/
structure Echo where
  inFlight : Multiset Traced
  answered : List Traced
  deliveries : ℕ

namespace Echo

/-- A datagram reaches its destination; a server answers it, if its `sendto` succeeds. -/
structure Event where
  datagram : Traced
  sendto : Bool

variable (servers : Finset SockAddr)

/-- A delivery. A server answers whatever reaches it. -/
def act (s : Echo) (e : Event) : Echo :=
  let rest := s.inFlight.erase e.datagram
  if e.datagram.dst ∈ servers ∧ e.sendto = true then
    { inFlight := e.datagram.reply ::ₘ rest
      answered := s.answered ++ [e.datagram]
      deliveries := s.deliveries + 1 }
  else { s with inFlight := rest, deliveries := s.deliveries + 1 }

/-- The datagrams are delivered in any order. -/
def machine : Machine Echo Event where
  guard s e := e.datagram ∈ s.inFlight
  act := act servers

instance (s : Echo) (e : Event) : Decidable ((machine servers).guard s e) :=
  inferInstanceAs (Decidable (e.datagram ∈ s.inFlight))

/-- The datagrams injected, numbered. -/
def traced (injected : List Datagram) : List Traced :=
  injected.zipIdx.map fun d => { toDatagram := d.1, origin := d.2, depth := 0 }

/-- The injected datagrams are in flight. -/
def start (injected : List Datagram) : Echo := ⟨(traced injected : Multiset Traced), [], 0⟩

/-- The exchange does not feed itself. -/
structure Quiet (injected : List Datagram) (s : Echo) : Prop where
  noFeedback : ∀ t ∈ s.answered, t.depth = 0
  once : ∀ i, s.answered.countP (fun t => t.origin = i) ≤ 1
  finite : s.deliveries ≤ 2 * injected.length

/-- No datagram for a server has the address of a server as its source. -/
def Genuine (injected : List Datagram) : Prop :=
  ∀ d ∈ injected, d.dst ∈ servers → d.src ∉ servers

/-- The deliveries that a datagram may still cause. -/
def weight (t : Traced) : ℕ := if t.depth = 0 then 2 else 1

/-- The invariant of genuine traffic. -/
structure Settling (injected : List Datagram) (s : Echo) : Prop where
  replies : ∀ t ∈ s.inFlight, if t.depth = 0 then t.toDatagram ∈ injected else t.dst ∉ servers
  noFeedback : ∀ t ∈ s.answered, t.depth = 0
  once : ∀ i, s.answered.countP (fun t => t.origin = i)
    + s.inFlight.countP (fun t => t.depth = 0 ∧ t.origin = i) ≤ 1
  total : s.deliveries + (s.inFlight.map weight).sum ≤ 2 * injected.length

section Genuine

variable {servers} {injected : List Datagram} {s : Echo}

lemma settling_start : Settling servers injected (start injected) := by
  have hdepth : ∀ t ∈ traced injected, t.depth = 0 ∧ t.toDatagram ∈ injected := fun t ht => by
    obtain ⟨d, hd, rfl⟩ := List.mem_map.mp ht
    exact ⟨rfl, (List.mem_zipIdx' hd).2 ▸ List.getElem_mem _⟩
  refine ⟨fun t ht => ?_, by simp [start], fun i => ?_, ?_⟩
  · rw [if_pos (hdepth t ht).1]
    exact (hdepth t ht).2
  · have hcount : (start injected).inFlight.countP (fun t => t.depth = 0 ∧ t.origin = i)
        = (List.range' 0 injected.length).count i := by
      rw [← List.zipIdx_map_snd, List.count_eq_countP, List.countP_map]
      simp [start, traced, List.countP_map, Function.comp_def, Bool.beq_eq_decide_eq]
    have hnodup := List.nodup_iff_count_le_one.mp (List.nodup_range' (s := 0)
      (n := injected.length)) i
    rw [hcount]
    simpa only [start, List.countP_nil, Nat.zero_add] using hnodup
  · simp [start, traced, weight, Function.comp_def, Nat.mul_comm]

lemma Settling.step (hgenuine : Genuine servers injected) (s : Echo) (e : Event)
    (hs : Settling servers injected s) (hg : e.datagram ∈ s.inFlight) :
    Settling servers injected (act servers s e) := by
  obtain ⟨rest, hrest⟩ := Multiset.exists_cons_of_mem hg
  obtain ⟨hreplies, hfeedback, honce, htotal⟩ := hs
  have herase : s.inFlight.erase e.datagram = rest := by rw [hrest, Multiset.erase_cons_head]
  simp only [hrest, Multiset.mem_cons, forall_eq_or_imp] at hreplies
  simp only [hrest, Multiset.countP_cons] at honce
  rw [hrest, Multiset.map_cons, Multiset.sum_cons] at htotal
  rw [act, herase]
  split_ifs with hserved
  · -- the datagram was injected, and its reply goes to no server
    have hdepth : e.datagram.depth = 0 := by
      by_contra hne
      rw [if_neg hne] at hreplies
      exact hreplies.1 hserved.1
    rw [if_pos hdepth] at hreplies
    have hreply : e.datagram.reply.dst ∉ servers := hgenuine _ hreplies.1 hserved.1
    refine ⟨?_, ?_, fun i => ?_, ?_⟩
    · simp only [Multiset.mem_cons, forall_eq_or_imp]
      exact ⟨hreply, hreplies.2⟩
    · intro t ht
      rcases List.mem_append.mp ht with hold | hnew
      · exact hfeedback t hold
      · rw [List.mem_singleton.mp hnew, hdepth]
    · have hi := honce i
      simp only [hdepth, true_and] at hi
      simp only [List.countP_append, List.countP_singleton, Multiset.countP_cons, Traced.reply]
      simp only [Nat.add_one_ne_zero, false_and, if_false, decide_eq_true_eq]
      omega
    · simp only [weight, hdepth, if_pos] at htotal
      simp only [Multiset.map_cons, Multiset.sum_cons, weight, Traced.reply]
      simp only [Nat.add_one_ne_zero, if_false]
      omega
  · have hweight : 1 ≤ weight e.datagram := by
      rw [weight]
      split_ifs <;> omega
    refine ⟨hreplies.2, hfeedback, fun i => ?_, ?_⟩
    · have hi := honce i
      simp only
      omega
    · simp only
      omega

/-- Genuine traffic is quiet in every run. -/
lemma quiet_of_genuine (hgenuine : Genuine servers injected) {es : List Event}
    (h : (machine servers).Allowed (start injected) es) :
    Quiet injected ((machine servers).exec (start injected) es) := by
  set s := (machine servers).exec (start injected) es
  have hsettling : Settling servers injected s :=
    h.induction (Settling.step hgenuine) settling_start
  refine ⟨hsettling.noFeedback, fun i => ?_, ?_⟩
  · calc s.answered.countP (fun t => t.origin = i)
        ≤ s.answered.countP (fun t => t.origin = i)
          + s.inFlight.countP (fun t => t.depth = 0 ∧ t.origin = i) := Nat.le_add_right _ _
      _ ≤ 1 := hsettling.once i
  · calc s.deliveries
        ≤ s.deliveries + (s.inFlight.map weight).sum := Nat.le_add_right _ _
      _ ≤ 2 * injected.length := hsettling.total

end Genuine

/-- The first so many deliveries between two servers. -/
def volley : ℕ → Traced → List Event
  | 0, _ => []
  | n + 1, t => ⟨t, true⟩ :: volley n t.reply

/-- A datagram from a server to a server comes back as one. -/
lemma volley_spec (n : ℕ) {s : Echo} {t : Traced} (ht : t ∈ s.inFlight) (hdst : t.dst ∈ servers)
    (hsrc : t.src ∈ servers) :
    (machine servers).Allowed s (volley n t) ∧
      ((machine servers).exec s (volley n t)).deliveries = s.deliveries + n := by
  induction n generalizing s t with
  | zero => exact ⟨trivial, rfl⟩
  | succ n ih =>
      have hact : act servers s ⟨t, true⟩ = ⟨t.reply ::ₘ s.inFlight.erase t, s.answered ++ [t],
          s.deliveries + 1⟩ := by
        simp [act, hdst]
      obtain ⟨hallowed, hdeliveries⟩ := ih (s := act servers s ⟨t, true⟩) (t := t.reply)
        (by simp [hact]) hsrc hdst
      have hone : (act servers s ⟨t, true⟩).deliveries = s.deliveries + 1 := by rw [hact]
      refine ⟨⟨ht, hallowed⟩, ?_⟩
      rw [hone, Nat.add_right_comm, Nat.add_assoc] at hdeliveries
      exact hdeliveries

/-- One datagram for a server with the source of a server is enough for any number of
deliveries. -/
theorem unbounded {injected : List Datagram} (h : ¬ Genuine servers injected) (n : ℕ) :
    ∃ es, (machine servers).Allowed (start injected) es ∧
      ((machine servers).exec (start injected) es).deliveries = n := by
  simp only [Genuine, not_forall, not_not] at h
  obtain ⟨d, hd, hdst, hsrc⟩ := h
  obtain ⟨i, hi⟩ := List.mem_iff_getElem?.mp hd
  have hmem : (⟨d, i, 0⟩ : Traced) ∈ (start injected).inFlight :=
    List.mem_map.mpr ⟨(d, i), List.mem_zipIdx_iff_getElem?.mpr hi, rfl⟩
  obtain ⟨hallowed, hdeliveries⟩ := volley_spec servers n hmem hdst hsrc
  exact ⟨_, hallowed, by simpa [start] using hdeliveries⟩

/-- Every run is quiet exactly if no injected datagram for a server has the address of a
server as its source; otherwise the deliveries have no bound. -/
theorem quiet_iff (injected : List Datagram) :
    ((∀ es, (machine servers).Allowed (start injected) es →
        Quiet injected ((machine servers).exec (start injected) es)) ↔
      Genuine servers injected) ∧
    (¬ Genuine servers injected → ∀ n, ∃ es, (machine servers).Allowed (start injected) es ∧
      ((machine servers).exec (start injected) es).deliveries = n) := by
  refine ⟨⟨fun hquiet => ?_, fun hgenuine es h => quiet_of_genuine hgenuine h⟩,
    fun h n => unbounded servers h n⟩
  by_contra h
  obtain ⟨es, hallowed, hdeliveries⟩ := unbounded servers h (2 * injected.length + 1)
  have hfinite := (hquiet es hallowed).finite
  omega

/-- A datagram for one server with the source of the other. -/
def spoofed : List Datagram := [⟨⟨1, 48807⟩, ⟨2, 48807⟩, bytes "bip?"⟩]

/-- The second server answers the reply of the first. -/
theorem feeds_itself :
    ¬ ∀ es, (machine {⟨1, 48807⟩, ⟨2, 48807⟩}).Allowed (start spoofed) es →
      Quiet spoofed ((machine {⟨1, 48807⟩, ⟨2, 48807⟩}).exec (start spoofed) es) := by
  intro h
  have hquiet := h (volley 2 ⟨⟨⟨1, 48807⟩, ⟨2, 48807⟩, bytes "bip?"⟩, 0, 0⟩) (by decide)
  exact absurd hquiet.noFeedback (by decide)

end Echo

end Hearthbeat
