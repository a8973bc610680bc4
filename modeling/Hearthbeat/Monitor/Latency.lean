import Hearthbeat.Monitor.Polls

/-!
What the recorded latencies measure.

Requests and answers carry no identifier, and one departure is kept for a name.
So a recorded interval is the time since the last request sent to the name
(`latency_since_last_request`), which is not the request that the answer replies
to if another was sent meanwhile (`latency_of_late_answer`).

* `lastSent`: the time of the last request to a name, which is what the
  departures of `logtime.c` are (`DeparturesKept`).
* `Measured`: what justifies a record in the history, and `LatencyInv`, what every
  event keeps.
* `records_le_answers`: a poll contributes no more records than answers to it are
  handled.
-/

namespace Hearthbeat.Monitor

/-- The time of a request sent to a target of that name. -/
def sentTo (cfg : Config) (name : Text) : Act → Option ℤ
  | .poll i (some _) t => if cfg.targets[i]?.map Entry.name = some name then some t else none
  | _ => none

/-- The time of the last request sent to a target of that name. -/
def lastSent (cfg : Config) (name : Text) (hist : List Act) : Option ℤ :=
  latest (sentTo cfg name) hist

/-- Every answer replies to an earlier request, sent to where the answer comes
from. Answers may be late, lost, out of order, or come more than once. -/
def RepliesTo (h : List Act) (x : Act) : Prop :=
  ∀ src who re t, x = .answer src who re t → ∃ i t', h[re]? = some (.poll i (some src) t')

/-- A record holds the time since the last request to the name of its target, and
follows its answer, with at most a notice between them. -/
def Measured (wall : ℤ → Reading) (cfg : Config) (h : List Act) (x : Act) : Prop :=
  ∀ i re interval t, x = .record i re interval t →
    (∃ entry t', cfg.targets[i]? = some entry ∧ lastSent cfg entry.name h = some t' ∧
      interval.nanos = (wall t).nanos - (wall t').nanos) ∧
    ∃ src ta g l, h = g ++ .answer src (some i) re ta :: l ∧ ∀ y ∈ l, y.isNotice = true

/-- The departures of `logtime.c` are the times of the last requests. -/
def DeparturesKept (wall : ℤ → Reading) (cfg : Config) (m : Monitor) : Prop :=
  ∀ name, departure m.clocks name = (lastSent cfg name m.hist).map wall

section Steps

variable {wall : ℤ → Reading} {cfg : Config} {m m' : Monitor} {i : ℕ}

lemma measured_of_not_record {h : List Act} {x : Act}
    (hx : ∀ i re interval t, x ≠ .record i re interval t) : Measured wall cfg h x :=
  fun i re interval t heq => absurd heq (hx i re interval t)

lemma measured_of_notice {h : List Act} {x : Act} {up : Bool}
    (hx : ∃ text ok t, x = .notice i up text ok t) : Measured wall cfg h x := by
  obtain ⟨text, ok, t, rfl⟩ := hx
  exact measured_of_not_record (by simp)

/-- Without a poll no request was sent. -/
lemma lastSent_passive (h : Passive m m') (name : Text) :
    lastSent cfg name m'.hist = lastSent cfg name m.hist := by
  obtain ⟨l, hl, hpoll⟩ := h.hist
  have hnone : latest (sentTo cfg name) l = none := by
    refine (latest_eq_none _).mpr fun x hx => ?_
    have hx' := hpoll x hx
    cases x <;> simp_all [sentTo, Act.isPoll]
  rw [hl, lastSent, latest_append, hnone, Option.none_or, lastSent]

lemma DeparturesKept.passive (h : DeparturesKept wall cfg m) (hp : Passive m m') :
    DeparturesKept wall cfg m' := by
  intro name
  rw [hp.clocks, lastSent_passive hp, h name]

/-- A poll sets the departure of its name as it sends the request. -/
lemma DeparturesKept.sendBip (h : DeparturesKept wall cfg m) {x : Entry}
    (hx : cfg.targets[i]? = some x) (hlen : x.name.length < 256) {t : Target}
    (ht : m.targets[i]? = some t) (hname : t.name = x.name) (res : Resolver) (sent : Bool) :
    DeparturesKept wall cfg (m.sendBip wall i res sent) := by
  have hunsent : DeparturesKept wall cfg (m.log (.poll i none m.now)) := by
    intro name
    rw [log_clocks, log_hist, lastSent, latest_concat_none _ rfl]
    exact h name
  simp only [Monitor.sendBip, ht]
  split
  · exact hunsent
  · split_ifs
    · intro name
      rw [departure_logtimeSetStart _ _ _ (hname ▸ hlen), log_hist, lastSent, latest_concat,
        hname, h name, lastSent]
      by_cases hn : x.name = name <;> simp [sentTo, hx, hn]
    · exact hunsent

/-- What is kept along every sequence of events. -/
structure LatencyInv (wall : ℤ → Reading) (cfg : Config) (t₀ : ℤ) (m : Monitor) : Prop where
  keeps : Keeps (start cfg t₀) m
  departures : DeparturesKept wall cfg m
  measured : Justified (Measured wall cfg) m.hist

/-- The record of an answer measures the time since the last request. -/
lemma LatencyInv.recordAnswer {t₀ : ℤ} (h : LatencyInv wall cfg t₀ m) {client : SockAddr}
    (re : ℕ) (c : Call) {t : Target} (ht : m.targets[i]? = some t) :
    Justified (Measured wall cfg)
      (((m.log (.answer client (some i) re m.now)).resetErrorTimer i c).recordAnswer wall i re
        t.name).hist := by
  set m₁ := m.log (.answer client (some i) re m.now)
  have hpassive : Passive m (m₁.resetErrorTimer i c) :=
    (Passive.log m rfl).trans (Passive.resetErrorTimer m₁ i c)
  obtain ⟨l, hl, hnotice⟩ := resetErrorTimer_hist (m := m₁) c ht
  have hjust : Justified (Measured wall cfg) (m₁.resetErrorTimer i c).hist := by
    rw [hl]
    have hanswer : Justified (Measured wall cfg) m₁.hist :=
      justified_concat.mpr ⟨h.measured, measured_of_not_record (by simp)⟩
    exact hanswer.append fun x hx g => measured_of_notice (hnotice x hx)
  cases hrec : logtimeSetRecord (m₁.resetErrorTimer i c).clocks t.name
      (wall (m₁.resetErrorTimer i c).now) with
  | none => simpa [Monitor.recordAnswer, hrec] using hjust
  | some interval =>
      have hhist : ((m₁.resetErrorTimer i c).recordAnswer wall i re t.name).hist
          = (m₁.resetErrorTimer i c).hist
            ++ [.record i re interval (m₁.resetErrorTimer i c).now] := by
        simp [Monitor.recordAnswer, hrec]
      -- the clock of the name holds the departure of the last request
      rw [logtimeSetRecord_eq, hpassive.clocks, h.departures t.name] at hrec
      simp only [Option.map_map, Option.map_eq_some_iff] at hrec
      obtain ⟨t', ht', hinterval⟩ := hrec
      rw [hhist]
      refine justified_concat.mpr ⟨hjust, ?_⟩
      rintro i' re' interval' τ heq
      simp only [Act.record.injEq] at heq
      obtain ⟨rfl, rfl, rfl, rfl⟩ := heq
      have hall : ∀ y ∈ l, y.isNotice = true := fun y hy => by
        obtain ⟨text, ok, τ, rfl⟩ := hnotice y hy
        rfl
      refine ⟨⟨t.entry, t', entry_of_keeps h.keeps ht, ?_, ?_⟩, client, m.now, m.hist, l, ?_, hall⟩
      · rw [lastSent_passive hpassive]
        exact ht'
      · rw [← hinterval]
        exact nanos_timespecDiff _ _
      · rw [hl]
        simp [m₁]

/-- Every event, timely or not, keeps the departures and the records right. -/
lemma LatencyInv.step {t₀ : ℤ} (hnames : ∀ x ∈ cfg.targets, x.name.length < 256) (m : Monitor)
    (ev : Event) (h : LatencyInv wall cfg t₀ m) : LatencyInv wall cfg t₀ (act wall m ev) := by
  have hkeeps := h.keeps.trans (keeps_act wall m ev)
  cases ev with
  | tick d => exact ⟨hkeeps, h.departures.passive (passive_act wall m (by simp)), h.measured⟩
  | poll i res sent =>
      set m₁ := m.modifyTarget i fun t => { t with pollEv := t.pollEv.fire }
      have hdep : DeparturesKept wall cfg m₁ := h.departures
      have hact : act wall m (.poll i res sent) = m₁.sendBip wall i res sent := rfl
      cases ht : m.targets[i]? with
      | none =>
          have ht₁ : m₁.targets[i]? = none := by rw [modifyTarget_same, ht, Option.map_none]
          rw [hact, sendBip_none wall ht₁] at hkeeps ⊢
          exact ⟨hkeeps, hdep, h.measured⟩
      | some t =>
          have ht₁ : m₁.targets[i]? = some { t with pollEv := t.pollEv.fire } := by
            rw [modifyTarget_same, ht, Option.map_some]
          have hx := entry_of_keeps h.keeps ht
          have hlen := hnames t.entry (List.mem_of_getElem? hx)
          obtain ⟨dest, hhist⟩ := sendBip_hist wall ht₁ res sent
          refine ⟨hkeeps, hdep.sendBip hx hlen ht₁ rfl res sent, ?_⟩
          rw [hact, hhist]
          exact justified_concat.mpr ⟨h.measured, measured_of_not_record (by simp)⟩
  | err i c =>
      refine ⟨hkeeps, h.departures.passive (passive_act wall m (by simp)), ?_⟩
      obtain ⟨l, hl, hnotice⟩ := handleErrEvent_hist c
        (m.modifyTarget i fun t => { t with errEv := t.errEv.fire }) i
      rw [act, hl]
      exact h.measured.append fun x hx g => measured_of_notice (hnotice x hx)
  | recv src re res c =>
      refine ⟨hkeeps, h.departures.passive (passive_act wall m (by simp)), ?_⟩
      cases src with
      | none => exact h.measured
      | some client =>
          cases hw : getTarget res m.targets client with
          | none =>
              rw [act, handleAnswer_unattributed c wall re hw]
              exact justified_concat.mpr ⟨h.measured, measured_of_not_record (by simp)⟩
          | some i =>
              have ht := List.getElem?_eq_getElem (getTarget_lt hw)
              rw [act, handleAnswer_attributed c wall re hw ht]
              exact h.recordAnswer re c ht

end Steps

/-! ### Whole runs -/

/-- A record for the answer to the request at place `k`. -/
def recordTo (k : ℕ) : Act → Bool
  | .record _ re _ _ => re == k
  | _ => false

/-- An answer to the request at place `k`. -/
def answerTo (k : ℕ) : Act → Bool
  | .answer _ _ re _ => re == k
  | _ => false

lemma recordTo_eq {k : ℕ} {x : Act} (h : recordTo k x = true) :
    ∃ i interval t, x = .record i k interval t := by
  cases x with
  | record i re interval t =>
      have hre : re = k := by simpa [recordTo] using h
      exact ⟨i, interval, t, by rw [hre]⟩
  | _ => cases h

lemma recordTo_of_isNotice {k : ℕ} {x : Act} (h : x.isNotice = true) : recordTo k x = false := by
  cases x with
  | notice i up text ok t => rfl
  | _ => cases h

/-- Every record has an answer of its own. -/
lemma records_le_answers {wall : ℤ → Reading} {cfg : Config} (k : ℕ) :
    ∀ {hist : List Act}, Justified (Measured wall cfg) hist →
      hist.countP (recordTo k) ≤ hist.countP (answerTo k) := by
  intro hist
  induction hn : hist.length using Nat.strong_induction_on generalizing hist with
  | _ n ih =>
      intro hjust
      rcases List.eq_nil_or_concat hist with rfl | ⟨h, x, rfl⟩
      · simp
      · rw [List.concat_eq_append] at hn hjust ⊢
        obtain ⟨hh, hx⟩ := justified_concat.mp hjust
        rw [List.length_append, List.length_singleton] at hn
        rw [List.countP_append, List.countP_append, List.countP_singleton]
        cases hrec : recordTo k x with
        | false =>
            have hle := ih h.length (by omega) rfl hh
            simp only [Bool.false_eq_true, if_false]
            omega
        | true =>
            -- the record is cut off together with its answer
            obtain ⟨i, interval, t, rfl⟩ := recordTo_eq hrec
            obtain ⟨-, src, ta, g, l, rfl, hnotice⟩ := hx i k interval t rfl
            rw [List.length_append] at hn
            have hle := ih g.length (by omega) rfl hh.of_append
            have hl : l.countP (recordTo k) = 0 := by
              refine List.countP_eq_zero.mpr fun y hy => ?_
              simp [recordTo_of_isNotice (hnotice y hy)]
            have hans : answerTo k (.answer src (some i) k ta) = true := by simp [answerTo]
            have hanr : recordTo k (.answer src (some i) k ta) = false := rfl
            rw [List.countP_append, List.countP_append, List.countP_cons, List.countP_cons,
              hl, hans, hanr]
            simp only [if_true, Bool.false_eq_true, if_false]
            omega

/-- The latencies of a history, each the time since the last request to its
name. -/
structure LatencySinceLastRequest (wall : ℤ → Reading) (cfg : Config) (hist : List Act) :
    Prop where
  interval : ∀ h₁ h₂ i re interval t, hist = h₁ ++ .record i re interval t :: h₂ →
    ∃ entry t', cfg.targets[i]? = some entry ∧ lastSent cfg entry.name h₁ = some t' ∧
      interval.nanos = (wall t).nanos - (wall t').nanos
  roundTrip : ∀ h₁ h₂ i re interval t, hist = h₁ ++ .record i re interval t :: h₂ →
    ∀ entry request t', cfg.targets[i]? = some entry → h₁[re]? = some request →
      sentTo cfg entry.name request = some t' →
      lastSent cfg entry.name (h₁.drop (re + 1)) = none →
      interval.nanos = (wall t).nanos - (wall t').nanos
  once : ∀ k, hist.countP (recordTo k) ≤ hist.countP (answerTo k)

/-- The request after which none was sent is the last one. -/
lemma lastSent_of_getElem {cfg : Config} {name : Text} {h : List Act} {k : ℕ} {x : Act} {t : ℤ}
    (hk : h[k]? = some x) (hx : sentTo cfg name x = some t)
    (hlast : lastSent cfg name (h.drop (k + 1)) = none) : lastSent cfg name h = some t := by
  obtain ⟨hlt, hget⟩ := List.getElem?_eq_some_iff.mp hk
  have hsplit : h = (h.take k ++ [x]) ++ h.drop (k + 1) := by
    rw [← hget, List.append_assoc, List.singleton_append, List.cons_getElem_drop_succ,
      List.take_append_drop]
  rw [hsplit, lastSent, latest_append]
  rw [lastSent] at hlast
  rw [hlast, Option.none_or, latest_concat_some _ hx]

variable (wall : ℤ → Reading) (cfg : Config) (t₀ : ℤ) (es : List Event)

/-- A latency is the time since the last request to the name of its target: the
round trip of the answer's own request if that is the last one. A request has no
more latencies than answers. -/
theorem latency_since_last_request (hnames : ∀ x ∈ cfg.targets, x.name.length < 256) :
    LatencySinceLastRequest wall cfg ((machine wall).exec (start cfg t₀) es).hist := by
  have hinv : LatencyInv wall cfg t₀ ((machine wall).exec (start cfg t₀) es) := by
    refine Machine.exec_induction (LatencyInv.step hnames) ⟨Keeps.refl _, ?_, justified_nil⟩ es
    intro name
    rfl
  refine ⟨?_, ?_, fun k => records_le_answers k hinv.measured⟩
  · intro h₁ h₂ i re interval t hsplit
    exact (hinv.measured.split hsplit i re interval t rfl).1
  · intro h₁ h₂ i re interval t hsplit entry request t' hentry hre hsent hlast
    obtain ⟨entry', τ, hentry', hτ, hinterval⟩ :=
      (hinv.measured.split hsplit i re interval t rfl).1
    obtain rfl : entry' = entry := by simpa [hentry] using hentry'.symm
    have hlater := lastSent_of_getElem hre hsent hlast
    obtain rfl : t' = τ := by simpa [hτ] using hlater.symm
    exact hinterval

theorem latency_since_last_request_polledOften :
    LatencySinceLastRequest Reading.ofNanos polledOften
      ((machine Reading.ofNanos).exec (start polledOften 0) answeredPoll).hist :=
  latency_since_last_request Reading.ofNanos polledOften 0 answeredPoll (by decide)

/-- Every latency is the round trip of its answer's own request. -/
def OwnRoundTrip (wall : ℤ → Reading) (hist : List Act) : Prop :=
  ∀ i re interval t, .record i re interval t ∈ hist →
    ∀ j dest t', hist[re]? = some (.poll j dest t') →
      interval.nanos = (wall t).nanos - (wall t').nanos

/-- The first poll is answered after the second one, and twice. -/
def answeredLate : List Event :=
  [.tick 5000000000, .poll 0 piResolver true, .tick 5000000000, .poll 0 piResolver true,
    .recv (some piAddr) 0 piResolver delivered, .recv (some piAddr) 0 piResolver delivered]

/-- The late answer is logged with the latency of the later poll, and so is its
duplicate. -/
theorem latency_of_late_answer :
    let m := (machine Reading.ofNanos).exec (start polledOften 0) answeredLate
    (machine Reading.ofNanos).Allowed (start polledOften 0) answeredLate ∧
      Justified RepliesTo m.hist ∧ ¬ OwnRoundTrip Reading.ofNanos m.hist ∧
      m.hist.countP (recordTo 0) = 2 := by
  have hhist : ((machine Reading.ofNanos).exec (start polledOften 0) answeredLate).hist
      = [.poll 0 (some piAddr) 5000000000, .poll 0 (some piAddr) 10000000000,
        .answer piAddr (some 0) 0 10000000000,
        .notice 0 true (bytes "local: Host pi is up!") true 10000000000,
        .record 0 0 ⟨0, 0⟩ 10000000000, .answer piAddr (some 0) 0 10000000000,
        .record 0 0 ⟨0, 0⟩ 10000000000] := rfl
  intro m
  have hm : m.hist = _ := hhist
  rw [hm]
  refine ⟨by decide, ?_, ?_, by decide⟩
  · rintro h x hpre src who re t rfl
    cases h with
    | nil => simp at hpre
    | cons y h =>
        obtain ⟨rfl, htail⟩ := List.cons_prefix_cons.mp hpre
        have hmem := htail.subset (List.mem_append_right h (List.mem_singleton_self _))
        obtain ⟨rfl, rfl⟩ : src = piAddr ∧ re = 0 := by
          simp only [List.mem_cons, Act.answer.injEq, reduceCtorEq, List.not_mem_nil] at hmem
          tauto
        exact ⟨0, 5000000000, rfl⟩
  · intro hown
    have hzero := hown 0 0 ⟨0, 0⟩ 10000000000 (by simp) 0 (some piAddr) 5000000000 rfl
    revert hzero
    decide

end Hearthbeat.Monitor
