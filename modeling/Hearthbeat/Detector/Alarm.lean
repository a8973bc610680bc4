import Hearthbeat.Detector.Basic

/-!
When a timely detector raises its alarm.

* `Exact`: while the peer is online the deadline is `e` after its last answer
  and not passed, every down notice stands exactly `e` after the last answer
  before it, and a peer that is offline after an answer has been reported down
  since. `Exact.step` is the step lemma and `exact_of_run` the run lemma.
* `Ordered`: the observations are in the order of their times.
* `no_alarm_of_bridged`: if every answer is followed by another before `e` has
  passed, no down notice is ever sent.
-/

namespace Hearthbeat.Detector

variable {T : Type*}

/-- Since the last answer, at `a`, the peer has been reported down. -/
def Reported (l : List (Obs T)) (a : T) : Prop :=
  ∃ h₁ h₂, l = h₁ ++ h₂ ∧ lastAnswer h₁ = some a ∧ (∀ x ∈ h₂, x.answer? = none) ∧
    ∃ ok t, Obs.notice false ok t ∈ h₂

variable [AddCommGroup T]

/-- A down notice stands exactly `e` after the last answer before it. -/
def OnTime (e : T) (h : List (Obs T)) (x : Obs T) : Prop :=
  ∀ ok t, x = .notice false ok t → ∃ a, lastAnswer h = some a ∧ t = a + e

lemma onTime_answer (e : T) (h : List (Obs T)) (t : T) : OnTime e h (.answer t) := by
  intro ok t' heq
  cases heq

lemma onTime_up (e : T) (h : List (Obs T)) (ok : Bool) (t : T) :
    OnTime e h (.notice true ok t) := by
  intro ok' t' heq
  cases heq

variable [LinearOrder T]

/-- The detector is exact: its deadline is the right one and not passed, and
its alarms are on time and not missing. -/
structure Exact (e : T) (s : State T) : Prop where
  due : s.now ≤ s.deadline
  online : s.online = true → ∃ a, lastAnswer s.obs = some a ∧ s.deadline = a + e
  alarms : Justified (OnTime e) s.obs
  reported : s.online = false → ∀ a, lastAnswer s.obs = some a → Reported s.obs a

variable [IsOrderedAddMonoid T]

lemma exact_start {e : T} (he : 0 < e) (t₀ : T) : Exact e (start e t₀) where
  due := by simp only [start]; grind
  online := by simp [start]
  alarms := by simp [start]
  reported := by simp [start]

/-- Every timely step keeps the detector exact. -/
lemma Exact.step {e : T} (he : 0 < e) (s : State T) (ev : Event T) (h : Exact e s)
    (hg : guard s ev) : Exact e (act e s ev) := by
  cases ev with
  | tick d => exact ⟨hg.2, h.online, h.alarms, h.reported⟩
  | answer ok took =>
      obtain rfl : took = 0 := hg
      cases hon : s.online with
      | true =>
          rw [act_answer_online ok 0 hon]
          refine ⟨?_, fun _ => ⟨s.now, by simp, rfl⟩, ?_, by simp [hon]⟩
          · show s.now ≤ s.now + e
            grind
          · exact justified_concat.mpr ⟨h.alarms, onTime_answer e _ _⟩
      | false =>
          rw [act_answer_offline ok 0 hon]
          refine ⟨?_, fun _ => ⟨s.now, by simp, by simp⟩, ?_, by simp⟩
          · show s.now + 0 ≤ s.now + 0 + e
            grind
          · exact justified_concat₂.mpr ⟨h.alarms, onTime_answer e _ _, onTime_up e _ _ _⟩
  | expire ok took =>
      obtain ⟨rfl, hdue⟩ : took = 0 ∧ s.deadline ≤ s.now := hg
      have hnow : s.now = s.deadline := le_antisymm h.due hdue
      cases hon : s.online with
      | true =>
          obtain ⟨a, ha, hd⟩ := h.online hon
          rw [act_expire_online ok 0 hon]
          refine ⟨?_, by simp, ?_, ?_⟩
          · show s.now + 0 ≤ s.deadline + e
            grind
          · refine justified_concat.mpr ⟨h.alarms, fun ok' t ht => ⟨a, ha, ?_⟩⟩
            cases ht
            exact hnow.trans hd
          · intro _ b hb
            rw [lastAnswer_notice] at hb
            exact ⟨s.obs, [.notice false ok s.now], rfl, hb, by simp [Obs.answer?],
              ok, s.now, by simp⟩
      | false =>
          rw [act_expire_offline ok 0 hon]
          refine ⟨?_, by simp [hon], h.alarms, h.reported⟩
          show s.now ≤ s.deadline + e
          grind

/-- Timely runs are exact. -/
theorem exact_of_run {e t₀ : T} (he : 0 < e) {es : List (Event T)}
    (h : (machine e).Allowed (start e t₀) es) : Exact e ((machine e).exec (start e t₀) es) :=
  h.induction (Exact.step he) (exact_start he t₀)

/-! ### The order of the observations -/

omit [AddCommGroup T] [IsOrderedAddMonoid T] in
/-- In a history ordered by time no answer is later than the last one. -/
lemma le_lastAnswer {l : List (Obs T)} (h : Justified (fun h x => ∀ y ∈ h, y.time ≤ x.time) l)
    {a b : T} (ha : lastAnswer l = some a) (hb : .answer b ∈ l) : b ≤ a := by
  induction l using List.reverseRecOn with
  | nil => simp at hb
  | append_singleton l x ih =>
      obtain ⟨hl, hx⟩ := justified_concat.mp h
      rw [List.mem_append, List.mem_singleton] at hb
      cases x with
      | answer t =>
          have hta : t = a := by simpa using ha
          subst hta
          rcases hb with hb | hb
          · exact hx _ hb
          · cases hb
            exact le_rfl
      | notice up ok t =>
          rw [lastAnswer_notice] at ha
          exact ih hl ha (hb.resolve_right (by simp))

/-- Observations stand in the order of their times, from the start on, none of
them in the future. -/
structure Ordered (t₀ : T) (s : State T) : Prop where
  started : t₀ ≤ s.now
  since : ∀ x ∈ s.obs, t₀ ≤ x.time
  past : ∀ x ∈ s.obs, x.time ≤ s.now
  order : Justified (fun h x => ∀ y ∈ h, y.time ≤ x.time) s.obs

omit [AddCommGroup T] [IsOrderedAddMonoid T] in
/-- Observations made now keep the order, and may be followed by a later now. -/
lemma Ordered.extend {t₀ : T} {s s' : State T} (h : Ordered t₀ s) {l : List (Obs T)}
    (hl : ∀ x ∈ l, x.time = s.now) (hobs : s'.obs = s.obs ++ l) (hnow : s.now ≤ s'.now) :
    Ordered t₀ s' := by
  refine ⟨h.started.trans hnow, fun x hx => ?_, fun x hx => ?_, ?_⟩
  · rw [hobs, List.mem_append] at hx
    rcases hx with hx | hx
    · exact h.since x hx
    · exact h.started.trans (hl x hx).ge
  · rw [hobs, List.mem_append] at hx
    rcases hx with hx | hx
    · exact (h.past x hx).trans hnow
    · exact (hl x hx).le.trans hnow
  · rw [hobs]
    clear hobs
    induction l using List.reverseRecOn with
    | nil => simpa using h.order
    | append_singleton l x ih =>
        rw [← List.append_assoc, justified_concat]
        refine ⟨ih fun y hy => hl y (by simp [hy]), fun y hy => ?_⟩
        rw [hl x (by simp)]
        rcases List.mem_append.mp hy with hy | hy
        · exact h.past y hy
        · exact (hl y (by simp [hy])).le

lemma Ordered.step {e t₀ : T} (s : State T) (ev : Event T) (h : Ordered t₀ s)
    (hg : guard s ev) : Ordered t₀ (act e s ev) := by
  cases ev with
  | tick d =>
      refine h.extend (l := []) (by simp) (by simp [act]) ?_
      show s.now ≤ s.now + d
      exact le_add_of_nonneg_right hg.1
  | answer ok took =>
      obtain rfl : took = 0 := hg
      cases hon : s.online with
      | true =>
          rw [act_answer_online ok 0 hon]
          exact h.extend (by simp [Obs.time]) rfl le_rfl
      | false =>
          rw [act_answer_offline ok 0 hon]
          exact h.extend (by simp [Obs.time]) rfl (by simp)
  | expire ok took =>
      obtain ⟨rfl, -⟩ : took = 0 ∧ s.deadline ≤ s.now := hg
      cases hon : s.online with
      | true =>
          rw [act_expire_online ok 0 hon]
          exact h.extend (by simp [Obs.time]) rfl (by simp)
      | false =>
          rw [act_expire_offline ok 0 hon]
          exact h.extend (l := []) (by simp) (by simp) le_rfl

theorem ordered_of_run {e t₀ : T} {es : List (Event T)}
    (h : (machine e).Allowed (start e t₀) es) : Ordered t₀ ((machine e).exec (start e t₀) es) :=
  h.induction Ordered.step ⟨le_rfl, by simp [start], by simp [start], by simp [start]⟩

/-! ### No alarm -/

omit [IsOrderedAddMonoid T] in
/-- Where every answer is followed by a next one before `e` has passed, no down
notice is sent. -/
theorem no_alarm_of_bridged {e t₀ : T} {s : State T} (hexact : Exact e s) (hord : Ordered t₀ s)
    (hbridge : ∀ a, .answer a ∈ s.obs → a + e ≤ s.now →
      ∃ b, .answer b ∈ s.obs ∧ a < b ∧ b < a + e) (ok : Bool) (t : T) :
    .notice false ok t ∉ s.obs := by
  intro hmem
  obtain ⟨h₁, h₂, hsplit⟩ := List.append_of_mem hmem
  obtain ⟨a, ha, rfl⟩ := hexact.alarms.split hsplit ok t rfl
  obtain ⟨x, hx, hxa⟩ := mem_of_latest _ ha
  obtain rfl : x = .answer a := by cases x <;> simp_all [Obs.answer?]
  obtain ⟨b, hb, hab, hbe⟩ := hbridge a (by rw [hsplit]; simp [hx]) (hord.past _ hmem)
  rw [hsplit, List.mem_append, List.mem_cons] at hb
  rcases hb with hb | hb | hb
  · -- an answer before the alarm is not later than the last one before it
    have horder := hord.order
    rw [hsplit] at horder
    exact absurd hab (not_lt.mpr (le_lastAnswer horder.of_append ha hb))
  · cases hb
  · -- an answer after the alarm is not earlier than the alarm
    obtain ⟨g₁, g₂, rfl⟩ := List.append_of_mem hb
    have hsplit' : s.obs = (h₁ ++ .notice false ok (a + e) :: g₁) ++ .answer b :: g₂ := by
      rw [hsplit]; simp
    have hle : a + e ≤ b := hord.order.split hsplit' (.notice false ok (a + e)) (by simp)
    exact absurd hbe (not_lt.mpr hle)

end Hearthbeat.Detector
