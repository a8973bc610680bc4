import Hearthbeat.Detector.Alarm

/-!
What a detector has observed, if its alarms come late.

* `Timed t₀ now l`: the observations `l` are in the order of their times, all of
  them between the start and the present.
* `AlarmWithin e w`: a down notice stands at least `e` and at most `e + w` after the
  last answer before it.
* `no_late_alarm`: if every answer is followed by another before `e` has passed, no
  down notice is sent, however late they come.
-/

namespace Hearthbeat.Detector

variable {T : Type*} [LinearOrder T]

/-- Observations in the order of their times. -/
structure Timed (t₀ now : T) (l : List (Obs T)) : Prop where
  started : t₀ ≤ now
  since : ∀ x ∈ l, t₀ ≤ x.time
  past : ∀ x ∈ l, x.time ≤ now
  order : Justified (fun h x => ∀ y ∈ h, y.time ≤ x.time) l

section Timed

variable {t₀ now now' : T} {l : List (Obs T)}

lemma Timed.wait (h : Timed t₀ now l) (hnow : now ≤ now') : Timed t₀ now' l :=
  ⟨h.started.trans hnow, h.since, fun x hx => (h.past x hx).trans hnow, h.order⟩

/-- One more observation is made now. -/
lemma Timed.concat (h : Timed t₀ now l) {x : Obs T} (hx : x.time = now) :
    Timed t₀ now (l ++ [x]) := by
  have hmem : ∀ y ∈ l ++ [x], y ∈ l ∨ y = x := by simp
  refine ⟨h.started, fun y hy => ?_, fun y hy => ?_, justified_concat.mpr ⟨h.order, ?_⟩⟩
  · rcases hmem y hy with hy | rfl
    · exact h.since y hy
    · exact hx ▸ h.started
  · rcases hmem y hy with hy | rfl
    · exact h.past y hy
    · exact hx.le
  · exact fun y hy => hx ▸ h.past y hy

end Timed

variable [AddCommGroup T]

/-- A down notice stands between `e` and `e + w` after the last answer before it. -/
def AlarmWithin (e w : T) (h : List (Obs T)) (x : Obs T) : Prop :=
  ∀ ok t, x = .notice false ok t → ∃ a, lastAnswer h = some a ∧ a + e ≤ t ∧ t ≤ a + e + w

section Alarms

variable {e w t₀ now : T} {l : List (Obs T)}

lemma alarmWithin_answer (t : T) : AlarmWithin e w l (.answer t) := by
  intro ok t' heq
  cases heq

lemma alarmWithin_up (ok : Bool) (t : T) : AlarmWithin e w l (.notice true ok t) := by
  intro ok' t' heq
  cases heq

/-- Where every answer is followed by a next one before `e` has passed, no down
notice is sent. -/
theorem no_late_alarm (halarms : Justified (AlarmWithin e w) l) (htimed : Timed t₀ now l)
    (hbridge : ∀ a, .answer a ∈ l → a + e ≤ now → ∃ b, .answer b ∈ l ∧ a < b ∧ b < a + e)
    (ok : Bool) (t : T) : .notice false ok t ∉ l := by
  intro hmem
  obtain ⟨h₁, h₂, rfl⟩ := List.append_of_mem hmem
  obtain ⟨a, ha, hlow, -⟩ := halarms.split rfl ok t rfl
  obtain ⟨x, hx, hxa⟩ := mem_of_latest _ ha
  obtain rfl : x = .answer a := by cases x <;> simp_all [Obs.answer?]
  obtain ⟨b, hb, hab, hbe⟩ := hbridge a (by simp [hx]) (hlow.trans (htimed.past _ hmem))
  rw [List.mem_append, List.mem_cons] at hb
  rcases hb with hb | hb | hb
  · -- an answer before the alarm is not later than the last one before it
    exact absurd hab (not_lt.mpr (le_lastAnswer htimed.order.of_append ha hb))
  · cases hb
  · -- an answer after the alarm is not earlier than the alarm
    obtain ⟨g₁, g₂, rfl⟩ := List.append_of_mem hb
    have hsplit : h₁ ++ .notice false ok t :: (g₁ ++ .answer b :: g₂)
        = (h₁ ++ .notice false ok t :: g₁) ++ .answer b :: g₂ := by simp
    have hle : t ≤ b := htimed.order.split hsplit (.notice false ok t) (by simp)
    exact absurd hbe (not_lt.mpr (hlow.trans hle))

end Alarms

end Hearthbeat.Detector
