import Hearthbeat.Detector.Basic
import Mathlib.Data.List.DropRight

/-!
What a detector announces, timely or not.

* `act_notices`: a step sends no notice and keeps its opinion, or sends the one
  notice that says the opposite of its opinion and turns it over.
* `Alternates`, `announced_exec`: the notices are up, down, up, … and the peer is
  online exactly if their number is odd.
* `view`, `lost`, `view_exec`: the opinion agrees with the last notice that was
  delivered exactly if an even number of notices was lost since.
-/

namespace Hearthbeat.Detector

/-! ### Alternating words -/

/-- The word true, false, true, … of some length. -/
def Alternates (l : List Bool) : Prop := ∀ k b, l[k]? = some b → b = (k % 2 == 0)

@[simp] lemma alternates_nil : Alternates [] := by
  intro k b h
  simp at h

lemma alternates_concat {l : List Bool} {b : Bool} :
    Alternates (l ++ [b]) ↔ Alternates l ∧ b = (l.length % 2 == 0) := by
  constructor
  · intro h
    refine ⟨fun k c hk => h k c ?_, h l.length b (by simp)⟩
    have hlt : k < l.length := (List.getElem?_eq_some_iff.mp hk).1
    rw [List.getElem?_append_left hlt]
    exact hk
  · rintro ⟨hl, hb⟩ k c hk
    rcases Nat.lt_trichotomy k l.length with hlt | rfl | hgt
    · rw [List.getElem?_append_left hlt] at hk
      exact hl k c hk
    · have hbc : b = c := by simpa using hk
      rw [← hbc, hb]
    · have hlen : l.length + 1 ≤ k := hgt
      rw [List.getElem?_eq_none (by simpa using hlen)] at hk
      cases hk

/-- The last letter of an alternating word is true exactly if its length is
odd. -/
lemma Alternates.getLast? {l : List Bool} (h : Alternates l) :
    l.getLast? = some true ↔ l.length % 2 = 1 := by
  induction l using List.reverseRecOn with
  | nil => simp
  | append_singleton l b _ =>
      obtain ⟨-, hb⟩ := alternates_concat.mp h
      rw [List.getLast?_concat, hb, List.length_append, List.length_singleton]
      simp only [Option.some.injEq, beq_iff_eq]
      omega

/-! ### The notices of a detector -/

/-- What the notices said, in order. -/
def said {T : Type*} (l : List (Obs T)) : List Bool := (notices l).map Prod.fst

variable {T : Type*} [AddCommGroup T]

/-- What a step announces. -/
lemma act_notices (e : T) (s : State T) (ev : Event T) :
    (notices (act e s ev).obs = notices s.obs ∧ (act e s ev).online = s.online) ∨
      ∃ ok, notices (act e s ev).obs = notices s.obs ++ [(!s.online, ok)] ∧
        (act e s ev).online = !s.online := by
  cases ev with
  | tick d => exact Or.inl ⟨rfl, rfl⟩
  | answer ok took =>
      cases hon : s.online with
      | true =>
          rw [act_answer_online ok took hon]
          exact Or.inl ⟨by simp, hon⟩
      | false =>
          rw [act_answer_offline ok took hon]
          exact Or.inr ⟨ok, by simp, rfl⟩
  | expire ok took =>
      cases hon : s.online with
      | true =>
          rw [act_expire_online ok took hon]
          exact Or.inr ⟨ok, by simp, rfl⟩
      | false =>
          rw [act_expire_offline ok took hon]
          exact Or.inl ⟨rfl, hon⟩

/-- The notices alternate, beginning with up, and the opinion is the last of
them. -/
structure Announced (s : State T) : Prop where
  alternates : Alternates (said s.obs)
  online : s.online = ((said s.obs).length % 2 == 1)

lemma Announced.step {e : T} (s : State T) (ev : Event T) (h : Announced s) :
    Announced (act e s ev) := by
  rcases act_notices e s ev with ⟨hn, hon⟩ | ⟨ok, hn, hon⟩
  · have hsaid : said (act e s ev).obs = said s.obs := by rw [said, hn, said]
    exact ⟨hsaid ▸ h.alternates, by rw [hon, hsaid, h.online]⟩
  · have hsaid : said (act e s ev).obs = said s.obs ++ [!s.online] := by
      rw [said, hn, List.map_append, said]
      rfl
    have hpar : (!s.online) = ((said s.obs).length % 2 == 0) := by
      rw [h.online]
      rcases Nat.mod_two_eq_zero_or_one (said s.obs).length with h0 | h0 <;> simp [h0]
    constructor
    · rw [hsaid]
      exact alternates_concat.mpr ⟨h.alternates, hpar⟩
    · rw [hon, hsaid, hpar, List.length_append, List.length_singleton]
      rcases Nat.mod_two_eq_zero_or_one (said s.obs).length with h0 | h0 <;>
        simp [h0, Nat.add_mod]

/-- Every sequence of events is announced by alternating notices. -/
theorem announced_exec (e t₀ : T) (es : List (Event T)) [LinearOrder T] :
    Announced ((machine e).exec (start e t₀) es) :=
  Machine.exec_induction (P := Announced) Announced.step
    ⟨by simp [start, said], by simp [start, said]⟩ es

/-! ### What is seen of the notices -/

/-- The last opinion that was delivered; none counts as down. -/
def view (l : List (Bool × Bool)) : Bool :=
  (latest (fun n => if n.2 then some n.1 else none) l).getD false

/-- The number of notices lost since the last delivered one. -/
def lost (l : List (Bool × Bool)) : ℕ := (l.rtakeWhile fun n => !n.2).length

lemma view_delivered (l : List (Bool × Bool)) (up : Bool) : view (l ++ [(up, true)]) = up := by
  rw [view, latest_concat_some (b := up) _ (by simp)]
  rfl

lemma view_lost (l : List (Bool × Bool)) (up : Bool) : view (l ++ [(up, false)]) = view l := by
  rw [view, latest_concat_none _ (by simp), view]

lemma lost_delivered (l : List (Bool × Bool)) (up : Bool) : lost (l ++ [(up, true)]) = 0 := by
  rw [lost, List.rtakeWhile_concat_neg _ _ _ (by simp)]
  rfl

lemma lost_lost (l : List (Bool × Bool)) (up : Bool) :
    lost (l ++ [(up, false)]) = lost l + 1 := by
  rw [lost, List.rtakeWhile_concat_pos _ _ _ (by simp), List.length_append, lost]
  rfl

/-- The opinion is the delivered one, turned over once for every notice lost
since. -/
def Viewed (s : State T) : Prop :=
  s.online = (view (notices s.obs) == (lost (notices s.obs) % 2 == 0))

lemma Viewed.step {e : T} (s : State T) (ev : Event T) (h : Viewed s) :
    Viewed (act e s ev) := by
  rw [Viewed] at h ⊢
  rcases act_notices e s ev with ⟨hn, hon⟩ | ⟨ok, hn, hon⟩
  · rw [hn, hon, h]
  · rw [hn, hon]
    cases ok with
    | true =>
        rw [view_delivered, lost_delivered]
        simp
    | false =>
        rw [view_lost, lost_lost, h]
        rcases Nat.mod_two_eq_zero_or_one (lost (notices s.obs)) with h0 | h0 <;>
          simp [h0, Nat.add_mod]

/-- After every sequence of events the opinion is read off what was delivered
and how much was lost since. -/
theorem view_exec (e t₀ : T) (es : List (Event T)) [LinearOrder T] :
    Viewed ((machine e).exec (start e t₀) es) :=
  Machine.exec_induction (P := Viewed) Viewed.step (by simp [Viewed, start, view, lost]) es

end Hearthbeat.Detector
