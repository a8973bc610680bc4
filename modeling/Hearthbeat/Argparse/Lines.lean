import Hearthbeat.Argparse.Reader

/-!
Lines and declarations: what the reader dispatches, against the complete lines of
the file.

* `calls_eq`: the calls are those of the tails of the complete lines, one for a
  tail that declares a registered key (`Declares`).
* `calls_are_lines_iff`: they are complete lines exactly if no line of 255 bytes
  or more has a tail that declares one. The tail of a long comment is dispatched
  otherwise (`comment_dispatched`).
-/

namespace Hearthbeat.Argparse

/-- The calls that the reader makes for a file. -/
def calls (s : Argparse) (f : List Byte) : List (Text × Text) :=
  callsOf ((s.readProperties (some f)).hist.drop s.hist.length)

/-- The line that a call comes from. -/
def declaration (kv : Text × Text) : Text := kv.1 ++ equals :: kv.2

/-- The calls correspond, one to one and in order, to complete lines of the file
that are no comments. -/
structure CallsAreLines (s : Argparse) (f : List Byte) : Prop where
  lines : ((s.calls f).map declaration).Sublist (completeLines newline f)
  form : ∀ kv ∈ s.calls f, equals ∉ kv.1 ∧ declaration kv ≠ [] ∧
    (declaration kv).head? ≠ some hash

/-- A text declares a registered key. -/
def Declares (s : Argparse) (t : Text) : Prop :=
  ∃ kv, t = declaration kv ∧ equals ∉ kv.1 ∧ 0 ∉ t ∧ t.head? ≠ some hash ∧
    (s.getCallback kv.1).isSome = true

/-- The call that the tail of a line makes. -/
def callOf (s : Argparse) (t : Text) : Option (Text × Text) :=
  (s.dispatched (t ++ [newline])).map fun d => (d.1.key, d.2)

section Calls

variable (s : Argparse)

lemma callOf_eq_some {t : Text} (ht : newline ∉ t) {kv : Text × Text} :
    s.callOf t = some kv ↔ t = declaration kv ∧ equals ∉ kv.1 ∧ 0 ∉ t ∧ t.head? ≠ some hash ∧
      (s.getCallback kv.1).isSome = true := by
  obtain ⟨key, value⟩ := kv
  constructor
  · intro h
    obtain ⟨⟨cb, v⟩, hd, heq⟩ := Option.map_eq_some_iff.mp h
    obtain ⟨rfl, rfl⟩ := Prod.mk.inj heq
    obtain ⟨hparse, hcb⟩ := (s.dispatched_eq_some _).mp hd
    obtain ⟨hline, hkey, hnul, hhash⟩ := (parseLine_eq_some ht).mp hparse
    exact ⟨hline, hkey, hnul, hhash, by rw [hcb]; rfl⟩
  · rintro ⟨hline, hkey, hnul, hhash, hsome⟩
    obtain ⟨cb, hcb⟩ := Option.isSome_iff_exists.mp hsome
    have hparse := (parseLine_eq_some ht).mpr ⟨hline, hkey, hnul, hhash⟩
    obtain ⟨-, rfl⟩ := getCallback_mem s hcb
    rw [callOf, (s.dispatched_eq_some _).mpr ⟨hparse, hcb⟩]
    rfl

/-- A chunk without a newline at its end is not dispatched. -/
lemma dispatched_of_unterminated {f c : List Byte} (hc : c ∈ chunks newline 255 f)
    (hend : c.getLast? ≠ some newline) : s.dispatched c = none := by
  cases hp : parseLine c with
  | none => simp [dispatched, hp]
  | some kv =>
      have hmem : newline ∈ c := List.takeWhile_subset _ (mem_of_parseLine hp).2.1
      exact absurd (sep_mem_chunk (by norm_num) hc hmem) hend

/-- The calls are those of the tails of the complete lines. -/
theorem calls_eq (f : List Byte) :
    s.calls f = (completeLines newline f).filterMap fun l => s.callOf (lineTail 255 l) := by
  obtain ⟨l, hturn, hcalls⟩ := s.readLines_turn (chunks newline 255 f)
  have hhist : (s.readProperties (some f)).hist = s.hist ++ l := hturn.hist
  have hskip : (chunks newline 255 f).filterMap
        (fun c => (s.dispatched c).map fun d => (d.1.key, d.2))
      = ((chunks newline 255 f).filter fun c => c.getLast? = some newline).filterMap
        fun c => (s.dispatched c).map fun d => (d.1.key, d.2) := by
    rw [List.filterMap_filter]
    refine List.filterMap_congr fun c hc => ?_
    split_ifs with hend
    · rfl
    · rw [s.dispatched_of_unterminated hc (by simpa using hend)]
      rfl
  calc s.calls f
      = callsOf l := by rw [calls, hhist, List.drop_left]
    _ = ((chunks newline 255 f).filter fun c => c.getLast? = some newline).filterMap
          fun c => (s.dispatched c).map fun d => (d.1.key, d.2) := hcalls.trans hskip
    _ = (completeLines newline f).filterMap fun l => s.callOf (lineTail 255 l) := by
        rw [terminated_chunks (by norm_num), List.filterMap_map]
        rfl

end Calls

/-! ### Lines and their tails -/

section Lines

variable {α β : Type*}

/-- Where a partial function can be undone, its values come from different
places, in order. -/
lemma sublist_of_undo {f : α → Option β} {g : β → α} {l : List α}
    (h : ∀ x ∈ l, ∀ y, f x = some y → g y = x) : ((l.filterMap f).map g).Sublist l := by
  induction l with
  | nil => exact List.Sublist.refl _
  | cons x l ih =>
      have hrest := ih fun z hz => h z (List.mem_cons_of_mem x hz)
      cases hx : f x with
      | none =>
          rw [List.filterMap_cons_none hx]
          exact hrest.cons x
      | some y =>
          rw [List.filterMap_cons_some hx, List.map_cons, h x List.mem_cons_self y hx]
          exact hrest.cons_cons x

end Lines

section Runs

variable (s : Argparse) {f l : List Byte} {kv : Text × Text}

/-- What the call of a line says about it. -/
lemma callOf_lineTail (hl : l ∈ completeLines newline f) :
    s.callOf (lineTail 255 l) = some kv ↔ lineTail 255 l = declaration kv ∧ equals ∉ kv.1 ∧
      0 ∉ lineTail 255 l ∧ (lineTail 255 l).head? ≠ some hash ∧
      (s.getCallback kv.1).isSome = true :=
  s.callOf_eq_some fun h => not_mem_of_completeLines newline hl (List.mem_of_mem_drop h)

lemma mem_calls (h : kv ∈ s.calls f) :
    ∃ l ∈ completeLines newline f, s.callOf (lineTail 255 l) = some kv := by
  rw [calls_eq] at h
  exact List.mem_filterMap.mp h

/-- A line of fewer than 255 bytes that makes a call. -/
def declaresShort (l : Text) : Bool := decide (l.length < 255) && (s.callOf l).isSome

/-- The line that a call comes from, if it came from a whole one. -/
lemma declaresShort_declaration (h : kv ∈ s.calls f) : s.declaresShort (declaration kv) = true := by
  obtain ⟨l, hl, hcall⟩ := s.mem_calls h
  have htail : lineTail 255 l = declaration kv := ((s.callOf_lineTail hl).mp hcall).1
  have hlen : (lineTail 255 l).length < 255 := by
    rw [length_lineTail]
    exact Nat.mod_lt _ (by norm_num)
  rw [htail] at hcall hlen
  simp [declaresShort, hcall, hlen]

/-- If the calls are lines, there are no more than short lines that make one. -/
lemma length_calls_le (h : ((s.calls f).map declaration).Sublist (completeLines newline f)) :
    (s.calls f).length ≤ (completeLines newline f).countP s.declaresShort := by
  have hall : ((s.calls f).map declaration).filter s.declaresShort
      = (s.calls f).map declaration := by
    refine List.filter_eq_self.mpr fun t ht => ?_
    obtain ⟨kv, hkv, rfl⟩ := List.mem_map.mp ht
    exact s.declaresShort_declaration hkv
  have hle := (h.filter s.declaresShort).length_le
  rwa [hall, List.length_map, ← List.countP_eq_length_filter] at hle

/-- A short line that makes a call is its own tail. -/
lemma isSome_of_declaresShort (h : s.declaresShort l = true) :
    (s.callOf (lineTail 255 l)).isSome = true := by
  simp only [declaresShort, Bool.and_eq_true, decide_eq_true_eq] at h
  rw [lineTail_of_lt 255 h.1]
  exact h.2

end Runs

/-- The calls are complete lines exactly if no line of 255 bytes or more has a tail
that declares a registered key. -/
theorem calls_are_lines_iff (s : Argparse) (f : List Byte) :
    CallsAreLines s f ↔
      ¬ ∃ l ∈ completeLines newline f, 255 ≤ l.length ∧ s.Declares (lineTail 255 l) := by
  constructor
  · rintro ⟨hsub, -⟩ ⟨l, hl, hlong, kv, hdecl⟩
    have hcall : (s.callOf (lineTail 255 l)).isSome = true := by
      rw [(s.callOf_lineTail hl).mpr hdecl]
      rfl
    have hshort : s.declaresShort l = false := by
      simp [declaresShort, not_lt.mpr hlong]
    -- the call of the long line is one too many
    have hle := s.length_calls_le hsub
    rw [calls_eq, List.length_filterMap_eq_countP] at hle
    obtain ⟨a, b, hab⟩ := List.append_of_mem hl
    have ha := List.countP_mono_left (l := a) fun x _ hx => s.isSome_of_declaresShort (l := x) hx
    have hb := List.countP_mono_left (l := b) fun x _ hx => s.isSome_of_declaresShort (l := x) hx
    rw [hab, List.countP_append, List.countP_append, List.countP_cons, List.countP_cons,
      hshort] at hle
    simp only [hcall, Bool.false_eq_true, if_true, if_false] at hle
    omega
  · intro h
    refine ⟨?_, fun kv hkv => ?_⟩
    · rw [calls_eq]
      refine sublist_of_undo fun l hl kv hcall => ?_
      obtain hdecl := (s.callOf_lineTail hl).mp hcall
      have hshort : l.length < 255 := by
        by_contra hlong
        exact h ⟨l, hl, not_lt.mp hlong, kv, hdecl⟩
      rw [← hdecl.1, lineTail_of_lt 255 hshort]
    · obtain ⟨l, hl, hcall⟩ := s.mem_calls hkv
      obtain ⟨htail, hkey, -, hhash, -⟩ := (s.callOf_lineTail hl).mp hcall
      exact ⟨hkey, by simp [declaration], htail ▸ hhash⟩

/-! ### A long comment -/

/-- A comment of 269 bytes that mentions a setting at its end. -/
def longComment : List Byte :=
  hash :: List.replicate 254 (byte '-') ++ bytes "err_interval=1"

lemma lineTail_longComment : lineTail 255 longComment = bytes "err_interval=1" := by
  have hlen : longComment.length = 269 := by
    rw [longComment, List.length_append, List.length_cons, List.length_replicate]
    rfl
  rw [lineTail, hlen]
  exact List.drop_left' (by rw [List.length_cons, List.length_replicate])

/-- The setting is dispatched. -/
theorem comment_dispatched :
    ¬ CallsAreLines ((start ⟨fun _ => 0, fun _ => none, fun _ => []⟩).registerArgumentInt
      (bytes "err_interval") 0) (longComment ++ [newline]) := by
  intro h
  have hline : newline ∉ longComment := by decide
  have hcalls : ((start ⟨fun _ => 0, fun _ => none, fun _ => []⟩).registerArgumentInt
      (bytes "err_interval") 0).calls (longComment ++ [newline])
      = [(bytes "err_interval", bytes "1")] := by
    rw [calls_eq, completeLines_append newline hline, completeLines_of_not_mem newline (by simp),
      List.filterMap_cons, lineTail_longComment]
    rfl
  have hsub := h.lines
  rw [hcalls, completeLines_append newline hline, completeLines_of_not_mem newline (by simp),
    List.map_singleton, List.singleton_sublist, List.mem_singleton] at hsub
  revert hsub
  decide

end Hearthbeat.Argparse
