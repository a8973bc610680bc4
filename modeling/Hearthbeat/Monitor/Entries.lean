import Hearthbeat.Monitor.Init

/-!
`monitor.c`, the array that the loop of `init` fills.

* `Cut.newTarget`: the target that one round makes out of the three copies, none where a
  copy leaves its buffer. `targetLoop` is the loop, with the array as its accumulator; it
  gives none where the program dies.
* `targets_round_trip`: values with two colons or more give one target each, in order,
  which says what was written; and entries whose names and ports have no colon are read as
  they were written.
-/

namespace Hearthbeat.Monitor

/-- The target that the copies make. -/
def Cut.newTarget (c : Cut) : Option Target :=
  match c.name.buffer, c.host.buffer, c.port.buffer with
  | some name, some host, some port => some (Entry.newTarget ⟨cstr name, cstr host, cstr port⟩)
  | _, _, _ => none

/-- The loop, from an array on. -/
def targetLoop : List Target → List Text → Option (List Target)
  | targets, [] => some targets
  | targets, value :: values =>
      match (cut value).bind Cut.newTarget with
      | none => none
      | some newtarget => targetLoop (targets ++ [newtarget]) values

/-- A target says what a value of the configuration says. -/
structure SaidBy (value : Text) (t : Target) : Prop where
  name : byte ':' ∉ t.name
  port : byte ':' ∉ t.port
  text : t.entry.text = value
  offline : t.isonline = false

/-- An entry that can be read back: its name and its port have no colon, and nothing in
it is a NUL. -/
structure Readable (x : Entry) : Prop where
  name : byte ':' ∉ x.name
  port : byte ':' ∉ x.port
  nul : 0 ∉ x.text

/-- A copy that fits has its string in the buffer. -/
lemma Copy.Fits.buffer_eq {c : Copy} (h : c.Fits) : ∃ b, c.buffer = some b ∧ cstr b = c.field := by
  obtain ⟨b, hb, -⟩ := h.terminated
  rw [Option.mem_def] at hb
  exact ⟨b, hb, by rw [field, hb, Option.map_some, Option.getD_some]⟩

/-- One round of the loop. -/
lemma newTarget_text {x : Entry} (hx : Readable x) :
    (cut x.text).bind Cut.newTarget = some x.newTarget := by
  have hc := cut_text hx.name hx.port hx.nul
  obtain ⟨hfits, hname, hhost, hport⟩ := fits_text hx.name hx.port hx.nul hc
  simp only [Cut.copies, List.forall_mem_cons] at hfits
  obtain ⟨hfn, hfh, hfp, -⟩ := hfits
  obtain ⟨bn, hbn, hn⟩ := hfn.buffer_eq
  obtain ⟨bh, hbh, hh⟩ := hfh.buffer_eq
  obtain ⟨bp, hbp, hp⟩ := hfp.buffer_eq
  rw [hc, Option.bind_some, Cut.newTarget, hbn, hbh, hbp]
  show some (Entry.newTarget ⟨cstr bn, cstr bh, cstr bp⟩) = some x.newTarget
  rw [hn, hh, hp, hname, hhost, hport]

/-- The loop adds a target for every entry and leaves the array before it as it was. -/
lemma targetLoop_map {xs : List Entry} (hxs : ∀ x ∈ xs, Readable x) (targets : List Target) :
    targetLoop targets (xs.map Entry.text) = some (targets ++ xs.map Entry.newTarget) := by
  induction xs generalizing targets with
  | nil => rw [List.map_nil, List.map_nil, List.append_nil, targetLoop]
  | cons x xs ih =>
      obtain ⟨hx, hrest⟩ := List.forall_mem_cons.mp hxs
      calc targetLoop targets (x.text :: xs.map Entry.text)
          = targetLoop (targets ++ [x.newTarget]) (xs.map Entry.text) := by
            rw [targetLoop, newTarget_text hx]
        _ = some (targets ++ [x.newTarget] ++ xs.map Entry.newTarget) := ih hrest _
        _ = some (targets ++ (x :: xs).map Entry.newTarget) := by
            rw [List.append_assoc, List.singleton_append, List.map_cons]

/-- A value with two colons is the text of an entry. -/
lemma readable_of_count {value : Text} (hcount : 2 ≤ value.count (byte ':')) (hnul : 0 ∉ value) :
    ∃ x, Readable x ∧ x.text = value := by
  rcases value_cases value with hnone | ⟨a, p, rfl, ha, hp⟩ | ⟨x, rfl, hname, hport⟩
  · rw [List.count_eq_zero_of_not_mem hnone] at hcount
    omega
  · rw [List.count_append, List.count_cons_self, List.count_eq_zero_of_not_mem ha,
      List.count_eq_zero_of_not_mem hp] at hcount
    omega
  · exact ⟨x, ⟨hname, hport, hnul⟩, rfl⟩

/-- The targets of values with two colons or more say what the values say, one each and in
order; and every readable entry is read as it was written. -/
theorem targets_round_trip :
    (∀ values : List Text, (∀ value ∈ values, 2 ≤ value.count (byte ':') ∧ 0 ∉ value) →
      ∃ targets, targetLoop [] values = some targets ∧ List.Forall₂ SaidBy values targets) ∧
    ∀ xs : List Entry, (∀ x ∈ xs, Readable x) →
      targetLoop [] (xs.map Entry.text) = some (xs.map Entry.newTarget) := by
  refine ⟨fun values hvalues => ?_, fun xs hxs => targetLoop_map hxs []⟩
  obtain ⟨xs, hxs, rfl⟩ :
      ∃ xs : List Entry, (∀ x ∈ xs, Readable x) ∧ xs.map Entry.text = values := by
    induction values with
    | nil => exact ⟨[], by simp, rfl⟩
    | cons value values ih =>
        obtain ⟨hvalue, hrest⟩ := List.forall_mem_cons.mp hvalues
        obtain ⟨x, hx, rfl⟩ := readable_of_count hvalue.1 hvalue.2
        obtain ⟨xs, hxs, rfl⟩ := ih hrest
        exact ⟨x :: xs, List.forall_mem_cons.mpr ⟨hx, hxs⟩, rfl⟩
  refine ⟨xs.map Entry.newTarget, targetLoop_map hxs [], ?_⟩
  rw [List.forall₂_map_left_iff, List.forall₂_map_right_iff, List.forall₂_same]
  exact fun x hx => ⟨(hxs x hx).name, (hxs x hx).port, rfl, rfl⟩

/-- Two values with empty fields, and an entry with colons in its host. -/
theorem targets_round_trip_colons :
    (∃ targets, targetLoop [] [bytes "::", bytes "pi::1:48807"] = some targets ∧
      List.Forall₂ SaidBy [bytes "::", bytes "pi::1:48807"] targets) ∧
    targetLoop [] [Entry.text ⟨bytes "pi", bytes ":1", []⟩]
      = some [Entry.newTarget ⟨bytes "pi", bytes ":1", []⟩] :=
  ⟨targets_round_trip.1 _ (by decide), targets_round_trip.2 [⟨bytes "pi", bytes ":1", []⟩]
    (List.forall_mem_singleton.mpr ⟨by decide, by decide, by decide⟩)⟩

end Hearthbeat.Monitor
