import Hearthbeat.Argparse.Properties

/-!
What a file leaves in the registered variables, whatever bytes it has and however long
its lines are.

* `taken`: the value that the reader takes from a line for a key, by the tail of the line.
* `get_readProperties`: a variable is assigned the values that are taken from the complete
  lines for its key, in order.
-/

namespace Hearthbeat.Argparse

/-- The value that the reader takes from a line for a key. -/
def taken (key : Text) (l : List Byte) : Option Text :=
  (parseLine (lineTail 255 l ++ [newline])).bind fun kv => if kv.1 = key then some kv.2 else none

section Taken

variable (s : Argparse) {key value : Text} {l : List Byte}

/-- The call of a text is what the reader finds in it, if the key is registered. -/
lemma callOf_eq_filter (t : Text) :
    s.callOf t
      = (parseLine (t ++ [newline])).filter fun kv => (s.getCallback kv.1).isSome := by
  rw [callOf, dispatched]
  cases parseLine (t ++ [newline]) with
  | none => rfl
  | some kv =>
      obtain ⟨key, value⟩ := kv
      cases hcb : s.getCallback key with
      | none => simp [Option.filter, hcb]
      | some cb =>
          obtain ⟨-, rfl⟩ := getCallback_mem s hcb
          simp [Option.filter, hcb]

/-- The values in the calls of a registered key. -/
lemma calls_of_key (hkey : (s.getCallback key).isSome = true) (f : List Byte) :
    (s.calls f).filterMap (fun kv => if kv.1 = key then some kv.2 else none)
      = (completeLines newline f).filterMap (taken key) := by
  rw [calls_eq, List.filterMap_filterMap]
  refine List.filterMap_congr fun l _ => ?_
  rw [callOf_eq_filter, taken]
  cases parseLine (lineTail 255 l ++ [newline]) with
  | none => rfl
  | some kv =>
      by_cases hkv : kv.1 = key
      · simp [Option.filter, hkv, hkey]
      · cases hcb : (s.getCallback kv.1).isSome <;> simp [Option.filter, hcb, hkv]

/-- A short line that declares the key. -/
lemma taken_declaration (hline : newline ∉ declaration (key, value))
    (hnul : 0 ∉ declaration (key, value)) (hkey : equals ∉ key)
    (hhash : (declaration (key, value)).head? ≠ some hash)
    (hlen : (declaration (key, value)).length < 255) :
    taken key (declaration (key, value)) = some value := by
  have hparse := (parseLine_eq_some hline).mpr ⟨rfl, hkey, hnul, hhash⟩
  rw [taken, lineTail_of_lt 255 hlen, hparse, Option.bind_some, if_pos rfl]

/-- From a short line nothing is taken that it does not declare. -/
lemma taken_short (hl : newline ∉ l) (hlen : l.length < 255) (h : taken key l = some value) :
    l = declaration (key, value) := by
  obtain ⟨kv, hparse, hkey⟩ := Option.bind_eq_some_iff.mp h
  rw [lineTail_of_lt 255 hlen] at hparse
  split_ifs at hkey with hkv
  obtain rfl := Option.some.inj hkey
  exact hkv ▸ ((parseLine_eq_some hl).mp hparse).1

end Taken

section Readers

variable {s : Argparse} {rs : List Registration} {p : RegisteredPointer}

/-- What a reader assigns to a registered variable. -/
lemma valuesTo_readProperties (hrs : WellRegistered rs)
    (hc : s.callbacks = rs.map Registration.callback) (hp : s.registeredPointers = pointers rs)
    (f : List Byte) (hmem : p ∈ pointers rs) :
    valuesTo p.t p.ptr (writesOf ((s.readProperties (some f)).hist.drop s.hist.length))
      = (completeLines newline f).filterMap (taken p.key) := by
  have htyped : s.Typed := by rw [Typed, hc, hp, map_callback hrs.typed]
  have hkey : (s.getCallback p.key).isSome = true := by
    rw [getCallback_typed htyped, getRegisteredPointer, hp, find_pointer hrs hmem]
    rfl
  obtain ⟨l, hturn, -⟩ := s.readLines_turn (chunks newline 255 f)
  have hhist : (s.readProperties (some f)).hist = s.hist ++ l := hturn.hist
  have hcalls : s.calls f = callsOf l := by rw [calls, hhist, List.drop_left]
  rw [hhist, List.drop_left, hturn.assigned htyped]
  -- the values that are written to the variable are those in the calls of its key
  simp only [getRegisteredPointer, hp]
  rw [valuesTo_found hrs hmem, ← hcalls, calls_of_key s hkey]

/-- What a reader leaves in a registered variable. -/
theorem get_readProperties (hrs : WellRegistered rs)
    (hc : s.callbacks = rs.map Registration.callback) (hp : s.registeredPointers = pointers rs)
    (f : List Byte) (hmem : p ∈ pointers rs) :
    (s.readProperties (some f)).vars.get p.t p.ptr
      = ((completeLines newline f).filterMap (taken p.key)).foldl Value.assign
          (s.vars.get p.t p.ptr) := by
  obtain ⟨l, hturn, -⟩ := s.readLines_turn (chunks newline 255 f)
  have hhist : (s.readProperties (some f)).hist = s.hist ++ l := hturn.hist
  have hvars : (s.readProperties (some f)).vars
      = (writesOf l).foldl (fun v w => v.write w.1 w.2) s.vars := hturn.vars
  rw [hvars, get_writes, ← valuesTo_readProperties hrs hc hp f hmem, hhist, List.drop_left]

end Readers

/-- What a session leaves in a variable that it has registered, from empty tables. -/
lemma get_runSession {s : Argparse} {rs : List Registration} (hrs : WellRegistered rs)
    (hc : s.callbacks = []) (hp : s.registeredPointers = []) (f : List Byte)
    {p : RegisteredPointer} (hmem : p ∈ pointers rs) :
    (s.runSession ⟨rs, some f⟩).vars.get p.t p.ptr
      = ((completeLines newline f).filterMap (taken p.key)).foldl Value.assign
          ((rs.foldl register s).vars.get p.t p.ptr) := by
  refine get_readProperties hrs ?_ ?_ f hmem
  · rw [foldl_register_callbacks, hc, List.nil_append]
  · rw [foldl_register_pointers, hp, List.nil_append, pointers]

end Hearthbeat.Argparse
