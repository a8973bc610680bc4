import Hearthbeat.Argparse.Reader

/-!
The two tables as one: a key stands for the first registration made for it.

* `Registered`: the tables hold the registrations of a program, in order. Every
  registration keeps it so (`Registered.register`).
* `dispatch_eq`: the two lookups, first in `callbacks` and then in `registered_pointers`,
  perform the first registration of the key, since the first entries for the key belong to
  the same registration. `readLines_eq`: this is what the reader does with a whole file.
* `tables_act_as_one`: both facts for every program.
-/

namespace Hearthbeat.Argparse

/-- What the reader does with a key and a value: it looks for the function of the key, and
calls it. -/
def dispatch (s : Argparse) (key value : Text) : Argparse :=
  match s.getCallback key with
  | none => s
  | some cb => s.invoke cb.callback key value

/-- The key of a registration. -/
def Registration.key (r : Registration) : Text := r.callback.key

/-- The first registration for a key. -/
def firstFor (rs : List Registration) (key : Text) : Option Registration :=
  rs.find? fun r => r.key == key

/-- Call `generic_callback`, which assigns to a variable. -/
def assign (s : Argparse) (p : RegisteredPointer) (value : Text) : Argparse :=
  (s.log (.call .genericCallback p.key value)).write p value

/-- What a registration is for: call the client's function, or assign to the variable. -/
def perform (s : Argparse) (value : Text) : Registration → Argparse
  | .argument key function => s.log (.call function key value)
  | .int key ptr | .intDef key ptr _ => s.assign ⟨key, .int, ptr⟩ value
  | .str key ptr | .strDef key ptr _ => s.assign ⟨key, .str, ptr⟩ value
  | .strlst key ptr => s.assign ⟨key, .lst, ptr⟩ value

/-- What the first registration for a key is for; nothing where there is none. -/
def performFirst (rs : List Registration) (s : Argparse) (key value : Text) : Argparse :=
  match firstFor rs key with
  | none => s
  | some r => s.perform value r

/-- No client registers `generic_callback` itself. -/
def Custom (rs : List Registration) : Prop :=
  ∀ key function, .argument key function ∈ rs → function ≠ .genericCallback

/-- The tables hold the registrations, in order. -/
structure Registered (rs : List Registration) (s : Argparse) : Prop where
  callbacks : s.callbacks = rs.map Registration.callback
  pointers : s.registeredPointers = rs.filterMap Registration.pointer

/-- Every function for a variable finds a variable. -/
def Covered (s : Argparse) : Prop :=
  ∀ cb ∈ s.callbacks, cb.callback = .genericCallback → ∃ p ∈ s.registeredPointers, p.key = cb.key

section Tables

variable {rs : List Registration} {r : Registration} {s s' : Argparse} {p : RegisteredPointer}
  {key : Text}

lemma key_of_pointer (h : r.pointer = some p) : p.key = r.key := by
  cases r <;> cases h <;> rfl

lemma Registered.start (v : Variables) : Registered [] (Argparse.start v) := ⟨rfl, rfl⟩

/-- One registration goes into both tables, or into one. -/
lemma Registered.register (h : Registered rs s) (r : Registration) :
    Registered (rs ++ [r]) (s.register r) := by
  refine ⟨by rw [register_callbacks, h.callbacks, List.map_append, List.map_singleton], ?_⟩
  rw [register_pointers, h.pointers, List.filterMap_append, List.filterMap_cons]
  cases r.pointer <;> rfl

/-- So do all of them. -/
lemma registered_foldl (v : Variables) (rs : List Registration) :
    Registered rs (rs.foldl register (Argparse.start v)) := by
  induction rs using List.reverseRecOn with
  | nil => exact Registered.start v
  | append_singleton rs r ih =>
      rw [List.foldl_append]
      exact ih.register r

/-- The tables are all that matters. -/
lemma Registered.congr (h : Registered rs s) (hc : s'.callbacks = s.callbacks)
    (hp : s'.registeredPointers = s.registeredPointers) : Registered rs s' :=
  ⟨hc.trans h.callbacks, hp.trans h.pointers⟩

lemma Registered.covered (h : Registered rs s) (hcustom : Custom rs) : Covered s := by
  intro cb hcb hgeneric
  rw [h.callbacks] at hcb
  obtain ⟨r, hr, rfl⟩ := List.mem_map.mp hcb
  obtain ⟨p, hp⟩ : ∃ p, r.pointer = some p := by
    cases r with
    | argument key function => exact absurd hgeneric (hcustom key function hr)
    | _ => exact ⟨_, rfl⟩
  rw [h.pointers]
  exact ⟨p, List.mem_filterMap.mpr ⟨r, hr, hp⟩, key_of_pointer hp⟩

/-- The first function for a key is that of its first registration. -/
lemma Registered.getCallback_eq (h : Registered rs s) (key : Text) :
    s.getCallback key = (firstFor rs key).map Registration.callback := by
  rw [getCallback, h.callbacks, List.find?_map]
  rfl

/-- Where the first registration for a key has a variable, it is the first one for the
key. -/
lemma find_pointer_of_first (h : firstFor rs key = some r) (hp : r.pointer = some p) :
    (rs.filterMap Registration.pointer).find? (fun p => p.key == key) = some p := by
  induction rs with
  | nil => cases h
  | cons r' rs ih =>
      by_cases hr' : r'.key = key
      · -- the registration is the first of all
        obtain rfl : r' = r := by simpa [firstFor, hr'] using h
        rw [List.filterMap_cons_some hp, List.find?_cons, key_of_pointer hp]
        simp [hr']
      · have hrest := ih (by simpa [firstFor, hr'] using h)
        cases hp' : r'.pointer with
        | none => rwa [List.filterMap_cons_none hp']
        | some p' =>
            have hother : (r'.key == key) = false := by simpa using hr'
            rw [List.filterMap_cons_some hp', List.find?_cons, key_of_pointer hp', hother]
            exact hrest

/-- The first variable for a key is that of its first registration, if this has one. -/
lemma Registered.getRegisteredPointer_eq (h : Registered rs s) (hfirst : firstFor rs key = some r)
    (hp : r.pointer = some p) : s.getRegisteredPointer key = some p := by
  rw [getRegisteredPointer, h.pointers]
  exact find_pointer_of_first hfirst hp

/-- A function for a variable, once it has found the variable of its registration. -/
lemma invoke_eq_assign {value : Text} (hkey : p.key = key)
    (h : s.getRegisteredPointer key = some p) :
    s.invoke .genericCallback key value = s.assign p value := by
  rw [invoke_registered value h, assign, hkey]

/-- The two lookups perform the first registration for the key. -/
lemma Registered.dispatch_eq (h : Registered rs s) (hcustom : Custom rs) (key value : Text) :
    s.dispatch key value = performFirst rs s key value := by
  rw [dispatch, performFirst, h.getCallback_eq]
  cases hfirst : firstFor rs key with
  | none => rfl
  | some r =>
      have hkey : r.key = key := by simpa using List.find?_some hfirst
      have hvariable : ∀ p, r.pointer = some p →
          s.invoke .genericCallback key value = s.assign p value := fun p hp =>
        invoke_eq_assign ((key_of_pointer hp).trans hkey) (h.getRegisteredPointer_eq hfirst hp)
      cases r with
      | argument key' function =>
          obtain rfl : key' = key := hkey
          cases function with
          | genericCallback =>
              exact absurd rfl (hcustom key' _ (List.mem_of_find?_eq_some hfirst))
          | client id => rfl
      | int key' ptr => exact hvariable _ rfl
      | str key' ptr => exact hvariable _ rfl
      | strlst key' ptr => exact hvariable _ rfl
      | intDef key' ptr dflt => exact hvariable _ rfl
      | strDef key' ptr dflt => exact hvariable _ rfl

lemma readLine_eq_dispatch (s : Argparse) (line : List Byte) :
    s.readLine line
      = match parseLine line with
        | none => s
        | some (key, value) => s.dispatch key value := rfl

/-- So the reader performs, for every chunk that declares something, the first registration
for its key. -/
theorem Registered.readLines_eq (h : Registered rs s) (hcustom : Custom rs) (f : List Byte) :
    s.readLines f
      = (chunks newline 255 f).foldl (fun s line =>
          match parseLine line with
          | none => s
          | some (key, value) => performFirst rs s key value) s := by
  rw [readLines]
  generalize chunks newline 255 f = lines
  induction lines generalizing s with
  | nil => rfl
  | cons line lines ih =>
      obtain ⟨l, hturn, -⟩ := s.readLine_turn line
      have hstep : s.readLine line
          = match parseLine line with
            | none => s
            | some (key, value) => performFirst rs s key value := by
        rw [readLine_eq_dispatch]
        cases parseLine line with
        | none => rfl
        | some kv => exact h.dispatch_eq hcustom kv.1 kv.2
      rw [List.foldl_cons, List.foldl_cons, ← hstep]
      exact ih (h.congr hturn.callbacks hturn.pointers)

end Tables

/-- After any registrations, every function for a variable has its variable, and the two
lookups perform the first registration for the key, with whatever the variables hold. -/
theorem tables_act_as_one {rs : List Registration} (hcustom : Custom rs) (v : Variables) :
    Covered (rs.foldl register (start v)) ∧
      ∀ s : Argparse, s.callbacks = (rs.foldl register (start v)).callbacks →
        s.registeredPointers = (rs.foldl register (start v)).registeredPointers →
        ∀ key value, s.dispatch key value = performFirst rs s key value := by
  have hregistered := registered_foldl v rs
  refine ⟨hregistered.covered hcustom, fun s hc hp key value => ?_⟩
  exact (hregistered.congr hc hp).dispatch_eq hcustom key value

/-- Two keys, each with a registration for a variable and one of a function. -/
def mixedRegistrations : List Registration :=
  [.int (bytes "a") 0, .argument (bytes "b") (.client 7), .argument (bytes "a") (.client 8),
    .strlst (bytes "b") 0, .str (bytes "a") 0]

theorem tables_act_as_one_mixed :
    Covered (mixedRegistrations.foldl register (start ⟨fun _ => 0, fun _ => none, fun _ => []⟩)) ∧
      ∀ s : Argparse,
        s.callbacks = mixedRegistrations.map Registration.callback →
        s.registeredPointers = mixedRegistrations.filterMap Registration.pointer →
        ∀ key value, s.dispatch key value = performFirst mixedRegistrations s key value := by
  have hcustom : Custom mixedRegistrations := by
    intro key function hmem
    simp only [mixedRegistrations, List.mem_cons, reduceCtorEq, Registration.argument.injEq,
      List.not_mem_nil, false_or, or_false] at hmem
    rcases hmem with ⟨-, rfl⟩ | ⟨-, rfl⟩ <;> decide
  exact tables_act_as_one hcustom _

end Hearthbeat.Argparse
