import Hearthbeat.Argparse.Lines
import Hearthbeat.Argparse.Sessions

/-!
Properties: what a session assigns to the variables that it has registered.

* `declarations`: the keys and the values that a file declares, in order, whoever
  reads it.
* `runSession_vars`: a session changes the variables as it writes down, and writes only
  to what is in the table.
* `writes_runSession`: with typed registrations and lines that fit the buffer, what the
  session writes are the declarations of registered keys (`assignments`).
* `valuesTo_assignments`: with distinct keys and variables, what a variable is assigned
  are the values declared for its key.
-/

namespace Hearthbeat

/-! ### Values -/

/-- The value of a variable, by its type. -/
inductive Value where
  | int (x : ℤ)
  | str (x : Option Text)
  | lst (xs : List Text)

/-- The value after an assignment. -/
def Value.assign : Value → Text → Value
  | .int _, x => .int (atoi x)
  | .str _, x => .str (some x)
  | .lst xs, x => .lst (xs ++ [x])

namespace Variables

/-- What a variable of a type holds. -/
def get (v : Variables) : PointerType → ℕ → Value
  | .int, p => .int (v.ints p)
  | .str, p => .str (v.strs p)
  | .lst, p => .lst (v.lsts p)

end Variables

/-- The values that a list of assignments gives to a variable. -/
def valuesTo (t : PointerType) (ptr : ℕ) (ws : List (RegisteredPointer × Text)) : List Text :=
  ws.filterMap fun w => if w.1.t = t ∧ w.1.ptr = ptr then some w.2 else none

section Values

variable (v : Variables) (t : PointerType) (ptr : ℕ) (xs : List Text)

lemma valuesTo_cons (w : RegisteredPointer × Text) (ws : List (RegisteredPointer × Text)) :
    valuesTo t ptr (w :: ws)
      = if w.1.t = t ∧ w.1.ptr = ptr then w.2 :: valuesTo t ptr ws else valuesTo t ptr ws := by
  rw [valuesTo, List.filterMap_cons]
  split_ifs with h <;> rfl

/-- What is not assigned to has no values. -/
lemma valuesTo_eq_nil {ws : List (RegisteredPointer × Text)}
    (h : ∀ w ∈ ws, ¬ (w.1.t = t ∧ w.1.ptr = ptr)) : valuesTo t ptr ws = [] :=
  List.filterMap_eq_nil_iff.mpr fun w hw => if_neg (h w hw)

@[simp] lemma foldl_assign_int (n : ℤ) :
    xs.foldl Value.assign (.int n) = .int ((xs.getLast?.map atoi).getD n) := by
  induction xs using List.reverseRecOn with
  | nil => rfl
  | append_singleton xs x ih => simp [ih, Value.assign]

@[simp] lemma foldl_assign_str (y : Option Text) :
    xs.foldl Value.assign (.str y) = .str (xs.getLast?.or y) := by
  induction xs using List.reverseRecOn with
  | nil => rfl
  | append_singleton xs x ih => simp [ih, Value.assign]

@[simp] lemma foldl_assign_lst (ys : List Text) :
    xs.foldl Value.assign (.lst ys) = .lst (ys ++ xs) := by
  induction xs generalizing ys with
  | nil => simp
  | cons x xs ih => rw [List.foldl_cons, Value.assign, ih, List.append_assoc,
      List.singleton_append]

/-- An assignment changes its own variable. -/
lemma get_write (p : RegisteredPointer) (x : Text) :
    (v.write p x).get t ptr
      = if p.t = t ∧ p.ptr = ptr then (v.get t ptr).assign x else v.get t ptr := by
  obtain ⟨key, t', ptr'⟩ := p
  by_cases hptr : ptr' = ptr
  · subst hptr
    cases t <;> cases t' <;> simp [Variables.write, Variables.get, Variables.setInt,
      Variables.setStr, Variables.appendLst, Value.assign]
  · have hne : ptr ≠ ptr' := fun h => hptr h.symm
    cases t <;> cases t' <;> simp [Variables.write, Variables.get, Variables.setInt,
      Variables.setStr, Variables.appendLst, hptr, hne]

/-- What a variable holds after assignments is decided by those to itself. -/
lemma get_writes (ws : List (RegisteredPointer × Text)) :
    (ws.foldl (fun v w => v.write w.1 w.2) v).get t ptr
      = (valuesTo t ptr ws).foldl Value.assign (v.get t ptr) := by
  induction ws generalizing v with
  | nil => rfl
  | cons w ws ih =>
      rw [List.foldl_cons, ih, get_write, valuesTo_cons]
      split_ifs with h <;> rfl

end Values

namespace Argparse

/-! ### Declarations -/

/-- The key and the value of a line: what stands before its first `=`, and what stands
behind it. A comment has none. -/
def declarationOf (l : Text) : Option (Text × Text) :=
  if l.head? = some hash ∨ equals ∉ l then none
  else some (l.takeWhile (· != equals), (l.dropWhile (· != equals)).tail)

/-- The declarations of a file; a last line without a newline is none. -/
def declarations (f : List Byte) : List (Text × Text) :=
  (completeLines newline f).filterMap declarationOf

/-- The values that a file declares for a key. -/
def valuesOf (f : List Byte) (key : Text) : List Text :=
  (declarations f).filterMap fun kv => if kv.1 = key then some kv.2 else none

/-- A text file whose lines fit the buffer. -/
structure Plain (f : List Byte) : Prop where
  nul : 0 ∉ f
  short : ∀ l ∈ completeLines newline f, l.length ≤ 254

section Declarations

variable (s : Argparse) {f : List Byte} {l : Text} {kv : Text × Text}

lemma declarationOf_eq_some :
    declarationOf l = some kv ↔
      l = declaration kv ∧ equals ∉ kv.1 ∧ l.head? ≠ some hash := by
  obtain ⟨key, value⟩ := kv
  have hsplit : ∀ {key value : Text}, equals ∉ key →
      ((key ++ equals :: value).takeWhile (· != equals),
        ((key ++ equals :: value).dropWhile (· != equals)).tail) = (key, value) := by
    intro key value hkey
    have hall : ∀ b ∈ key, (b != equals) = true := fun b hb => by
      simpa using fun heq : b = equals => hkey (heq ▸ hb)
    rw [List.takeWhile_append_of_pos hall, List.dropWhile_append_of_pos hall,
      List.takeWhile_cons_of_neg (by simp), List.dropWhile_cons_of_neg (by simp),
      List.append_nil, List.tail_cons]
  rw [declarationOf]
  constructor
  · intro h
    split_ifs at h with hskip
    obtain ⟨hhash, hmem⟩ := not_or.mp hskip
    obtain ⟨key', value', rfl, hkey⟩ := List.eq_append_cons_of_mem (not_not.mp hmem)
    rw [hsplit hkey] at h
    obtain ⟨rfl, rfl⟩ := Prod.mk.inj (Option.some.inj h)
    exact ⟨rfl, hkey, hhash⟩
  · rintro ⟨rfl, hkey, hhash⟩
    rw [if_neg (not_or.mpr ⟨hhash, not_not.mpr (by simp [declaration])⟩), declaration,
      hsplit hkey]

/-- The call of a line is its declaration, if the key is registered. -/
lemma callOf_plain (hline : newline ∉ l) (hnul : 0 ∉ l) :
    s.callOf l = (declarationOf l).filter fun kv => (s.getCallback kv.1).isSome := by
  ext kv
  rw [s.callOf_eq_some hline, Option.filter_eq_some_iff, declarationOf_eq_some]
  tauto

/-- A line has only bytes of its file. -/
lemma mem_of_completeLines (hl : l ∈ completeLines newline f) {b : Byte} (hb : b ∈ l) : b ∈ f := by
  induction hlen : f.length using Nat.strong_induction_on generalizing f with
  | _ k ih =>
      by_cases hmem : newline ∈ f
      · obtain ⟨a, c, rfl, ha⟩ := List.eq_append_cons_of_mem hmem
        rw [completeLines_append newline ha] at hl
        rcases List.mem_cons.mp hl with rfl | hrest
        · simp [hb]
        · have hc := ih c.length (by rw [← hlen]; simp; omega) hrest rfl
          simp [hc]
      · rw [completeLines_of_not_mem newline hmem] at hl
        cases hl

/-- The buffers of the reader and the cells of lists, of 256 bytes, are large enough. -/
lemma length_declaration (hf : Plain f) (hkv : kv ∈ declarations f) :
    kv.1.length < 256 ∧ kv.2.length < 256 := by
  obtain ⟨l, hl, hdecl⟩ := List.mem_filterMap.mp hkv
  have hlength := hf.short l hl
  rw [(declarationOf_eq_some.mp hdecl).1, declaration, List.length_append, List.length_cons]
    at hlength
  omega

/-- The calls for a plain file are its declarations of registered keys. -/
lemma calls_plain (hf : Plain f) :
    s.calls f = (declarations f).filter fun kv => (s.getCallback kv.1).isSome := by
  rw [calls_eq, declarations, List.filter_filterMap]
  refine List.filterMap_congr fun l hl => ?_
  have hnul : 0 ∉ l := fun h => hf.nul (mem_of_completeLines hl h)
  rw [lineTail_of_lt 255 (Nat.lt_succ_of_le (hf.short l hl)),
    s.callOf_plain (not_mem_of_completeLines newline hl) hnul]

end Declarations

/-! ### Typed registrations -/

/-- The variables that a list of registrations asks for. -/
def pointers (rs : List Registration) : List RegisteredPointer := rs.filterMap Registration.pointer

/-- Typed registrations with keys that no line divides, for variables apart. -/
structure WellRegistered (rs : List Registration) : Prop where
  typed : ∀ r ∈ rs, r.pointer.isSome = true
  text : ∀ p ∈ pointers rs,
    p.key.length < 256 ∧ equals ∉ p.key ∧ newline ∉ p.key ∧ (0 : Byte) ∉ p.key
  keys : ((pointers rs).map RegisteredPointer.key).Nodup
  vars : ((pointers rs).map fun p => (p.t, p.ptr)).Nodup

/-- What the declarations of a file assign to registered variables. -/
def assignments (rs : List Registration) (f : List Byte) : List (RegisteredPointer × Text) :=
  (declarations f).filterMap fun kv =>
    ((pointers rs).find? fun p => p.key == kv.1).map fun p => (p, kv.2)

section Assignments

variable {rs : List Registration} {p : RegisteredPointer} (f : List Byte)

lemma find_pointer (hrs : WellRegistered rs) (hp : p ∈ pointers rs) :
    (pointers rs).find? (fun q => q.key == p.key) = some p := by
  cases hfind : (pointers rs).find? fun q => q.key == p.key with
  | none => exact absurd (List.find?_eq_none.mp hfind p hp) (by simp)
  | some q =>
      have hkey : q.key = p.key := by simpa using List.find?_some hfind
      rw [List.inj_on_of_nodup_map hrs.keys (List.mem_of_find?_eq_some hfind) hp hkey]

/-- Of what is assigned by the keys of some pairs, a variable gets the values of its key. -/
lemma valuesTo_found (hrs : WellRegistered rs) (hp : p ∈ pointers rs) (kvs : List (Text × Text)) :
    valuesTo p.t p.ptr (kvs.filterMap fun kv =>
        ((pointers rs).find? fun q => q.key == kv.1).map fun q => (q, kv.2))
      = kvs.filterMap fun kv => if kv.1 = p.key then some kv.2 else none := by
  rw [valuesTo, List.filterMap_filterMap]
  refine List.filterMap_congr fun kv _ => ?_
  by_cases hkey : kv.1 = p.key
  · simp [hkey, find_pointer hrs hp]
  · rw [if_neg hkey]
    cases hfind : (pointers rs).find? fun q => q.key == kv.1 with
    | none => rfl
    | some q =>
        have hq : q.key = kv.1 := by simpa using List.find?_some hfind
        have hne : ¬ (q.t = p.t ∧ q.ptr = p.ptr) := by
          rintro ⟨ht, hptr⟩
          have hsame : q = p := List.inj_on_of_nodup_map hrs.vars
            (List.mem_of_find?_eq_some hfind) hp (by simp [ht, hptr])
          exact hkey (by rw [← hsame, hq])
        simp [hne]

/-- A variable is assigned the values of its key. -/
lemma valuesTo_assignments (hrs : WellRegistered rs) (hp : p ∈ pointers rs) :
    valuesTo p.t p.ptr (assignments rs f) = valuesOf f p.key :=
  valuesTo_found hrs hp (declarations f)

/-- What is not registered is not assigned to. -/
lemma valuesTo_assignments_of_not_mem {t : PointerType} {ptr : ℕ}
    (h : ∀ p ∈ pointers rs, ¬ (p.t = t ∧ p.ptr = ptr)) :
    valuesTo t ptr (assignments rs f) = [] := by
  refine valuesTo_eq_nil t ptr fun w hw => ?_
  obtain ⟨kv, -, hmap⟩ := List.mem_filterMap.mp hw
  obtain ⟨p, hfind, rfl⟩ := Option.map_eq_some_iff.mp hmap
  exact h p (List.mem_of_find?_eq_some hfind)

end Assignments

/-! ### What a session writes -/

/-- What a session does. -/
def acts (s : Argparse) (σ : Session) : List Act := (s.runSession σ).hist.drop s.hist.length

section Writes

variable (s : Argparse)

/-- A session leaves in the variables what it writes, on top of the defaults. -/
theorem runSession_vars (σ : Session) :
    (∀ w ∈ writesOf (s.acts σ), w.1 ∈ s.registeredPointers ++ pointers σ.registrations) ∧
      (s.runSession σ).vars = (writesOf (s.acts σ)).foldl (fun v w => v.write w.1 w.2)
        (σ.registrations.foldl register s).vars := by
  cases hfile : σ.file with
  | none =>
      have hrun : s.runSession σ = σ.registrations.foldl register s := by
        rw [runSession, hfile]
        rfl
      rw [acts, hrun, foldl_register_hist, List.drop_length]
      exact ⟨by simp [writesOf], rfl⟩
  | some f =>
      obtain ⟨l, hturn, -⟩ :=
        (σ.registrations.foldl register s).readLines_turn (chunks newline 255 f)
      have hrun : (s.runSession σ).hist = s.hist ++ l ∧ (s.runSession σ).vars
          = (writesOf l).foldl (fun v w => v.write w.1 w.2)
            (σ.registrations.foldl register s).vars := by
        rw [runSession, hfile]
        exact ⟨hturn.hist.trans (by rw [foldl_register_hist]), hturn.vars⟩
      rw [acts, hrun.1, List.drop_left]
      refine ⟨fun w hw => ?_, hrun.2⟩
      rw [pointers, ← foldl_register_pointers]
      exact hturn.writes_mem hw

/-- A variable that is not registered keeps its value. -/
lemma get_runSession_of_not_mem {σ : Session} {t : PointerType} {ptr : ℕ}
    (h : ∀ p ∈ s.registeredPointers ++ pointers σ.registrations, ¬ (p.t = t ∧ p.ptr = ptr)) :
    (s.runSession σ).vars.get t ptr = (σ.registrations.foldl register s).vars.get t ptr := by
  obtain ⟨hptr, hvars⟩ := s.runSession_vars σ
  rw [hvars, get_writes, valuesTo_eq_nil t ptr fun w hw => h w.1 (hptr w hw)]
  rfl

/-- The table of a program has what it had and what the session has registered, or
nothing. -/
lemma runSession_pointers (σ : Session) :
    (s.runSession σ).registeredPointers ⊆ s.registeredPointers ++ pointers σ.registrations := by
  rw [runSession, pointers, ← foldl_register_pointers]
  cases σ.file with
  | none => exact List.Subset.refl _
  | some f => exact List.nil_subset _

end Writes

section TypedSessions

variable {s : Argparse}

/-- A list variable has no default. -/
lemma foldl_register_lsts (rs : List Registration) :
    (rs.foldl register s).vars.lsts = s.vars.lsts := by
  induction rs generalizing s with
  | nil => rfl
  | cons r rs ih =>
      rw [List.foldl_cons, ih]
      cases r <;> rfl

/-- Typed registrations have `generic_callback` for their function. -/
lemma map_callback {rs : List Registration} (hrs : ∀ r ∈ rs, r.pointer.isSome = true) :
    rs.map Registration.callback = (pointers rs).map fun p => ⟨p.key, .genericCallback⟩ := by
  induction rs with
  | nil => rfl
  | cons r rs ih =>
      obtain ⟨p, hptr⟩ := Option.isSome_iff_exists.mp (hrs r List.mem_cons_self)
      rw [pointers, List.map_cons, List.filterMap_cons_some hptr, List.map_cons,
        ih fun r' hr' => hrs r' (List.mem_cons_of_mem r hr')]
      congr 1
      cases r <;> cases hptr <;> rfl

lemma typed_register {rs : List Registration} (hrs : ∀ r ∈ rs, r.pointer.isSome = true)
    (hc : s.callbacks = []) (hp : s.registeredPointers = []) : (rs.foldl register s).Typed := by
  rw [Typed, foldl_register_callbacks, foldl_register_pointers, hc, hp, List.nil_append,
    List.nil_append]
  exact map_callback hrs

/-- A session writes what the file declares for its registrations, in order. -/
theorem writes_runSession {rs : List Registration} {f : List Byte} (hc : s.callbacks = [])
    (hp : s.registeredPointers = []) (hrs : WellRegistered rs) (hf : Plain f) :
    writesOf (s.acts ⟨rs, some f⟩) = assignments rs f := by
  set s₁ := rs.foldl register s with hs₁
  have htyped : s₁.Typed := typed_register hrs.typed hc hp
  have hpointers : s₁.registeredPointers = pointers rs := by
    rw [hs₁, foldl_register_pointers, hp, List.nil_append, pointers]
  obtain ⟨l, hturn, -⟩ := s₁.readLines_turn (chunks newline 255 f)
  have hhist : (s₁.readProperties (some f)).hist = s₁.hist ++ l := hturn.hist
  have hcalls : s₁.calls f = callsOf l := by rw [calls, hhist, List.drop_left]
  have hacts : s.acts ⟨rs, some f⟩ = l := by
    have hrun : (s.runSession ⟨rs, some f⟩).hist = s.hist ++ l := by
      rw [runSession, ← hs₁, hhist, hs₁, foldl_register_hist]
    rw [acts, hrun, List.drop_left]
  calc writesOf (s.acts ⟨rs, some f⟩)
      = (s₁.calls f).filterMap
          fun kv => (s₁.getRegisteredPointer kv.1).map fun p => (p, kv.2) := by
        rw [hacts, hturn.assigned htyped, hcalls]
    _ = assignments rs f := by
        rw [s₁.calls_plain hf, List.filterMap_filter, assignments]
        refine List.filterMap_congr fun kv _ => ?_
        rw [getCallback_typed htyped, Option.isSome_map, getRegisteredPointer, hpointers]
        cases (pointers rs).find? fun p => p.key == kv.1 <;> rfl

end TypedSessions

end Argparse

end Hearthbeat
