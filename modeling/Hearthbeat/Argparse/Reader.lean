import Hearthbeat.Text.Chunks
import Hearthbeat.Argparse.Tables

/-!
`argparse.c`, the reader of a configuration file.

The reader takes the file in the chunks of `fgets`, each with its newline if it
has one, and calls the function registered for the key of every chunk that
declares one. `parseLine_eq_some` says what a chunk has to be for this:
`<key>=<value>` and a newline, with no NUL, no `#` in front and no `=` in the key.

`Turn` is what one turn of the loop may do, and `readLines_turn` what the loop does.
-/

namespace Hearthbeat

/-- The byte that ends a line. -/
def newline : Byte := byte '\n'

/-- The byte that begins a comment. -/
def hash : Byte := byte '#'

/-- The byte between a key and its value. -/
def equals : Byte := byte '='

/-- The key and the value that the reader finds in the buffer `line`. -/
def parseLine (line : List Byte) : Option (Text × Text) :=
  if line.head? = some newline ∨ line.head? = some hash then none
  else
    match strchr line equals, strchr line newline with
    | some eq, some nl => some (strncpy eq line, strncpy (nl - eq - 1) (line.drop (eq + 1)))
    | _, _ => none

namespace Argparse

/-- One turn of the loop of `argparse_read_properties`. -/
def readLine (s : Argparse) (line : List Byte) : Argparse :=
  match parseLine line with
  | none => s
  | some (key, value) =>
      match s.getCallback key with
      | none => s
      | some cb => s.invoke cb.callback key value

/-- The loop, over a buffer of 256 bytes. -/
def readLines (s : Argparse) (f : List Byte) : Argparse := (chunks newline 255 f).foldl readLine s

/-- The source's `argparse_read_properties`; there is no file where `fopen` fails. -/
def readProperties (s : Argparse) : Option (List Byte) → Argparse
  | none => s
  | some f => { s.readLines f with callbacks := [], registeredPointers := [] }

end Argparse

/-! ### What a chunk declares -/

section Parse

/-- The bytes of a text that can stand in a line and in a C string. -/
lemma ne_of_not_mem {t : Text} (hnul : 0 ∉ t) (hline : newline ∉ t) :
    ∀ b ∈ t, b ≠ 0 ∧ b ≠ newline := by
  intro b hb
  exact ⟨fun h => hnul (h ▸ hb), fun h => hline (h ▸ hb)⟩

/-- Where the reader finds the `=` and the newline of a declaration. -/
lemma strchr_declaration {key value : Text} (hnul : 0 ∉ key ++ equals :: value)
    (hkey : equals ∉ key) (hline : newline ∉ key ++ equals :: value) :
    strchr (key ++ equals :: value ++ [newline]) equals = some key.length ∧
      strchr (key ++ equals :: value ++ [newline]) newline
        = some (key ++ equals :: value).length := by
  have hnul' : 0 ∉ key ++ equals :: value ++ [newline] := by
    simp only [List.mem_append, List.mem_singleton]
    rintro (h | h)
    · exact hnul (by simpa using h)
    · exact absurd h (by decide)
  refine ⟨?_, strchr_append_cons hline hnul'⟩
  rw [List.append_assoc, List.cons_append] at hnul' ⊢
  exact strchr_append_cons hkey hnul'

/-- What the reader finds in a declaration. -/
lemma parseLine_declaration {key value : Text} (hnul : 0 ∉ key ++ equals :: value)
    (hkey : equals ∉ key) (hline : newline ∉ key ++ equals :: value)
    (hhash : (key ++ equals :: value).head? ≠ some hash) :
    parseLine (key ++ equals :: value ++ [newline]) = some (key, value) := by
  have hhead : (key ++ equals :: value ++ [newline]).head? = (key ++ equals :: value).head? :=
    List.head?_append_of_ne_nil _ (by simp)
  have hnewline : (key ++ equals :: value).head? ≠ some newline := fun h =>
    hline (List.mem_of_mem_head? h)
  obtain ⟨heq, hnl⟩ := strchr_declaration hnul hkey hline
  have hkeynul : 0 ∉ key := fun h => hnul (by simp [h])
  have hvaluenul : 0 ∉ value := fun h => hnul (by simp [h])
  have hlen : (key ++ equals :: value).length - key.length - 1 = value.length := by
    simp only [List.length_append, List.length_cons]
    omega
  rw [parseLine, hhead, if_neg (not_or.mpr ⟨hnewline, hhash⟩), heq, hnl]
  simp only [hlen, strncpy]
  rw [List.append_assoc, List.take_left, cstr_of_not_mem hkeynul, List.drop_length_add_append]
  simp only [List.cons_append, List.drop_succ_cons, List.drop_zero, List.take_left,
    cstr_of_not_mem hvaluenul]

/-- What the reader looks for before it declares anything. -/
lemma mem_of_parseLine {buffer : List Byte} {kv : Text × Text} (h : parseLine buffer = some kv) :
    equals ∈ cstr buffer ∧ newline ∈ cstr buffer ∧
      buffer.head? ≠ some newline ∧ buffer.head? ≠ some hash := by
  simp only [parseLine] at h
  split_ifs at h with hskip
  obtain ⟨hnewline, hhash⟩ := not_or.mp hskip
  cases heq : strchr buffer equals with
  | none => simp [heq] at h
  | some eq =>
      cases hnl : strchr buffer newline with
      | none => simp [heq, hnl] at h
      | some nl => exact ⟨mem_of_strchr heq, mem_of_strchr hnl, hnewline, hhash⟩

/-- A chunk that ends with its newline declares exactly what it should. -/
theorem parseLine_eq_some {line : List Byte} (hline : newline ∉ line) {key value : Text} :
    parseLine (line ++ [newline]) = some (key, value) ↔
      line = key ++ equals :: value ∧ equals ∉ key ∧ 0 ∉ line ∧ line.head? ≠ some hash := by
  constructor
  · intro h
    obtain ⟨heq, hnl, hnewline, hhash⟩ := mem_of_parseLine h
    have hnul : 0 ∉ line := by
      intro h0
      rw [cstr_append_of_mem h0] at hnl
      exact hline (List.takeWhile_subset _ hnl)
    have hmem : equals ∈ line := by
      rcases List.mem_append.mp (List.takeWhile_subset _ heq) with hmem | hlast
      · exact hmem
      · exact absurd (List.mem_singleton.mp hlast) (by decide)
    obtain ⟨key', value', rfl, hkey⟩ := List.eq_append_cons_of_mem hmem
    rw [List.head?_append_of_ne_nil _ (by simp)] at hhash
    rw [parseLine_declaration hnul hkey hline hhash] at h
    obtain ⟨rfl, rfl⟩ := Prod.mk.inj (Option.some.inj h)
    exact ⟨rfl, hkey, hnul, hhash⟩
  · rintro ⟨rfl, hkey, hnul, hhash⟩
    exact parseLine_declaration hnul hkey hline hhash

end Parse

/-! ### What the reader does with it -/

namespace Argparse

/-- The entry of `callbacks` that a buffer is dispatched to, and the value. -/
def dispatched (s : Argparse) (line : List Byte) : Option (CallbackEntry × Text) :=
  (parseLine line).bind fun kv => (s.getCallback kv.1).map fun cb => (cb, kv.2)

section Reader

variable (s : Argparse) (line : List Byte)

lemma getCallback_mem {key : Text} {cb : CallbackEntry} (h : s.getCallback key = some cb) :
    cb ∈ s.callbacks ∧ cb.key = key :=
  ⟨List.mem_of_find?_eq_some h, by simpa using List.find?_some h⟩

lemma getCallback_congr {s s' : Argparse} (h : s'.callbacks = s.callbacks) (key : Text) :
    s'.getCallback key = s.getCallback key := by
  rw [getCallback, getCallback, h]

lemma dispatched_congr {s s' : Argparse} (h : s'.callbacks = s.callbacks) (line : List Byte) :
    s'.dispatched line = s.dispatched line := by
  simp only [dispatched, getCallback_congr h]

lemma readLine_of_none (h : s.dispatched line = none) : s.readLine line = s := by
  simp only [readLine]
  cases hp : parseLine line with
  | none => rfl
  | some kv =>
      have hcb : s.getCallback kv.1 = none := by simpa [dispatched, hp] using h
      simp [hcb]

lemma dispatched_eq_some {cb : CallbackEntry} {value : Text} :
    s.dispatched line = some (cb, value) ↔
      parseLine line = some (cb.key, value) ∧ s.getCallback cb.key = some cb := by
  constructor
  · intro h
    obtain ⟨kv, hp, hmap⟩ := Option.bind_eq_some_iff.mp h
    obtain ⟨cb', hcb, heq⟩ := Option.map_eq_some_iff.mp hmap
    obtain ⟨rfl, rfl⟩ := Prod.mk.inj heq
    obtain ⟨-, hkey⟩ := getCallback_mem s hcb
    rw [hkey]
    exact ⟨hp, hcb⟩
  · rintro ⟨hp, hcb⟩
    simp [dispatched, hp, hcb]

lemma readLine_of_some {cb : CallbackEntry} {value : Text}
    (h : s.dispatched line = some (cb, value)) :
    s.readLine line = s.invoke cb.callback cb.key value := by
  obtain ⟨hp, hcb⟩ := (s.dispatched_eq_some line).mp h
  simp only [readLine, hp, hcb]

end Reader

/-! ### Turns -/

/-- The keys and the values of the calls of registered functions. -/
def callsOf (hist : List Act) : List (Text × Text) :=
  hist.filterMap fun
    | .call _ key value => some (key, value)
    | .write _ _ => none

/-- The assignments among what a reader does. -/
def writesOf (hist : List Act) : List (RegisteredPointer × Text) :=
  hist.filterMap fun
    | .call _ _ _ => none
    | .write p value => some (p, value)

/-- An act that the tables call for. -/
def Act.listed (s : Argparse) : Act → Prop
  | .call f key _ => ⟨key, f⟩ ∈ s.callbacks
  | .write p _ => p ∈ s.registeredPointers

/-- Every function in the table is that of a registered variable. -/
def Typed (s : Argparse) : Prop :=
  s.callbacks = s.registeredPointers.map fun p => ⟨p.key, .genericCallback⟩

/-- Turns of the reader, from one state to another: it registers nothing, does what the
tables call for, and assigns what it writes down, where all functions are those of
variables for every call. -/
structure Turn (s : Argparse) (l : List Act) (s' : Argparse) : Prop where
  hist : s'.hist = s.hist ++ l
  callbacks : s'.callbacks = s.callbacks
  pointers : s'.registeredPointers = s.registeredPointers
  listed : ∀ x ∈ l, x.listed s
  vars : s'.vars = (writesOf l).foldl (fun v w => v.write w.1 w.2) s.vars
  assigned : s.Typed → writesOf l
    = (callsOf l).filterMap fun kv => (s.getRegisteredPointer kv.1).map fun p => (p, kv.2)

section Turns

variable {s s' s'' : Argparse} {l l' : List Act}

lemma callsOf_append (h h' : List Act) : callsOf (h ++ h') = callsOf h ++ callsOf h' :=
  List.filterMap_append

lemma writesOf_append (h h' : List Act) : writesOf (h ++ h') = writesOf h ++ writesOf h' :=
  List.filterMap_append

lemma mem_writesOf {w : RegisteredPointer × Text} : w ∈ writesOf l ↔ .write w.1 w.2 ∈ l := by
  rw [writesOf, List.mem_filterMap]
  constructor
  · rintro ⟨x, hx, heq⟩
    cases x with
    | call f key value => cases heq
    | write p value => exact Option.some.inj heq ▸ hx
  · exact fun hw => ⟨_, hw, rfl⟩

lemma getCallback_typed (hs : s.Typed) (key : Text) :
    s.getCallback key
      = (s.getRegisteredPointer key).map fun p => ⟨p.key, .genericCallback⟩ := by
  rw [getCallback, hs, List.find?_map]
  rfl

namespace Turn

lemma refl (s : Argparse) : s.Turn [] s where
  hist := (List.append_nil s.hist).symm
  callbacks := rfl
  pointers := rfl
  listed := by simp
  vars := rfl
  assigned _ := rfl

lemma trans (h : s.Turn l s') (h' : s'.Turn l' s'') : s.Turn (l ++ l') s'' where
  hist := by rw [h'.hist, h.hist, List.append_assoc]
  callbacks := h'.callbacks.trans h.callbacks
  pointers := h'.pointers.trans h.pointers
  listed x hx := by
    rcases List.mem_append.mp hx with hx | hx
    · exact h.listed x hx
    · have hx' := h'.listed x hx
      cases x with
      | call f key value => rwa [Act.listed, h.callbacks] at hx'
      | write p value => rwa [Act.listed, h.pointers] at hx'
  vars := by rw [h'.vars, h.vars, writesOf_append, List.foldl_append]
  assigned hs := by
    have hs' : s'.Typed := by rwa [Typed, h.callbacks, h.pointers]
    rw [writesOf_append, callsOf_append, List.filterMap_append, h.assigned hs, h'.assigned hs']
    simp only [getRegisteredPointer, h.pointers]

lemma writes_mem (h : s.Turn l s') {w : RegisteredPointer × Text} (hw : w ∈ writesOf l) :
    w.1 ∈ s.registeredPointers := h.listed _ (mem_writesOf.mp hw)

end Turn

/-- A call is a turn, and assigns to at most one variable. -/
lemma invoke_turn {cb : CallbackEntry} (hcb : s.getCallback cb.key = some cb) (value : Text) :
    ∃ l, s.Turn (.call cb.callback cb.key value :: l) (s.invoke cb.callback cb.key value) ∧
      callsOf l = [] := by
  obtain ⟨key, f⟩ := cb
  have hmem : ⟨key, f⟩ ∈ s.callbacks := (getCallback_mem s hcb).1
  cases f with
  | client id =>
      refine ⟨[], ⟨rfl, rfl, rfl, by simpa [Act.listed] using hmem, rfl, fun hs => ?_⟩, rfl⟩
      -- a client's function is not that of a variable
      rw [getCallback_typed hs] at hcb
      obtain ⟨p, -, hp⟩ := Option.map_eq_some_iff.mp hcb
      cases congrArg CallbackEntry.callback hp
  | genericCallback =>
      cases hp : s.getRegisteredPointer key with
      | none =>
          rw [invoke_unregistered value hp]
          refine ⟨[], ⟨rfl, rfl, rfl, by simpa [Act.listed] using hmem, rfl, fun _ => ?_⟩, rfl⟩
          simp [writesOf, callsOf, hp]
      | some p =>
          rw [invoke_registered value hp]
          refine ⟨[.write p value], ⟨by simp [write], rfl, rfl, ?_, rfl, fun _ => ?_⟩, rfl⟩
          · simpa [Act.listed] using ⟨hmem, List.mem_of_find?_eq_some hp⟩
          · simp [writesOf, callsOf, hp]

variable (s)

/-- One turn of the loop makes the call that its line is dispatched to. -/
lemma readLine_turn (line : List Byte) :
    ∃ l, s.Turn l (s.readLine line) ∧
      callsOf l = ((s.dispatched line).map fun d => (d.1.key, d.2)).toList := by
  cases hd : s.dispatched line with
  | none => exact ⟨[], by rw [readLine_of_none s line hd]; exact Turn.refl s, rfl⟩
  | some d =>
      obtain ⟨cb, value⟩ := d
      obtain ⟨l, hturn, hnil⟩ := invoke_turn ((s.dispatched_eq_some line).mp hd).2 value
      refine ⟨_, by rw [readLine_of_some s line hd]; exact hturn, ?_⟩
      have hcons : callsOf (.call cb.callback cb.key value :: l) = (cb.key, value) :: callsOf l :=
        rfl
      rw [hcons, hnil]
      rfl

/-- So does the whole loop, for every line in order. -/
theorem readLines_turn (lines : List (List Byte)) :
    ∃ l, s.Turn l (lines.foldl readLine s) ∧
      callsOf l = lines.filterMap fun line => (s.dispatched line).map fun d => (d.1.key, d.2) := by
  induction lines generalizing s with
  | nil => exact ⟨[], Turn.refl s, rfl⟩
  | cons line rest ih =>
      obtain ⟨l, hturn, hcall⟩ := s.readLine_turn line
      obtain ⟨l', hturn', hcalls'⟩ := ih (s.readLine line)
      refine ⟨l ++ l', hturn.trans hturn', ?_⟩
      rw [callsOf_append, hcall, hcalls', List.filterMap_cons]
      simp only [dispatched_congr hturn.callbacks]
      cases (s.dispatched line).map fun d => (d.1.key, d.2) <;> rfl

end Turns

end Argparse

end Hearthbeat
