import Hearthbeat.Text.Bytes

/-!
`argparse.c`, the two tables of registrations and the callbacks.

A registration for a variable goes into both tables: `registered_pointers` has
the variable, `callbacks` the function `generic_callback`, which looks the
variable up by the key.
-/

namespace Hearthbeat

/-- A function registered through `argparse_register_argument`: the source's
`generic_callback`, or one of the client's. -/
inductive ArgsCallback where
  | genericCallback
  | client (id : ℕ)
  deriving DecidableEq, Repr

/-- The struct `callback`. -/
structure CallbackEntry where
  key : Text
  callback : ArgsCallback
  deriving DecidableEq

/-- The enum `type`. -/
inductive PointerType where
  | int
  | str
  | lst
  deriving DecidableEq, Repr

/-- The struct `registered_pointer`; a pointer is the number of a variable of its
type. -/
structure RegisteredPointer where
  key : Text
  t : PointerType
  ptr : ℕ
  deriving DecidableEq

/-- The variables of the clients: integers, strings with the null pointer, and
lists by the values of their cells. -/
structure Variables where
  ints : ℕ → ℤ
  strs : ℕ → Option Text
  lsts : ℕ → List Text

namespace Variables

/-- An integer is assigned. -/
def setInt (v : Variables) (p : ℕ) (x : ℤ) : Variables :=
  { v with ints := Function.update v.ints p x }

/-- A string is assigned. -/
def setStr (v : Variables) (p : ℕ) (x : Text) : Variables :=
  { v with strs := Function.update v.strs p (some x) }

/-- Put a cell at the end of a list. -/
def appendLst (v : Variables) (p : ℕ) (x : Text) : Variables :=
  { v with lsts := Function.update v.lsts p (v.lsts p ++ [x]) }

/-- The variables after an assignment through a registered pointer. -/
def write (v : Variables) (p : RegisteredPointer) (value : Text) : Variables :=
  match p.t with
  | .int => v.setInt p.ptr (atoi value)
  | .str => v.setStr p.ptr value
  | .lst => v.appendLst p.ptr value

end Variables

namespace Argparse

/-- What a reader does: call a registered function, or assign to a variable. -/
inductive Act where
  | call (callback : ArgsCallback) (key value : Text)
  | write (pointer : RegisteredPointer) (value : Text)

end Argparse

/-- The globals of `argparse.c`, the variables of its clients, and the history of
its readers. -/
structure Argparse where
  callbacks : List CallbackEntry
  registeredPointers : List RegisteredPointer
  vars : Variables
  hist : List Argparse.Act

namespace Argparse

/-- The tables of a program that has registered nothing. -/
def start (v : Variables) : Argparse := ⟨[], [], v, []⟩

/-- The source's `argparse_register_argument`. -/
def registerArgument (s : Argparse) (key : Text) (function : ArgsCallback) : Argparse :=
  { s with callbacks := s.callbacks ++ [⟨key, function⟩] }

/-- The source's `get_callback`. -/
def getCallback (s : Argparse) (key : Text) : Option CallbackEntry :=
  s.callbacks.find? fun c => c.key == key

/-- The source's `get_registered_pointer`. -/
def getRegisteredPointer (s : Argparse) (key : Text) : Option RegisteredPointer :=
  s.registeredPointers.find? fun p => p.key == key

/-- Write down what is done. -/
def log (s : Argparse) (x : Act) : Argparse := { s with hist := s.hist ++ [x] }

/-- Assign a value to a registered variable, by its type. -/
def write (s : Argparse) (p : RegisteredPointer) (value : Text) : Argparse :=
  { s.log (.write p value) with vars := s.vars.write p value }

/-- The source's `generic_callback`: the variable is looked up by the key. -/
def genericCallback (s : Argparse) (key value : Text) : Argparse :=
  match s.getRegisteredPointer key with
  | none => s
  | some pointer => s.write pointer value

/-- Call a registered function; what one of the client's does is not seen here. -/
def invoke (s : Argparse) (callback : ArgsCallback) (key value : Text) : Argparse :=
  let s := s.log (.call callback key value)
  match callback with
  | .genericCallback => s.genericCallback key value
  | .client _ => s

/-- The source's `register_pointer`. -/
def registerPointer (s : Argparse) (key : Text) (t : PointerType) (ptr : ℕ) : Argparse :=
  let newPtr : RegisteredPointer := ⟨key, t, ptr⟩
  { s with registeredPointers := s.registeredPointers ++ [newPtr] }.registerArgument key
    .genericCallback

/-- The source's `argparse_register_argument_int`. -/
def registerArgumentInt (s : Argparse) (key : Text) (ptr : ℕ) : Argparse :=
  s.registerPointer key .int ptr

/-- The source's `argparse_register_argument_str`. -/
def registerArgumentStr (s : Argparse) (key : Text) (ptr : ℕ) : Argparse :=
  s.registerPointer key .str ptr

/-- The source's `argparse_register_argument_strlst`. -/
def registerArgumentStrlst (s : Argparse) (key : Text) (ptr : ℕ) : Argparse :=
  s.registerPointer key .lst ptr

/-- The source's `argparse_register_argument_int_def`: the default is assigned at once. -/
def registerArgumentIntDef (s : Argparse) (key : Text) (ptr : ℕ) (dflt : ℤ) : Argparse :=
  { s with vars := s.vars.setInt ptr dflt }.registerArgumentInt key ptr

/-- The source's `argparse_register_argument_str_def`. -/
def registerArgumentStrDef (s : Argparse) (key : Text) (ptr : ℕ) (dflt : Text) : Argparse :=
  { s with vars := s.vars.setStr ptr dflt }.registerArgumentStr key ptr

/-- A call of one of the six registering functions. -/
inductive Registration where
  | argument (key : Text) (function : ArgsCallback)
  | int (key : Text) (ptr : ℕ)
  | str (key : Text) (ptr : ℕ)
  | strlst (key : Text) (ptr : ℕ)
  | intDef (key : Text) (ptr : ℕ) (dflt : ℤ)
  | strDef (key : Text) (ptr : ℕ) (dflt : Text)

/-- One of the six functions is called. -/
def register (s : Argparse) : Registration → Argparse
  | .argument key function => s.registerArgument key function
  | .int key ptr => s.registerArgumentInt key ptr
  | .str key ptr => s.registerArgumentStr key ptr
  | .strlst key ptr => s.registerArgumentStrlst key ptr
  | .intDef key ptr dflt => s.registerArgumentIntDef key ptr dflt
  | .strDef key ptr dflt => s.registerArgumentStrDef key ptr dflt

namespace Registration

/-- The entry that a registration makes in `callbacks`. -/
def callback : Registration → CallbackEntry
  | .argument key function => ⟨key, function⟩
  | .int key _ | .str key _ | .strlst key _ | .intDef key _ _ | .strDef key _ _ =>
      ⟨key, .genericCallback⟩

/-- The entry that a registration makes in `registered_pointers`, if any. -/
def pointer : Registration → Option RegisteredPointer
  | .argument _ _ => none
  | .int key ptr | .intDef key ptr _ => some ⟨key, .int, ptr⟩
  | .str key ptr | .strDef key ptr _ => some ⟨key, .str, ptr⟩
  | .strlst key ptr => some ⟨key, .lst, ptr⟩

end Registration

section Tables

variable (s : Argparse) (r : Registration) (key value : Text)

@[simp] lemma register_callbacks : (s.register r).callbacks = s.callbacks ++ [r.callback] := by
  cases r <;> rfl

@[simp] lemma register_pointers :
    (s.register r).registeredPointers = s.registeredPointers ++ r.pointer.toList := by
  cases r <;> simp [register, registerArgument, registerArgumentInt, registerArgumentStr,
    registerArgumentStrlst, registerArgumentIntDef, registerArgumentStrDef, registerPointer,
    Registration.pointer]

@[simp] lemma register_hist : (s.register r).hist = s.hist := by
  cases r <;> rfl

@[simp] lemma log_hist (x : Act) : (s.log x).hist = s.hist ++ [x] := rfl
@[simp] lemma log_getRegisteredPointer (x : Act) :
    (s.log x).getRegisteredPointer key = s.getRegisteredPointer key := rfl

variable {s key} in
/-- The function of a variable that is not registered only leaves its call. -/
lemma invoke_unregistered (h : s.getRegisteredPointer key = none) :
    s.invoke .genericCallback key value = s.log (.call .genericCallback key value) := by
  simp only [invoke, genericCallback, log_getRegisteredPointer, h]

variable {s key} in
lemma invoke_registered {p : RegisteredPointer} (h : s.getRegisteredPointer key = some p) :
    s.invoke .genericCallback key value
      = (s.log (.call .genericCallback key value)).write p value := by
  simp only [invoke, genericCallback, log_getRegisteredPointer, h]

end Tables

end Argparse

end Hearthbeat
