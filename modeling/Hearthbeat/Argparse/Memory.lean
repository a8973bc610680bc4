import Hearthbeat.Memory.Chain
import Hearthbeat.Argparse.Properties

/-!
The variables of the clients in memory: strings and cells at addresses of their own,
string variables with the address of a string, list variables with that of a cell.

* `represents_runSession`: every session of every program does to the memory what it does
  to the variables, if its list variables are well-formed lists apart from each other. It
  finds the end of every list, and leaves well-formed lists apart.
* `reads_runSession`: what a session with typed registrations leaves in their variables,
  by the declarations of the file.
-/

namespace Hearthbeat

/-- The variables of the clients in memory: integers, pointers to strings, the strings that
were allocated, heads of lists, and the cells of lists. -/
structure Memory where
  ints : ℕ → ℤ
  strs : ℕ → Option ℕ
  strings : List Text
  heads : ℕ → Option ℕ
  cells : Arena Text

namespace Memory

open Argparse (Registration Session pointers start valuesOf writesOf)

/-- The string that a variable points to. -/
def str (m : Memory) (p : ℕ) : Option Text := (m.strs p).bind fun a => m.strings[a]?

/-- An integer is assigned. -/
def setInt (m : Memory) (p : ℕ) (x : ℤ) : Memory := { m with ints := Function.update m.ints p x }

/-- A new string, and a variable that points to it. -/
def setStr (m : Memory) (p : ℕ) (x : Text) : Memory :=
  { m with
    strs := Function.update m.strs p (some m.strings.length)
    strings := m.strings ++ [x] }

/-- A new cell at the end of a list: none if the end is not found. -/
def appendLst (m : Memory) (p : ℕ) (x : Text) : Option Memory :=
  (m.cells.push (m.heads p) x).map fun (head, cells) =>
    { m with heads := Function.update m.heads p head, cells := cells }

/-- What `generic_callback` does with the variable it has found. -/
def write (m : Memory) (p : RegisteredPointer) (value : Text) : Option Memory :=
  match p.t with
  | .int => some (m.setInt p.ptr (atoi value))
  | .str => some (m.setStr p.ptr value)
  | .lst => m.appendLst p.ptr value

/-- A default is assigned at once. The client has its string in memory already; here it
comes with the assignment. -/
def register (m : Memory) : Registration → Memory
  | .intDef _ ptr dflt => m.setInt ptr dflt
  | .strDef _ ptr dflt => m.setStr ptr dflt
  | _ => m

/-- What a reader does to the memory. -/
def act (m : Memory) : Argparse.Act → Option Memory
  | .call _ _ _ => some m
  | .write p value => m.write p value

/-- The memory after a session: none if the reader does not get through it. -/
def runSession (m : Memory) (s : Argparse) (σ : Session) : Option Memory :=
  (s.acts σ).foldlM act (σ.registrations.foldl register m)

/-- The lists at some variables, with their cells and their values: well formed and
apart from each other. -/
structure Lists (m : Memory) (P : Set ℕ) (addrs : ℕ → List ℕ) (xs : ℕ → List Text) : Prop where
  chain : ∀ p ∈ P, m.cells.Chain (m.heads p) (addrs p) (xs p)
  disjoint : ∀ p ∈ P, ∀ q ∈ P, p ≠ q → (addrs p).Disjoint (addrs q)

/-- The memory holds the variables; for a variable without a string it may hold any
address. -/
structure Represents (m : Memory) (v : Variables) (P : Set ℕ) : Prop where
  ints : m.ints = v.ints
  strs : ∀ p x, v.strs p = some x → m.str p = some x
  lists : ∃ addrs, m.Lists P addrs v.lsts

/-- The variables that a memory holds, with the values of its lists. -/
def view (m : Memory) (xs : ℕ → List Text) : Variables := ⟨m.ints, m.str, xs⟩

/-- Well-formed lists apart from each other are all that is asked of a memory. -/
lemma Lists.represents {m : Memory} {P : Set ℕ} {addrs : ℕ → List ℕ} {xs : ℕ → List Text}
    (h : m.Lists P addrs xs) : m.Represents (m.view xs) P :=
  ⟨rfl, fun _ _ hx => hx, addrs, h⟩

/-! ### What one assignment does -/

section Write

variable {m m' : Memory} {v : Variables} {P : Set ℕ}

@[simp] lemma setStr_str (p q : ℕ) (x : Text) :
    (m.setStr p x).strs q = if q = p then some m.strings.length else m.strs q := by
  simp [setStr, Function.update_apply]

/-- Strings stay where they are. -/
lemma str_setStr {p q : ℕ} {x y : Text} (hne : q ≠ p) (h : m.str q = some y) :
    (m.setStr p x).str q = some y := by
  obtain ⟨a, ha, hy⟩ := Option.bind_eq_some_iff.mp h
  have hlt : a < m.strings.length := (List.getElem?_eq_some_iff.mp hy).1
  rw [str, setStr_str, if_neg hne, ha, Option.bind_some, setStr]
  exact (List.getElem?_append_left hlt).trans hy

lemma str_setStr_self (p : ℕ) (x : Text) : (m.setStr p x).str p = some x := by
  rw [str, setStr_str, if_pos rfl, Option.bind_some, setStr]
  simp

namespace Represents

lemma setInt (hm : m.Represents v P) (p : ℕ) (x : ℤ) :
    (m.setInt p x).Represents (v.setInt p x) P :=
  ⟨by rw [Memory.setInt, Variables.setInt, hm.ints], hm.strs,
    hm.lists.imp fun _ h => ⟨h.chain, h.disjoint⟩⟩

lemma setStr (hm : m.Represents v P) (p : ℕ) (x : Text) :
    (m.setStr p x).Represents (v.setStr p x) P := by
  refine ⟨hm.ints, fun q y hq => ?_, hm.lists.imp fun _ h => ⟨h.chain, h.disjoint⟩⟩
  simp only [Variables.setStr, Function.update_apply] at hq
  split_ifs at hq with heq
  · rw [heq, str_setStr_self, hq]
  · exact str_setStr heq (hm.strs q y hq)

lemma appendLst (hm : m.Represents v P) {p : ℕ} (hp : p ∈ P) (x : Text) :
    ∃ m', m.appendLst p x = some m' ∧ m'.Represents (v.appendLst p x) P := by
  obtain ⟨addrs, hlists⟩ := hm.lists
  obtain ⟨head, cells, hpush, hchain, hframe⟩ := Arena.push_chain (hlists.chain p hp) x
  refine ⟨{ m with heads := Function.update m.heads p head, cells := cells }, by
    rw [Memory.appendLst, hpush]; rfl, hm.ints, hm.strs,
    Function.update addrs p (addrs p ++ [m.cells.length]), ?_, ?_⟩
  · intro q hq
    simp only [Variables.appendLst, Function.update_apply]
    split_ifs with heq
    · exact hchain
    · exact hframe (hlists.chain q hq) (hlists.disjoint q hq p hp heq)
  · have hfresh : ∀ q ∈ P, m.cells.length ∉ addrs q := fun q hq hmem =>
      absurd ((hlists.chain q hq).lt _ hmem) (lt_irrefl _)
    intro q hq r hr hne
    simp only [Function.update_apply]
    split_ifs with hqp hrp hrp
    · exact absurd (hqp.trans hrp.symm) hne
    · subst hqp
      simpa using ⟨hlists.disjoint q hq r hr hne, hfresh r hr⟩
    · subst hrp
      simpa using ⟨hlists.disjoint q hq r hr hne, hfresh q hq⟩
    · exact hlists.disjoint q hq r hr hne

/-- An assignment does to the memory what it does to the variables. -/
lemma write (hm : m.Represents v P) {p : RegisteredPointer} (hp : p.t = .lst → p.ptr ∈ P)
    (x : Text) : ∃ m', m.write p x = some m' ∧ m'.Represents (v.write p x) P := by
  obtain ⟨key, t, ptr⟩ := p
  cases t with
  | int => exact ⟨_, rfl, hm.setInt ptr (atoi x)⟩
  | str => exact ⟨_, rfl, hm.setStr ptr x⟩
  | lst => exact hm.appendLst (hp rfl) x

end Represents

end Write

/-! ### What a session does -/

section Session

variable {m m' : Memory} {v : Variables} {s : Argparse} {P : Set ℕ}

lemma Represents.register (hm : m.Represents s.vars P) (r : Registration) :
    (m.register r).Represents (s.register r).vars P := by
  cases r with
  | intDef key ptr dflt => exact hm.setInt ptr dflt
  | strDef key ptr dflt => exact hm.setStr ptr dflt
  | _ => exact hm

lemma Represents.registers (hm : m.Represents s.vars P) (rs : List Registration) :
    (rs.foldl Memory.register m).Represents (rs.foldl Argparse.register s).vars P := by
  induction rs generalizing m s with
  | nil => exact hm
  | cons r rs ih => exact ih (hm.register r)

lemma Represents.writes (hm : m.Represents v P) {ws : List (RegisteredPointer × Text)}
    (hws : ∀ w ∈ ws, w.1.t = .lst → w.1.ptr ∈ P) :
    ∃ m', ws.foldlM (fun m w => m.write w.1 w.2) m = some m' ∧
      m'.Represents (ws.foldl (fun v w => v.write w.1 w.2) v) P := by
  induction ws generalizing m v with
  | nil => exact ⟨m, rfl, hm⟩
  | cons w ws ih =>
      obtain ⟨m₁, hwrite, hm₁⟩ := hm.write (hws w List.mem_cons_self) w.2
      obtain ⟨m', hrest, hm'⟩ := ih hm₁ fun w' hw' => hws w' (List.mem_cons_of_mem w hw')
      exact ⟨m', by rw [List.foldlM_cons, hwrite]; exact hrest, hm'⟩

/-- The memory follows the assignments only. -/
lemma foldlM_act (l : List Argparse.Act) :
    l.foldlM act m = (writesOf l).foldlM (fun m w => m.write w.1 w.2) m := by
  induction l generalizing m with
  | nil => rfl
  | cons x l ih =>
      cases x with
      | call f key value => exact ih
      | write p value =>
          have hcons : writesOf (.write p value :: l) = (p, value) :: writesOf l := rfl
          rw [hcons, List.foldlM_cons, List.foldlM_cons]
          exact congrArg _ (funext fun m₁ => ih)

/-- A session does to the memory what it does to the variables. -/
theorem represents_runSession (hm : m.Represents s.vars P) {σ : Session}
    (hP : ∀ p ∈ s.registeredPointers ++ pointers σ.registrations, p.t = .lst → p.ptr ∈ P) :
    ∃ m', m.runSession s σ = some m' ∧ m'.Represents (s.runSession σ).vars P := by
  obtain ⟨hptr, hvars⟩ := s.runSession_vars σ
  rw [runSession, foldlM_act, hvars]
  exact (hm.registers σ.registrations).writes fun w hw => hP w.1 (hptr w hw)

/-- The memory after some sessions. -/
def run (m : Memory) (s : Argparse) : List Session → Option Memory
  | [] => some m
  | σ :: ss => (m.runSession s σ).bind fun m' => m'.run (s.runSession σ) ss

/-- So does every program. -/
theorem represents_run (hm : m.Represents s.vars P) {ss : List Session}
    (hP : ∀ p ∈ s.registeredPointers ++ ss.flatMap fun σ => pointers σ.registrations,
      p.t = .lst → p.ptr ∈ P) :
    ∃ m', m.run s ss = some m' ∧ m'.Represents (Argparse.machine.exec s ss).vars P := by
  induction ss generalizing m s with
  | nil => exact ⟨m, rfl, hm⟩
  | cons σ ss ih =>
      have hfirst : ∀ p ∈ s.registeredPointers ++ pointers σ.registrations,
          p.t = .lst → p.ptr ∈ P := fun p hp => hP p (by
        rw [List.flatMap_cons, ← List.append_assoc]
        exact List.mem_append_left _ hp)
      obtain ⟨m₁, hrun, hm₁⟩ := represents_runSession hm hfirst
      obtain ⟨m', hrest, hm'⟩ := ih hm₁ fun p hp => by
        rcases List.mem_append.mp hp with hp | hp
        · exact hfirst p (Argparse.runSession_pointers s σ hp)
        · exact hP p (by simp [hp])
      exact ⟨m', by rw [run, hrun]; exact hrest, hm'⟩

end Session

/-! ### What is left of a session in a variable -/

/-- A variable is as it was. -/
def Same (m m' : Memory) : PointerType → ℕ → Prop
  | .int, p => m'.ints p = m.ints p
  | .str, p => m'.strs p = m.strs p
  | .lst, p => m'.heads p = m.heads p

/-- A variable points to a string that is not among the first `old`. -/
def Copy (m : Memory) (old p : ℕ) (x : Text) : Prop :=
  ∃ a, old ≤ a ∧ m.strs p = some a ∧ m.strings[a]? = some x

section Frame

variable {m m₁ m' : Memory} {t : PointerType} {q : ℕ}

lemma Same.trans (h : m.Same m₁ t q) (h' : m₁.Same m' t q) : m.Same m' t q := by
  cases t <;> exact Eq.trans h' h

lemma same_refl : m.Same m t q := by
  cases t <;> rfl

lemma same_setInt {p : ℕ} (x : ℤ) (hne : ¬ (PointerType.int = t ∧ p = q)) :
    m.Same (m.setInt p x) t q := by
  cases t with
  | int => exact Function.update_of_ne (fun h => hne ⟨rfl, h.symm⟩) x m.ints
  | _ => rfl

lemma same_setStr {p : ℕ} (x : Text) (hne : ¬ (PointerType.str = t ∧ p = q)) :
    m.Same (m.setStr p x) t q := by
  cases t with
  | str => exact Function.update_of_ne (fun h => hne ⟨rfl, h.symm⟩) _ m.strs
  | _ => rfl

lemma strings_setStr (p : ℕ) (x : Text) : m.strings <+: (m.setStr p x).strings :=
  List.prefix_append _ _

/-- An assignment leaves the other variables alone, and the strings. -/
lemma write_frame {p : RegisteredPointer} {x : Text} (h : m.write p x = some m') :
    (¬ (p.t = t ∧ p.ptr = q) → m.Same m' t q) ∧ m.strings <+: m'.strings := by
  obtain ⟨key, t', ptr⟩ := p
  cases t' with
  | int =>
      obtain rfl := Option.some.inj h
      exact ⟨same_setInt _, List.prefix_rfl⟩
  | str =>
      obtain rfl := Option.some.inj h
      exact ⟨same_setStr _, strings_setStr _ _⟩
  | lst =>
      obtain ⟨⟨head, cells⟩, -, rfl⟩ := Option.map_eq_some_iff.mp h
      refine ⟨fun hne => ?_, List.prefix_rfl⟩
      cases t with
      | lst => exact Function.update_of_ne (fun h => hne ⟨rfl, h.symm⟩) _ m.heads
      | _ => rfl

/-- A default leaves the other variables alone, and the strings. -/
lemma register_frame (r : Registration) :
    ((∀ p, r.pointer = some p → ¬ (p.t = t ∧ p.ptr = q)) → m.Same (m.register r) t q) ∧
      m.strings <+: (m.register r).strings := by
  cases r with
  | intDef key ptr dflt => exact ⟨fun h => same_setInt _ (h _ rfl), List.prefix_rfl⟩
  | strDef key ptr dflt => exact ⟨fun h => same_setStr _ (h _ rfl), strings_setStr _ _⟩
  | _ => exact ⟨fun _ => same_refl, List.prefix_rfl⟩

lemma registers_frame (rs : List Registration) :
    ((∀ p ∈ pointers rs, ¬ (p.t = t ∧ p.ptr = q)) → m.Same (rs.foldl register m) t q) ∧
      m.strings <+: (rs.foldl register m).strings := by
  induction rs generalizing m with
  | nil => exact ⟨fun _ => same_refl, List.prefix_rfl⟩
  | cons r rs ih =>
      obtain ⟨hsame, hgrowth⟩ := register_frame (m := m) (t := t) (q := q) r
      obtain ⟨hsames, hgrowths⟩ := ih (m := m.register r)
      refine ⟨fun h => (hsame fun p hp => h p ?_).trans (hsames fun p hp => h p ?_),
        hgrowth.trans hgrowths⟩
      · simp [pointers, hp]
      · rw [pointers, List.filterMap_cons]
        split
        · exact hp
        · exact List.mem_cons_of_mem _ hp

/-- Assignments leave alone what none of them is to. -/
lemma writes_frame {ws : List (RegisteredPointer × Text)}
    (h : ws.foldlM (fun m w => m.write w.1 w.2) m = some m') :
    (valuesTo t q ws = [] → m.Same m' t q) ∧ m.strings <+: m'.strings := by
  induction ws generalizing m with
  | nil =>
      obtain rfl := Option.some.inj h
      exact ⟨fun _ => same_refl, List.prefix_rfl⟩
  | cons w ws ih =>
      obtain ⟨m₁, hwrite, hrest⟩ := Option.bind_eq_some_iff.mp h
      obtain ⟨hsame, hgrowth⟩ := write_frame (t := t) (q := q) hwrite
      obtain ⟨hsames, hgrowths⟩ := ih hrest
      refine ⟨fun hnil => ?_, hgrowth.trans hgrowths⟩
      rw [valuesTo_cons] at hnil
      split_ifs at hnil with hw
      exact (hsame hw).trans (hsames hnil)

/-- The last assignment to a string variable leaves a copy. -/
lemma writes_copy {ws : List (RegisteredPointer × Text)}
    (h : ws.foldlM (fun m w => m.write w.1 w.2) m = some m') {x : Text}
    (hx : (valuesTo .str q ws).getLast? = some x) : m'.Copy m.strings.length q x := by
  induction ws generalizing m with
  | nil => cases hx
  | cons w ws ih =>
      obtain ⟨m₁, hwrite, hrest⟩ := Option.bind_eq_some_iff.mp h
      rw [valuesTo_cons] at hx
      by_cases hnil : valuesTo .str q ws = []
      · -- the first assignment is the last one to the variable
        obtain ⟨hsame, suffix, hsuffix⟩ := writes_frame (t := .str) (q := q) hrest
        split_ifs at hx with hw
        · have hvalue : w.2 = x := by simpa [hnil] using hx
          have hstep : m₁ = m.setStr q x := by
            have hset : m.write w.1 w.2 = some (m.setStr q x) := by
              rw [write, hw.1, hw.2, hvalue]
            exact Option.some.inj (hwrite.symm.trans hset)
          have hptr : m'.strs q = m₁.strs q := hsame hnil
          refine ⟨m.strings.length, le_rfl, ?_, ?_⟩
          · rw [hptr, hstep, setStr_str, if_pos rfl]
          · rw [← hsuffix, hstep, setStr]
            simp
        · rw [hnil] at hx
          cases hx
      · have hlast : (valuesTo .str q ws).getLast? = some x := by
          split_ifs at hx with hw
          · rwa [List.getLast?_cons_of_ne_nil hnil] at hx
          · exact hx
        obtain ⟨a, hle, hptr, hstr⟩ := ih hrest hlast
        exact ⟨a, (write_frame (t := .str) (q := q) hwrite).2.length_le.trans hle, hptr, hstr⟩

/-- The memory around a registration of a variable: the others leave it alone. -/
lemma registers_split {rs : List Registration} (hrs : Argparse.WellRegistered rs)
    {r : Registration} (hr : r ∈ rs) {p : RegisteredPointer} (hp : r.pointer = some p) :
    ∃ before : Memory, m.Same before p.t p.ptr ∧
      (before.register r).Same (rs.foldl register m) p.t p.ptr ∧
      (before.register r).strings <+: (rs.foldl register m).strings := by
  obtain ⟨a, b, rfl⟩ := List.append_of_mem hr
  have hpointers : pointers (a ++ r :: b) = pointers a ++ p :: pointers b := by
    rw [pointers, List.filterMap_append, List.filterMap_cons_some hp]
    rfl
  have hvars := hrs.vars
  rw [hpointers, List.map_append, List.map_cons, List.nodup_middle, List.nodup_cons,
    ← List.map_append, List.mem_map] at hvars
  have hapart : ∀ q ∈ pointers a ++ pointers b, ¬ (q.t = p.t ∧ q.ptr = p.ptr) := by
    rintro q hq ⟨ht, hptr⟩
    exact hvars.1 ⟨q, hq, by rw [ht, hptr]⟩
  rw [List.foldl_append, List.foldl_cons]
  obtain ⟨hbefore, -⟩ := registers_frame (m := m) (t := p.t) (q := p.ptr) a
  obtain ⟨hafter, hgrowth⟩ :=
    registers_frame (m := (a.foldl register m).register r) (t := p.t) (q := p.ptr) b
  exact ⟨a.foldl register m, hbefore fun q hq => hapart q (List.mem_append_left _ hq),
    hafter fun q hq => hapart q (List.mem_append_right _ hq), hgrowth⟩

end Frame

/-! ### What a session leaves -/

/-- The list variables that are registered. -/
def listsOf (rs : List Registration) : Set ℕ := {p | ∃ key, Registration.strlst key p ∈ rs}

/-- What the declarations of a file leave in the variable of a registration. The memory
is `m` before the session, `m₁` behind the registrations and `m'` behind the reader. -/
def Settled (m m₁ m' : Memory) (v : Variables) (f : List Byte) : Registration → Prop
  | .argument _ _ => False
  | .int key p => m'.ints p = ((valuesOf f key).getLast?.map atoi).getD (m.ints p)
  | .intDef key p dflt => m'.ints p = ((valuesOf f key).getLast?.map atoi).getD dflt
  | .str key p =>
      match (valuesOf f key).getLast? with
      | none => m'.strs p = m.strs p
      | some x => m'.Copy m₁.strings.length p x
  | .strDef key p dflt =>
      match (valuesOf f key).getLast? with
      | none => m'.strs p = m₁.strs p ∧ m'.str p = some dflt
      | some x => m'.Copy m₁.strings.length p x
  | .strlst key p => ∃ is, m'.cells.Chain (m'.heads p) is (v.lsts p ++ valuesOf f key)

/-- What a session does to the memory of a program with the variables `v`. -/
structure Reads (m m' : Memory) (v : Variables) (rs : List Registration) (f : List Byte) :
    Prop where
  settled : ∀ r ∈ rs, Settled m (rs.foldl register m) m' v f r
  others : ∀ t q, (∀ p ∈ pointers rs, ¬ (p.t = t ∧ p.ptr = q)) → m.Same m' t q
  strings : m.strings <+: m'.strings
  lists : ∃ addrs xs, m'.Lists (listsOf rs) addrs xs
  fits : ∀ kv ∈ Argparse.declarations f, kv.1.length < 256 ∧ kv.2.length < 256

section Reads

variable {m m₁ m' : Memory} {rs : List Registration} {f : List Byte}

lemma mem_listsOf {p : RegisteredPointer} (hp : p ∈ pointers rs) (ht : p.t = .lst) :
    p.ptr ∈ listsOf rs := by
  obtain ⟨r, hr, hptr⟩ := List.mem_filterMap.mp hp
  cases r <;> cases hptr <;> cases ht
  exact ⟨_, hr⟩

/-- A string stays in a variable that stays as it was. -/
lemma str_of_same {p : ℕ} {x : Text} (hsame : m.Same m' .str p)
    (hgrowth : m.strings <+: m'.strings) (h : m.str p = some x) : m'.str p = some x := by
  obtain ⟨a, ha, hx⟩ := Option.bind_eq_some_iff.mp h
  obtain ⟨suffix, hsuffix⟩ := hgrowth
  have hptr : m'.strs p = some a := Eq.trans hsame ha
  rw [str, hptr, Option.bind_some, ← hsuffix,
    List.getElem?_append_left (List.getElem?_eq_some_iff.mp hx).1, hx]

/-- What the assignments of a file leave in an integer variable. -/
lemma ints_assigned {v : Variables} {P : Set ℕ} (hrs : Argparse.WellRegistered rs) {key : Text}
    {p : ℕ} (hp : ⟨key, .int, p⟩ ∈ pointers rs) (hm₁ : m₁.Represents v P)
    (hm' : m'.Represents ((Argparse.assignments rs f).foldl (fun v w => v.write w.1 w.2) v) P) :
    m'.ints p = ((valuesOf f key).getLast?.map atoi).getD (m₁.ints p) := by
  have hget := get_writes v .int p (Argparse.assignments rs f)
  rw [Argparse.valuesTo_assignments f hrs hp] at hget
  simp only [Variables.get, foldl_assign_int] at hget
  rw [hm'.ints, hm₁.ints]
  exact Value.int.inj hget

/-- What they leave in a list variable. -/
lemma lsts_assigned (v : Variables) (hrs : Argparse.WellRegistered rs) {key : Text} {p : ℕ}
    (hp : ⟨key, .lst, p⟩ ∈ pointers rs) :
    ((Argparse.assignments rs f).foldl (fun v w => v.write w.1 w.2) v).lsts p
      = v.lsts p ++ valuesOf f key := by
  have hget := get_writes v .lst p (Argparse.assignments rs f)
  rw [Argparse.valuesTo_assignments f hrs hp] at hget
  simp only [Variables.get, foldl_assign_lst] at hget
  exact Value.lst.inj hget

/-- What they leave in a string variable: the last value, or what it had. -/
lemma strs_assigned (hrs : Argparse.WellRegistered rs) {key : Text} {p : ℕ}
    (hp : ⟨key, .str, p⟩ ∈ pointers rs)
    (h : (Argparse.assignments rs f).foldlM (fun m w => m.write w.1 w.2) m₁ = some m') :
    ((valuesOf f key).getLast? = none → m₁.Same m' .str p) ∧
      ∀ x, (valuesOf f key).getLast? = some x → m'.Copy m₁.strings.length p x := by
  have hvalues := Argparse.valuesTo_assignments f hrs hp
  refine ⟨fun hnone => (writes_frame h).1 ?_, fun x hx => writes_copy h ?_⟩
  · exact hvalues.trans (List.getLast?_eq_none_iff.mp hnone)
  · exact (congrArg List.getLast? hvalues).trans hx

/-- What they leave in the variable of a registration, by its type and its default. -/
lemma settled_of_mem {s : Argparse} (hrs : Argparse.WellRegistered rs)
    (hm : m.Represents s.vars (listsOf rs))
    (h : (Argparse.assignments rs f).foldlM (fun m w => m.write w.1 w.2) (rs.foldl register m)
      = some m')
    (hm' : m'.Represents ((Argparse.assignments rs f).foldl (fun v w => v.write w.1 w.2)
      (rs.foldl Argparse.register s).vars) (listsOf rs))
    {r : Registration} (hr : r ∈ rs) : Settled m (rs.foldl register m) m' s.vars f r := by
  have hm₁ := hm.registers rs
  have hmem : ∀ p, r.pointer = some p → p ∈ pointers rs := fun p hptr =>
    List.mem_filterMap.mpr ⟨r, hr, hptr⟩
  -- by the type: what the registration stored there, then what the lines assign
  cases r with
  | argument key function => exact absurd (hrs.typed _ hr) (by simp [Registration.pointer])
  | int key p =>
      obtain ⟨before, hbefore, hafter, -⟩ := registers_split (m := m) hrs hr rfl
      have hold : (rs.foldl register m).ints p = m.ints p := Eq.trans hafter hbefore
      rw [Settled, ints_assigned hrs (hmem _ rfl) hm₁ hm', hold]
  | intDef key p dflt =>
      obtain ⟨before, -, hafter, -⟩ := registers_split (m := m) hrs hr rfl
      have hold : (rs.foldl register m).ints p = dflt :=
        Eq.trans hafter (Function.update_self _ _ _)
      rw [Settled, ints_assigned hrs (hmem _ rfl) hm₁ hm', hold]
  | str key p =>
      obtain ⟨before, hbefore, hafter, -⟩ := registers_split (m := m) hrs hr rfl
      obtain ⟨hkept, hcopied⟩ := strs_assigned hrs (hmem _ rfl) h
      rw [Settled]
      cases hlast : (valuesOf f key).getLast? with
      | none => exact (hbefore.trans hafter).trans (hkept hlast)
      | some x => exact hcopied x hlast
  | strDef key p dflt =>
      obtain ⟨before, -, hafter, hgrowth⟩ := registers_split (m := m) hrs hr rfl
      obtain ⟨hkept, hcopied⟩ := strs_assigned hrs (hmem _ rfl) h
      rw [Settled]
      cases hlast : (valuesOf f key).getLast? with
      | none =>
          have hdflt := str_of_same hafter hgrowth (str_setStr_self p dflt)
          have hstrings := (writes_frame (t := .str) (q := p) h).2
          exact ⟨hkept hlast, str_of_same (hkept hlast) hstrings hdflt⟩
      | some x => exact hcopied x hlast
  | strlst key p =>
      obtain ⟨addrs, hlists⟩ := hm'.lists
      have hchain := hlists.chain p ⟨key, hr⟩
      rw [lsts_assigned _ hrs (hmem _ rfl), Argparse.foldl_register_lsts] at hchain
      exact ⟨addrs p, hchain⟩

/-- Reading a file of short lines with typed registrations, all variables of the program
end up as the declarations of the file have it. -/
theorem reads_runSession {s : Argparse} (hc : s.callbacks = []) (hp : s.registeredPointers = [])
    (hrs : Argparse.WellRegistered rs) (hf : Argparse.Plain f)
    (hm : m.Represents s.vars (listsOf rs)) :
    ∃ m', m.runSession s ⟨rs, some f⟩ = some m' ∧ m.Reads m' s.vars rs f := by
  have hlists : ∀ w ∈ Argparse.assignments rs f, w.1.t = .lst → w.1.ptr ∈ listsOf rs := by
    intro w hw ht
    obtain ⟨kv, -, hkv⟩ := List.mem_filterMap.mp hw
    obtain ⟨p, hfind, rfl⟩ := Option.map_eq_some_iff.mp hkv
    exact mem_listsOf (List.mem_of_find?_eq_some hfind) ht
  obtain ⟨m', hwrites, hm'⟩ := (hm.registers rs).writes hlists
  have hrun : m.runSession s ⟨rs, some f⟩ = some m' := by
    rw [runSession, foldlM_act, Argparse.writes_runSession hc hp hrs hf]
    exact hwrites
  obtain ⟨-, hregistered⟩ := registers_frame (m := m) (t := .int) (q := 0) rs
  obtain ⟨-, hwritten⟩ := writes_frame (t := .int) (q := 0) hwrites
  refine ⟨m', hrun, fun r hr => settled_of_mem hrs hm hwrites hm' hr, fun t q hfree => ?_,
    hregistered.trans hwritten, hm'.lists.imp fun addrs h => ⟨_, h⟩,
    fun kv => Argparse.length_declaration hf⟩
  exact ((registers_frame rs).1 hfree).trans
    ((writes_frame hwrites).1 (Argparse.valuesTo_assignments_of_not_mem f hfree))

/-- A variable of every kind, with and without a default. -/
def settings : List Registration :=
  [.int (bytes "user_id") 0, .intDef (bytes "err_interval") 1 60, .str (bytes "token") 0,
    .strDef (bytes "name") 1 (bytes "pi"), .strlst (bytes "target") 0]

/-- A file with a comment, a blank line, an unknown key and a last line without an end. -/
def settingsFile : List Byte :=
  bytes "# pi\nuser_id=1\n\ntarget=b:h:2\ncolour=red\ntoken=a=b\nuser_id=7\ntarget=c:h:3\nname=x"

/-- A memory in which the list has a target already. -/
def settingsMemory : Memory := ⟨fun _ => 0, fun _ => none, [], fun _ => some 0, [⟨none, bytes "a"⟩]⟩

theorem reads_settings :
    ∃ m', settingsMemory.runSession (start (settingsMemory.view fun _ => [bytes "a"]))
        ⟨settings, some settingsFile⟩ = some m' ∧
      settingsMemory.Reads m' (settingsMemory.view fun _ => [bytes "a"]) settings settingsFile := by
  have hlists : ∀ p ∈ listsOf settings, p = 0 := by
    rintro p ⟨key, hmem⟩
    have hkey : key = bytes "target" ∧ p = 0 := by simpa [settings] using hmem
    exact hkey.2
  have hchains : settingsMemory.Lists (listsOf settings) (fun _ => [0]) fun _ => [bytes "a"] :=
    ⟨fun _ _ => .cons rfl .nil, fun p hp q hq hne =>
      absurd ((hlists p hp).trans (hlists q hq).symm) hne⟩
  exact reads_runSession rfl rfl ⟨by decide, by decide, by decide, by decide⟩
    ⟨by decide, by decide⟩ hchains.represents

end Reads

end Memory

end Hearthbeat
