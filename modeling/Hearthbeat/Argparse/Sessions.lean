import Hearthbeat.Machine.Run
import Hearthbeat.Argparse.Reader

/-!
Sessions: some registrations, and then one reading of a file.

The tables are emptied behind the loop of the reader, so not where `fopen` fails.
Sessions are isolated from each other exactly if every one that registers
something can open its file (`isolated_iff`). The registrations of one that cannot
are taken up by the next, which may write through them (`stale_pointer`).
-/

namespace Hearthbeat.Argparse

/-- The registrations of a session, and the file that it reads, none if it cannot
be opened. -/
structure Session where
  registrations : List Registration
  file : Option (List Byte)

/-- The registrations, one after the other, and then the file is read. -/
def runSession (s : Argparse) (σ : Session) : Argparse :=
  (σ.registrations.foldl register s).readProperties σ.file

/-- A program that goes through its sessions. -/
def machine : Machine Argparse Session where
  guard _ _ := True
  act := runSession

/-- What a reader does is covered by the registrations of its own session. -/
def Act.registeredIn (σ : Session) : Act → Prop
  | .call f key _ => ∃ r ∈ σ.registrations, r.callback = ⟨key, f⟩
  | .write p _ => ∃ r ∈ σ.registrations, r.pointer = some p

/-- A session leaves the tables empty, and calls and writes only what it has
registered itself. -/
structure SessionIsolated (s : Argparse) (σ : Session) : Prop where
  callbacks : (s.runSession σ).callbacks = []
  pointers : (s.runSession σ).registeredPointers = []
  acts : ∀ x ∈ (s.runSession σ).hist.drop s.hist.length, x.registeredIn σ

/-- Every session of a program is isolated. -/
def Isolated (v : Variables) (ss : List Session) : Prop :=
  ∀ pre σ post, ss = pre ++ σ :: post → SessionIsolated (machine.exec (start v) pre) σ

/-! ### One session -/

section Session

variable (s : Argparse)

lemma foldl_register_callbacks (rs : List Registration) :
    (rs.foldl register s).callbacks = s.callbacks ++ rs.map Registration.callback := by
  induction rs generalizing s with
  | nil => simp
  | cons r rs ih => rw [List.foldl_cons, ih, register_callbacks, List.map_cons, List.append_assoc,
      List.singleton_append]

lemma foldl_register_pointers (rs : List Registration) :
    (rs.foldl register s).registeredPointers
      = s.registeredPointers ++ rs.filterMap Registration.pointer := by
  induction rs generalizing s with
  | nil => simp
  | cons r rs ih =>
      rw [List.foldl_cons, ih, register_pointers, List.append_assoc, List.filterMap_cons]
      cases r.pointer <;> rfl

lemma foldl_register_hist (rs : List Registration) : (rs.foldl register s).hist = s.hist := by
  induction rs generalizing s with
  | nil => rfl
  | cons r rs ih => rw [List.foldl_cons, ih, register_hist]

variable {s}

/-- A session that finds the tables empty is isolated if it can open its file, or
registers nothing. -/
lemma sessionIsolated (hc : s.callbacks = []) (hp : s.registeredPointers = []) {σ : Session}
    (hσ : σ.registrations ≠ [] → σ.file.isSome) : SessionIsolated s σ := by
  cases hfile : σ.file with
  | none =>
      have hnil : σ.registrations = [] := by
        by_contra hne
        simp [hfile] at hσ
        exact hne hσ
      have hsame : s.runSession σ = s := by
        rw [runSession, hnil, hfile]
        rfl
      exact ⟨by rw [hsame, hc], by rw [hsame, hp], by simp [hsame]⟩
  | some f =>
      set s₁ := σ.registrations.foldl register s
      have hrun : s.runSession σ
          = { s₁.readLines f with callbacks := [], registeredPointers := [] } := by
        rw [runSession, hfile]
        rfl
      obtain ⟨l, hturn, -⟩ := s₁.readLines_turn (chunks newline 255 f)
      have hhist : (s.runSession σ).hist = s.hist ++ l := by
        rw [hrun]
        exact hturn.hist.trans (by rw [foldl_register_hist])
      refine ⟨by rw [hrun], by rw [hrun], fun x hx => ?_⟩
      rw [hhist, List.drop_left] at hx
      have hx' := hturn.listed x hx
      cases x with
      | call f key value =>
          rw [Act.listed, foldl_register_callbacks, hc, List.nil_append] at hx'
          exact List.mem_map.mp hx'
      | write p value =>
          rw [Act.listed, foldl_register_pointers, hp, List.nil_append] at hx'
          exact List.mem_filterMap.mp hx'

end Session

/-! ### All sessions -/

/-- The sessions of a program are isolated exactly if every session that registers
something can open its file. -/
theorem isolated_iff (v : Variables) (ss : List Session) :
    Isolated v ss ↔ ∀ σ ∈ ss, σ.registrations ≠ [] → σ.file.isSome = true := by
  constructor
  · intro h σ hσ hregs
    obtain ⟨pre, post, hss⟩ := List.append_of_mem hσ
    by_contra hfile
    have hnone : σ.file = none := by simpa using hfile
    have hempty := (h pre σ post hss).callbacks
    rw [runSession, hnone, readProperties, foldl_register_callbacks] at hempty
    exact hregs (by simpa using (List.append_eq_nil_iff.mp hempty).2)
  · intro h pre σ post hss
    have hempty : (machine.exec (start v) pre).callbacks = [] ∧
        (machine.exec (start v) pre).registeredPointers = [] := by
      have hpre : ∀ τ ∈ pre, τ.registrations ≠ [] → τ.file.isSome = true :=
        fun τ hτ => h τ (by simp [hss, hτ])
      clear hss
      induction pre using List.reverseRecOn with
      | nil => exact ⟨rfl, rfl⟩
      | append_singleton pre τ ih =>
          obtain ⟨hc, hp⟩ := ih fun ρ hρ => hpre ρ (by simp [hρ])
          have hlast := sessionIsolated hc hp (hpre τ (by simp))
          rw [Machine.exec_append]
          exact ⟨hlast.callbacks, hlast.pointers⟩
    exact sessionIsolated hempty.1 hempty.2 (h σ (by simp [hss]))

/-! ### Two sessions -/

/-- A list that cannot be read, and then the settings of another file, in which its
key turns up. -/
def staleSessions : List Session :=
  [⟨[.strlst (bytes "target") 0], none⟩,
    ⟨[.int (bytes "user_id") 0, .str (bytes "token") 0], some (bytes "target=a:b:1\n")⟩]

/-- The second session writes to the list of the first. -/
theorem stale_pointer :
    ¬ Isolated ⟨fun _ => 0, fun _ => none, fun _ => []⟩ staleSessions ∧
      (machine.exec (start ⟨fun _ => 0, fun _ => none, fun _ => []⟩) staleSessions).vars.lsts 0
        = [bytes "a:b:1"] := by
  refine ⟨fun h => ?_, by decide⟩
  have hempty := (h [] _ _ rfl).callbacks
  revert hempty
  decide

end Hearthbeat.Argparse
