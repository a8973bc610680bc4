import Hearthbeat.Monitor.Frame

/-!
To which target an answer is attributed, for any targets, entries with the same host and
port among them, and any outcome of their lookups.

* `Resolved`: the lookup of a target succeeds with the source. `First`: it is the first
  whose lookup does.
* `getTarget_eq_some_iff`: the search finds the first target, unless the source is the
  zero address, for which a failed lookup is taken (`Unmistaken`).
* `attributed_answer`: that target is online with its timer reset, and no other changes;
  a second target at the same address stays as it was (`second_target`).
-/

namespace Hearthbeat.Monitor

variable {res : Resolver} {targets : List Target} {client : SockAddr}

/-- The lookup of the target with index `i` succeeds with the address. -/
def Resolved (res : Resolver) (targets : List Target) (client : SockAddr) (i : ℕ) : Prop :=
  ∃ t ∈ targets[i]?, lookupTarget res i t.host t.port = some client

/-- It is the first that does. -/
def First (res : Resolver) (targets : List Target) (client : SockAddr) (i : ℕ) : Prop :=
  Resolved res targets client i ∧ ∀ j < i, ¬ Resolved res targets client j

/-- The address is not the one that a failed lookup leaves, or no lookup fails. -/
def Unmistaken (res : Resolver) (targets : List Target) (client : SockAddr) : Prop :=
  client ≠ SockAddr.zero ∨
    ∀ i, ∀ t ∈ targets[i]?, (lookupTarget res i t.host t.port).isSome = true

/-- The targets whose lookups succeed with the source are online, with their timers reset,
and the others are the same. `Chosen` says which of them are meant. -/
structure Attributed (Chosen : ℕ → Prop) (m m' : Monitor) : Prop where
  chosen : ∀ i, Chosen i → ∃ t ∈ m.targets[i]?, m'.targets[i]? = some { t with
    isonline := true
    errEv := ⟨m.errTv, some (m'.now + m.errTv), none⟩ }
  others : ∀ i, ¬ Chosen i → m'.targets[i]? = m.targets[i]?

/-! ### The search -/

/-- Every target before the one found resolves to something else. -/
lemma getTargetFrom_least {ts : List Target} {i j : ℕ}
    (h : getTargetFrom res client i ts = some j) {k : ℕ} (hk : i + k < j) {t : Target}
    (ht : ts[k]? = some t) :
    (lookupTarget res (i + k) t.host t.port).getD SockAddr.zero ≠ client := by
  induction ts generalizing i k with
  | nil => cases h
  | cons t' ts ih =>
      simp only [getTargetFrom] at h
      split_ifs at h with heq
      · cases h
        omega
      · cases k with
        | zero =>
            obtain rfl : t' = t := by simpa using ht
            exact Ne.symm heq
        | succ k =>
            have hrec := ih h (k := k) (by omega) (by simpa using ht)
            rwa [Nat.add_right_comm, Nat.add_assoc] at hrec

lemma getTargetFrom_eq_none {ts : List Target} {i : ℕ}
    (h : getTargetFrom res client i ts = none) {k : ℕ} {t : Target} (ht : ts[k]? = some t) :
    (lookupTarget res (i + k) t.host t.port).getD SockAddr.zero ≠ client := by
  induction ts generalizing i k with
  | nil => simp at ht
  | cons t' ts ih =>
      simp only [getTargetFrom] at h
      split_ifs at h with heq
      cases k with
      | zero =>
          obtain rfl : t' = t := by simpa using ht
          exact Ne.symm heq
      | succ k =>
          have hrec := ih h (k := k) (by simpa using ht)
          rwa [Nat.add_right_comm, Nat.add_assoc] at hrec

/-- What the search compares is the outcome of the lookup. -/
lemma getD_eq_iff (h : Unmistaken res targets client) {i : ℕ} {t : Target}
    (ht : targets[i]? = some t) :
    (lookupTarget res i t.host t.port).getD SockAddr.zero = client ↔
      lookupTarget res i t.host t.port = some client := by
  cases hlookup : lookupTarget res i t.host t.port with
  | some a => simp
  | none =>
      rcases h with hne | hsome
      · simpa using Ne.symm hne
      · have hfound := hsome i t ht
        rw [hlookup] at hfound
        cases hfound

lemma getTarget_eq_some_iff (h : Unmistaken res targets client) {i : ℕ} :
    getTarget res targets client = some i ↔ First res targets client i := by
  have hresolved : ∀ j, Resolved res targets client j ↔ ∃ t, targets[j]? = some t ∧
      (lookupTarget res j t.host t.port).getD SockAddr.zero = client := fun j =>
    exists_congr fun t => and_congr_right fun ht => (getD_eq_iff h ht).symm
  constructor
  · intro hfound
    refine ⟨(hresolved i).mpr (getTarget_resolved hfound), fun j hj hres => ?_⟩
    obtain ⟨t, ht, heq⟩ := (hresolved j).mp hres
    have hne := getTargetFrom_least (k := j) hfound (by omega) ht
    rw [Nat.zero_add] at hne
    exact hne heq
  · rintro ⟨hres, hleast⟩
    obtain ⟨t, ht, heq⟩ := (hresolved i).mp hres
    cases hfound : getTarget res targets client with
    | none =>
        have hne := getTargetFrom_eq_none hfound ht
        rw [Nat.zero_add] at hne
        exact absurd heq hne
    | some j =>
        have hj := (hresolved j).mpr (getTarget_resolved hfound)
        have hij : i ≤ j := not_lt.mp fun hlt => hleast j hlt hj
        have hji : j ≤ i := not_lt.mp fun hlt => by
          have hne := getTargetFrom_least (k := i) hfound (by omega) ht
          rw [Nat.zero_add] at hne
          exact hne heq
        rw [le_antisymm hji hij]

/-! ### The answer -/

section Answer

variable (wall : ℤ → Reading) (m : Monitor) (re : ℕ) (c : Call)

/-- The target of the search is online, its timer runs from the end of the notification,
and no other target changes. -/
lemma attributed_getTarget :
    Attributed (fun i => getTarget res m.targets client = some i) m
      (m.handleAnswer wall (some client) re res c) where
  chosen i hi := by
    obtain ⟨t, ht⟩ : ∃ t, m.targets[i]? = some t := ⟨_, List.getElem?_eq_getElem (getTarget_lt hi)⟩
    have hlog : (m.log (.answer client (some i) re m.now)).targets[i]? = some t := ht
    have hrecord := (Apart.recordAnswer (i := i) wall
      ((m.log (.answer client (some i) re m.now)).resetErrorTimer i c) i re t.name).target
    rw [handleAnswer_attributed c wall re hi ht, recordAnswer_now]
    exact ⟨t, ht, hrecord.trans (resetErrorTimer_target c hlog)⟩
  others i hi := by
    refine (Apart.handleAnswer wall m (some client) re res c fun client' heq => ?_).target
    rwa [← Option.some.inj heq]

/-- After an answer whose source is not mistaken, the first target that resolves to it is
online with its timer reset, and every other target is as it was. -/
theorem attributed_answer (h : Unmistaken res m.targets client) :
    Attributed (First res m.targets client) m (m.handleAnswer wall (some client) re res c) := by
  have hfirst : (fun i => getTarget res m.targets client = some i) = First res m.targets client :=
    funext fun i => propext (getTarget_eq_some_iff h)
  exact hfirst ▸ attributed_getTarget wall m re c

end Answer

/-- Two targets at one address. -/
def twice : Config where
  myname := bytes "local"
  pollInterval := 1
  errInterval := 15
  targets := [⟨bytes "pi", bytes "10.0.0.2", bytes "48807"⟩,
    ⟨bytes "nas", bytes "10.0.0.2", bytes "48807"⟩]

/-- Every lookup succeeds with that address. -/
def resolver : Resolver := fun _ _ _ => some ⟨2, 48807⟩

theorem attributed_twice :
    Attributed (First resolver (start twice 0).targets ⟨2, 48807⟩) (start twice 0)
      ((start twice 0).handleAnswer Reading.ofNanos (some ⟨2, 48807⟩) 0 resolver ⟨true, 0⟩) :=
  attributed_answer Reading.ofNanos (start twice 0) 0 ⟨true, 0⟩ (.inl (by decide))

/-- The second target resolves to the source of the answer, and stays offline. -/
theorem second_target :
    ¬ Attributed (Resolved resolver (start twice 0).targets ⟨2, 48807⟩) (start twice 0)
      ((start twice 0).handleAnswer Reading.ofNanos (some ⟨2, 48807⟩) 0 resolver ⟨true, 0⟩) := by
  intro h
  obtain ⟨t, -, ht⟩ := h.chosen 1 ⟨_, rfl, rfl⟩
  have hoffline : ((start twice 0).handleAnswer Reading.ofNanos (some ⟨2, 48807⟩) 0 resolver
      ⟨true, 0⟩).targets[1]?.map Target.isonline = some false := by decide
  rw [ht] at hoffline
  cases hoffline

end Hearthbeat.Monitor
