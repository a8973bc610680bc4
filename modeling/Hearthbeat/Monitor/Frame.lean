import Hearthbeat.Monitor.Handlers

/-!
What the callbacks of the monitor leave alone.

* `Keeps m m'`: the configuration and the strings of the targets are the same,
  and the history has only grown; `keeps_act` says so of every event.
  `Passive m m'` adds the poll timers, the departures and the polls of the
  history, and holds of every event but a poll (`passive_act`).
* `Apart i m m'`: the target `i` is the same, and nothing about it was added to
  the history; `apart_act` says so of every event that is not the target's own.
-/

namespace Hearthbeat.Monitor

/-! ### What no event changes -/

/-- The configuration is kept, and so is what the history says. -/
structure Keeps (m m' : Monitor) : Prop where
  myname : m'.myname = m.myname
  pollTv : m'.pollTv = m.pollTv
  errTv : m'.errTv = m.errTv
  entries : m'.targets.map Target.entry = m.targets.map Target.entry
  hist : m.hist <+: m'.hist

/-- The poll timers and the departures are kept as well, and no poll was added to
the history. -/
structure Passive (m m' : Monitor) : Prop where
  myname : m'.myname = m.myname
  pollTv : m'.pollTv = m.pollTv
  errTv : m'.errTv = m.errTv
  clocks : m'.clocks = m.clocks
  setup : m'.targets.map Target.setup = m.targets.map Target.setup
  hist : ∃ l, m'.hist = m.hist ++ l ∧ ∀ x ∈ l, x.isPoll = false

variable {m m' m'' : Monitor}

lemma Keeps.refl (m : Monitor) : Keeps m m := ⟨rfl, rfl, rfl, rfl, List.prefix_refl _⟩

lemma Keeps.trans (h : Keeps m m') (h' : Keeps m' m'') : Keeps m m'' :=
  ⟨h'.myname.trans h.myname, h'.pollTv.trans h.pollTv, h'.errTv.trans h.errTv,
    h'.entries.trans h.entries, h.hist.trans h'.hist⟩

lemma Passive.keeps (h : Passive m m') : Keeps m m' := by
  obtain ⟨l, hl, -⟩ := h.hist
  refine ⟨h.myname, h.pollTv, h.errTv, ?_, ⟨l, hl.symm⟩⟩
  have hentries := congrArg (List.map Prod.fst) h.setup
  rw [List.map_map, List.map_map] at hentries
  exact hentries

namespace Passive

lemma refl (m : Monitor) : Passive m m := ⟨rfl, rfl, rfl, rfl, rfl, [], by simp, by simp⟩

lemma trans (h : Passive m m') (h' : Passive m' m'') : Passive m m'' := by
  obtain ⟨l, hl, hpoll⟩ := h.hist
  obtain ⟨l', hl', hpoll'⟩ := h'.hist
  refine ⟨h'.myname.trans h.myname, h'.pollTv.trans h.pollTv, h'.errTv.trans h.errTv,
    h'.clocks.trans h.clocks, h'.setup.trans h.setup, l ++ l',
    by rw [hl', hl, List.append_assoc], fun x hx => ?_⟩
  rcases List.mem_append.mp hx with hx | hx
  · exact hpoll x hx
  · exact hpoll' x hx

lemma modifyTarget (m : Monitor) (i : ℕ) {f : Target → Target}
    (hf : ∀ t, (f t).setup = t.setup) : Passive m (m.modifyTarget i f) :=
  ⟨rfl, rfl, rfl, rfl, modifyTarget_map m i f hf, [], by simp, by simp⟩

lemma log (m : Monitor) {x : Act} (hx : x.isPoll = false) : Passive m (m.log x) :=
  ⟨rfl, rfl, rfl, rfl, rfl, [x], rfl, by simpa using hx⟩

lemma telegramSendMessage (m : Monitor) (i : ℕ) (up : Bool) (text : Text) (c : Call) :
    Passive m (m.telegramSendMessage i up text c) :=
  ⟨rfl, rfl, rfl, rfl, rfl, [.notice i up text c.ok m.now], rfl, by simp [Act.isPoll]⟩

lemma handleErrEvent (m : Monitor) (i : ℕ) (c : Call) : Passive m (m.handleErrEvent i c) := by
  have hoff : Passive m (m.modifyTarget i fun t => { t with isonline := false }) :=
    modifyTarget m i fun _ => rfl
  simp only [Monitor.handleErrEvent]
  split
  · exact refl m
  · split_ifs
    · exact hoff.trans (telegramSendMessage _ i _ _ c)
    · exact refl m

lemma resetErrorTimer (m : Monitor) (i : ℕ) (c : Call) : Passive m (m.resetErrorTimer i c) := by
  have hreset : ∀ m : Monitor, Passive m (m.modifyTarget i fun t =>
      { t with isonline := true, errEv := t.errEv.del.add m.now m.errTv }) :=
    fun m => modifyTarget m i fun _ => rfl
  simp only [Monitor.resetErrorTimer]
  split
  · exact refl m
  · split_ifs
    · exact hreset m
    · exact (telegramSendMessage m i _ _ c).trans (hreset _)

lemma recordAnswer (wall : ℤ → Reading) (m : Monitor) (i re : ℕ) (name : Text) :
    Passive m (m.recordAnswer wall i re name) := by
  simp only [Monitor.recordAnswer]
  split
  · exact refl m
  · exact log m rfl

lemma handleAnswer (wall : ℤ → Reading) (m : Monitor) (src : Option SockAddr) (re : ℕ)
    (res : Resolver) (c : Call) : Passive m (m.handleAnswer wall src re res c) := by
  cases src with
  | none => exact refl m
  | some client =>
      have hlog : ∀ who, Passive m (m.log (.answer client who re m.now)) := fun who => log m rfl
      cases hw : getTarget res m.targets client with
      | none =>
          rw [handleAnswer_unattributed c wall re hw]
          exact hlog none
      | some i =>
          have ht := List.getElem?_eq_getElem (getTarget_lt hw)
          rw [handleAnswer_attributed c wall re hw ht]
          exact ((hlog _).trans (resetErrorTimer _ i c)).trans (recordAnswer wall _ i re _)

end Passive

lemma Keeps.sendBip (wall : ℤ → Reading) (m : Monitor) (i : ℕ) (res : Resolver) (sent : Bool) :
    Keeps m (m.sendBip wall i res sent) := by
  have hlog : ∀ x, Keeps m (m.log x) := fun x => ⟨rfl, rfl, rfl, rfl, List.prefix_append _ _⟩
  simp only [Monitor.sendBip]
  split
  · exact refl m
  · split
    · exact hlog _
    · split_ifs
      · exact ⟨rfl, rfl, rfl, rfl, (hlog _).hist⟩
      · exact hlog _

/-- Every event but a poll is passive. -/
lemma passive_act (wall : ℤ → Reading) (m : Monitor) {ev : Event}
    (h : ∀ i res sent, ev ≠ .poll i res sent) : Passive m (act wall m ev) := by
  cases ev with
  | tick d => exact ⟨rfl, rfl, rfl, rfl, rfl, [], by simp [act], by simp⟩
  | poll i res sent => exact absurd rfl (h i res sent)
  | err i c =>
      have hfire : Passive m (m.modifyTarget i fun t => { t with errEv := t.errEv.fire }) :=
        Passive.modifyTarget m i fun _ => rfl
      exact hfire.trans (Passive.handleErrEvent _ i c)
  | recv src re res c => exact Passive.handleAnswer wall m src re res c

/-- Every event keeps the configuration. -/
theorem keeps_act (wall : ℤ → Reading) (m : Monitor) (ev : Event) : Keeps m (act wall m ev) := by
  cases ev with
  | poll i res sent =>
      have hfire : Keeps m (m.modifyTarget i fun t => { t with pollEv := t.pollEv.fire }) :=
        ⟨rfl, rfl, rfl, modifyTarget_map m i _ fun _ => rfl, List.prefix_refl _⟩
      exact hfire.trans (Keeps.sendBip wall _ i res sent)
  | _ => exact (passive_act wall m (by simp)).keeps

/-- Every sequence of events keeps the configuration. -/
theorem keeps_exec (wall : ℤ → Reading) (m : Monitor) (es : List Event) :
    Keeps m ((machine wall).exec m es) :=
  Machine.exec_induction (fun m' ev h => h.trans (keeps_act wall m' ev)) (Keeps.refl m) es

/-- The strings of a target are those of the configuration. -/
lemma entry_of_keeps {cfg : Config} {t₀ : ℤ} (h : Keeps (start cfg t₀) m) {i : ℕ} {t : Target}
    (ht : m.targets[i]? = some t) : cfg.targets[i]? = some t.entry := by
  have hentries := congrArg (fun xs => xs[i]?) h.entries
  simpa [ht, start, init, addTimers, Entry.newTarget, Target.entry, Function.comp_def]
    using hentries.symm

/-! ### The time that passes -/

/-- At most `d` passes from the one to the other. -/
def Takes (d : ℕ) (m m' : Monitor) : Prop := m.now ≤ m'.now ∧ m'.now ≤ m.now + d

lemma Takes.now_eq (h : Takes 0 m m') : m'.now = m.now := by
  obtain ⟨hle, hge⟩ := h
  omega

section Time

variable (wall : ℤ → Reading)

lemma takes_of_eq (d : ℕ) (h : m'.now = m.now) : Takes d m m' := by
  constructor <;> omega

lemma telegramSendMessage_takes (m : Monitor) (i : ℕ) (up : Bool) (text : Text) (c : Call) :
    Takes c.took m (m.telegramSendMessage i up text c) := by
  constructor <;> simp [telegramSendMessage]

lemma sendBip_now (m : Monitor) (i : ℕ) (res : Resolver) (sent : Bool) :
    (m.sendBip wall i res sent).now = m.now := by
  simp only [sendBip]
  split
  · rfl
  · split
    · rfl
    · split_ifs <;> rfl

lemma handleErrEvent_takes (m : Monitor) (i : ℕ) (c : Call) :
    Takes c.took m (m.handleErrEvent i c) := by
  simp only [handleErrEvent]
  split
  · exact takes_of_eq _ rfl
  · split_ifs
    · exact telegramSendMessage_takes (m.modifyTarget i _) i _ _ c
    · exact takes_of_eq _ rfl

lemma resetErrorTimer_takes (m : Monitor) (i : ℕ) (c : Call) :
    Takes c.took m (m.resetErrorTimer i c) := by
  cases ht : m.targets[i]? with
  | none => exact takes_of_eq _ (by simp [resetErrorTimer, ht])
  | some t =>
      cases hon : t.isonline with
      | true =>
          rw [resetErrorTimer_online c ht hon]
          exact takes_of_eq _ rfl
      | false =>
          rw [resetErrorTimer_offline c ht hon]
          exact telegramSendMessage_takes m i true (m.noticeText t.name true) c

lemma recordAnswer_now (m : Monitor) (i re : ℕ) (name : Text) :
    (m.recordAnswer wall i re name).now = m.now := by
  simp only [recordAnswer]
  split <;> rfl

lemma handleAnswer_takes (m : Monitor) (src : Option SockAddr) (re : ℕ) (res : Resolver)
    (c : Call) : Takes c.took m (m.handleAnswer wall src re res c) := by
  cases src with
  | none => exact takes_of_eq _ rfl
  | some client =>
      cases hw : getTarget res m.targets client with
      | none =>
          rw [handleAnswer_unattributed c wall re hw]
          exact takes_of_eq _ rfl
      | some i =>
          have ht := List.getElem?_eq_getElem (getTarget_lt hw)
          have hreset := resetErrorTimer_takes (m.log (.answer client (some i) re m.now)) i c
          rw [handleAnswer_attributed c wall re hw ht, Takes, recordAnswer_now]
          exact hreset

/-- An event that is allowed and not a tick takes no time. -/
lemma act_now {ev : Event} (hg : m.guard ev) (htick : ∀ d, ev ≠ .tick d) :
    (act wall m ev).now = m.now := by
  cases ev with
  | tick d => exact absurd rfl (htick d)
  | poll j res sent => exact sendBip_now wall _ j res sent
  | err j c => exact (hg.1 ▸ handleErrEvent_takes (m.modifyTarget j _) j c).now_eq
  | recv src re res c =>
      have hnone : c.took = 0 := hg
      exact (hnone ▸ handleAnswer_takes wall m src re res c).now_eq

end Time

/-! ### What concerns one target only -/

/-- The target `i` is the same, and nothing was added to the history that is
about it. -/
structure Apart (i : ℕ) (m m' : Monitor) : Prop where
  target : m'.targets[i]? = m.targets[i]?
  hist : ∃ l, m'.hist = m.hist ++ l ∧ ∀ x ∈ l, x.about ≠ some i

namespace Apart

variable {i j : ℕ}

lemma refl (i : ℕ) (m : Monitor) : Apart i m m := ⟨rfl, [], by simp, by simp⟩

lemma trans (h : Apart i m m') (h' : Apart i m' m'') : Apart i m m'' := by
  obtain ⟨l, hl, habout⟩ := h.hist
  obtain ⟨l', hl', habout'⟩ := h'.hist
  refine ⟨h'.target.trans h.target, l ++ l', by rw [hl', hl, List.append_assoc], fun x hx => ?_⟩
  rcases List.mem_append.mp hx with hx | hx
  · exact habout x hx
  · exact habout' x hx

lemma modifyTarget (m : Monitor) (f : Target → Target) (h : j ≠ i) :
    Apart i m (m.modifyTarget j f) :=
  ⟨modifyTarget_other m f h, [], by simp, by simp⟩

lemma log (m : Monitor) {x : Act} (hx : x.about ≠ some i) : Apart i m (m.log x) :=
  ⟨rfl, [x], rfl, by simpa using hx⟩

lemma telegramSendMessage (m : Monitor) (up : Bool) (text : Text) (c : Call) (h : j ≠ i) :
    Apart i m (m.telegramSendMessage j up text c) :=
  ⟨rfl, [.notice j up text c.ok m.now], rfl, by simp [Act.about, h]⟩

/-- A poll, its own included, assigns to no target. -/
lemma sendBip (wall : ℤ → Reading) (m : Monitor) (j : ℕ) (res : Resolver) (sent : Bool) :
    Apart i m (m.sendBip wall j res sent) := by
  have hlog : ∀ dest, Apart i m (m.log (.poll j dest m.now)) :=
    fun dest => log m (by simp [Act.about])
  simp only [Monitor.sendBip]
  split
  · exact refl i m
  · split
    · exact hlog none
    · split_ifs
      · exact ⟨rfl, (hlog _).hist⟩
      · exact hlog none

lemma handleErrEvent (m : Monitor) (c : Call) (h : j ≠ i) :
    Apart i m (m.handleErrEvent j c) := by
  simp only [Monitor.handleErrEvent]
  split
  · exact refl i m
  · split_ifs
    · exact (modifyTarget m _ h).trans (telegramSendMessage _ _ _ c h)
    · exact refl i m

lemma resetErrorTimer (m : Monitor) (c : Call) (h : j ≠ i) :
    Apart i m (m.resetErrorTimer j c) := by
  simp only [Monitor.resetErrorTimer]
  split
  · exact refl i m
  · split_ifs
    · exact modifyTarget m _ h
    · exact (telegramSendMessage m _ _ c h).trans (modifyTarget _ _ h)

/-- A record, its own included, assigns to no target. -/
lemma recordAnswer (wall : ℤ → Reading) (m : Monitor) (j re : ℕ) (name : Text) :
    Apart i m (m.recordAnswer wall j re name) := by
  simp only [Monitor.recordAnswer]
  split
  · exact refl i m
  · exact log m (by simp [Act.about])

lemma handleAnswer (wall : ℤ → Reading) (m : Monitor) (src : Option SockAddr) (re : ℕ)
    (res : Resolver) (c : Call)
    (h : ∀ client, src = some client → getTarget res m.targets client ≠ some i) :
    Apart i m (m.handleAnswer wall src re res c) := by
  cases src with
  | none => exact refl i m
  | some client =>
      cases hw : getTarget res m.targets client with
      | none =>
          rw [handleAnswer_unattributed c wall re hw]
          exact log m (by simp [Act.about])
      | some j =>
          have hji : j ≠ i := fun heq => h client rfl (by rw [hw, heq])
          have ht := List.getElem?_eq_getElem (getTarget_lt hw)
          rw [handleAnswer_attributed c wall re hw ht]
          exact ((log m (by simp [Act.about, hji])).trans (resetErrorTimer _ c hji)).trans
            (recordAnswer wall _ j re _)

end Apart

/-- The target that an event belongs to: whose timer fires, or to which the
datagram is attributed. -/
def owner (m : Monitor) : Event → Option ℕ
  | .tick _ => none
  | .poll i _ _ => some i
  | .err i _ => some i
  | .recv src _ res _ => src.bind (getTarget res m.targets)

/-- The owner of an event depends on the strings of the targets only. -/
lemma owner_congr {m m' : Monitor} (h : Keeps m m') (ev : Event) : owner m' ev = owner m ev := by
  cases ev with
  | recv src re res c =>
      cases src with
      | none => rfl
      | some client => exact getTarget_congr res client h.entries
  | _ => rfl

/-- An event of one target leaves every other target alone. -/
theorem apart_act (wall : ℤ → Reading) {i : ℕ} {m : Monitor} {ev : Event}
    (h : owner m ev ≠ some i) : Apart i m (act wall m ev) := by
  cases ev with
  | tick d => exact ⟨rfl, [], by simp [act], by simp⟩
  | poll j res sent =>
      have hji : j ≠ i := fun heq => h (by rw [owner, heq])
      exact (Apart.modifyTarget m _ hji).trans (Apart.sendBip wall _ j res sent)
  | err j c =>
      have hji : j ≠ i := fun heq => h (by rw [owner, heq])
      exact (Apart.modifyTarget m _ hji).trans (Apart.handleErrEvent _ c hji)
  | recv src re res c =>
      refine Apart.handleAnswer wall m src re res c fun client hsrc heq => h ?_
      rw [owner, hsrc, Option.bind_some, heq]

end Hearthbeat.Monitor
