import Hearthbeat.Monitor.Alarms

/-!
What the monitor announces, for any sequence of events whatever its timers do.

* `viewed_through_loss`: the flag of a target is what the last notice about it
  said, delivered or not, and agrees with the last delivered one exactly if an
  even number was lost since. A lost notice makes the two differ
  (`lost_notice`).
* `notices_alternate`: the notices about a target are up, down, up, …, no event
  of another target touches it, and events of different targets commute.

The first is read off the detector of the target. For the last, `Agree i` relates
two monitors that cannot be told apart at the target `i`: its own events keep
them so, and all others stay apart from it.
-/

namespace Hearthbeat.Monitor

/-! ### Notices and their delivery -/

/-- What a notice about the target `i` said, and whether it was delivered. -/
def noticeOf (i : ℕ) : Act → Option (Bool × Bool)
  | .notice j up _ ok _ => if j = i then some (up, ok) else none
  | _ => none

/-- The notices about the target `i`, in order. -/
def noticesOf (i : ℕ) (hist : List Act) : List (Bool × Bool) := hist.filterMap (noticeOf i)

/-- The detector of a target knows of its notices. -/
lemma noticesOf_eq (i : ℕ) (hist : List Act) :
    noticesOf i hist = Detector.notices (observed i hist) := by
  rw [Detector.notices, observed, List.filterMap_filterMap, noticesOf]
  congr 1
  funext x
  cases x with
  | answer src who re t =>
      cases who with
      | none => rfl
      | some j => by_cases h : j = i <;> simp [noticeOf, obsOf, h, Detector.Obs.notice?]
  | notice j up text ok t => by_cases h : j = i <;> simp [noticeOf, obsOf, h, Detector.Obs.notice?]
  | _ => rfl

variable (wall : ℤ → Reading) (cfg : Config) (t₀ : ℤ) (es : List Event) {i : ℕ}

/-- The flag of a target and the notices about it, after any sequence of
events. -/
lemma announced_exec (hi : i < cfg.targets.length) :
    let m := (machine wall).exec (start cfg t₀) es
    ∃ t, m.targets[i]? = some t ∧ Detector.Alternates ((noticesOf i m.hist).map Prod.fst) ∧
      t.isonline = (((noticesOf i m.hist).map Prod.fst).length % 2 == 1) ∧
      t.isonline = (Detector.view (noticesOf i m.hist)
        == (Detector.lost (noticesOf i m.hist) % 2 == 0)) := by
  intro m
  have htrack := tracked_exec wall cfg t₀ es hi
  obtain ⟨t, ht, hon, -⟩ := htrack.target
  have hnotices : noticesOf i m.hist = Detector.notices (detectorAfter wall cfg t₀ es i).obs := by
    rw [noticesOf_eq, htrack.obs]
  have hann : Detector.Announced (detectorAfter wall cfg t₀ es i) :=
    Detector.announced_exec _ _ _
  have hview : Detector.Viewed (detectorAfter wall cfg t₀ es i) := Detector.view_exec _ _ _
  refine ⟨t, ht, ?_, ?_, ?_⟩
  · rw [hnotices]
    exact hann.alternates
  · rw [hnotices, hon]
    exact hann.online
  · rw [hnotices, hon]
    exact hview

/-- A target whose first notice is lost is online, and seen as down. -/
theorem lost_notice :
    let es : List Event := [.recv (some piAddr) 0 piResolver ⟨false, 0⟩]
    let m := (machine fun _ => .epoch).exec (start oneTarget 0) es
    (machine fun _ => .epoch).Allowed (start oneTarget 0) es ∧
      (∃ t, m.targets[0]? = some t ∧ t.isonline = true) ∧
      Detector.view (noticesOf 0 m.hist) = false := by
  refine ⟨by decide, ⟨_, rfl, rfl⟩, by decide⟩

/-- The target `i` as its user sees it: its flag is what the last notice about it
said, and agrees with the last one delivered exactly if the notices lost since
are even in number. -/
def SeenThroughLoss (i : ℕ) (m : Monitor) : Prop :=
  ∃ t, m.targets[i]? = some t ∧
    (t.isonline = true ↔ ((noticesOf i m.hist).map Prod.fst).getLast? = some true) ∧
    (t.isonline = Detector.view (noticesOf i m.hist) ↔
      Even (Detector.lost (noticesOf i m.hist)))

/-- Every target is seen so, after any sequence of events. -/
theorem viewed_through_loss (hi : i < cfg.targets.length) :
    SeenThroughLoss i ((machine wall).exec (start cfg t₀) es) := by
  obtain ⟨t, ht, halt, hlen, hview⟩ := announced_exec wall cfg t₀ es hi
  refine ⟨t, ht, ?_, ?_⟩
  · rw [halt.getLast?, hlen]
    simp
  · generalize (machine wall).exec (start cfg t₀) es = m at *
    rw [Nat.even_iff, hview]
    cases Detector.view (noticesOf i m.hist) <;> simp

theorem viewed_through_loss_oneTarget :
    SeenThroughLoss 0 ((machine fun _ => .epoch).exec (start oneTarget 0)
      [.recv (some piAddr) 0 piResolver ⟨false, 0⟩]) :=
  viewed_through_loss (fun _ => .epoch) oneTarget 0 _ (by decide)

/-! ### Events of different targets -/

/-- The acts of a history that concern the target `i`. -/
def actsOf (i : ℕ) (hist : List Act) : List Act := hist.filter fun x => x.about == some i

/-- Two monitors that agree at the target `i`. -/
structure Agree (i : ℕ) (m m' : Monitor) : Prop where
  now : m'.now = m.now
  myname : m'.myname = m.myname
  errTv : m'.errTv = m.errTv
  target : m'.targets[i]? = m.targets[i]?
  acts : actsOf i m'.hist = actsOf i m.hist

lemma Apart.acts {i : ℕ} {m m' : Monitor} (h : Apart i m m') :
    actsOf i m'.hist = actsOf i m.hist := by
  obtain ⟨l, hl, habout⟩ := h.hist
  have hnil : actsOf i l = [] :=
    List.filter_eq_nil_iff.mpr fun x hx => by simpa using habout x hx
  calc actsOf i m'.hist
      = actsOf i m.hist ++ actsOf i l := by rw [hl, actsOf, List.filter_append, ← actsOf, ← actsOf]
    _ = actsOf i m.hist := by rw [hnil, List.append_nil]

/-- What stays apart from a target cannot be told apart at it. -/
lemma Apart.agree {i : ℕ} {m m' : Monitor} (h : Apart i m m') (hk : Keeps m m')
    (hnow : m'.now = m.now) : Agree i m m' :=
  ⟨hnow, hk.myname, hk.errTv, h.target, h.acts⟩

namespace Agree

variable {i : ℕ} {m m' m'' : Monitor}

lemma symm (h : Agree i m m') : Agree i m' m :=
  ⟨h.now.symm, h.myname.symm, h.errTv.symm, h.target.symm, h.acts.symm⟩

lemma trans (h : Agree i m m') (h' : Agree i m' m'') : Agree i m m'' :=
  ⟨h'.now.trans h.now, h'.myname.trans h.myname, h'.errTv.trans h.errTv,
    h'.target.trans h.target, h'.acts.trans h.acts⟩

/-- The clock is set. -/
lemma atTime (h : Agree i m m') (t : ℤ) : Agree i { m with now := t } { m' with now := t } :=
  ⟨rfl, h.myname, h.errTv, h.target, h.acts⟩

lemma modifyTarget (h : Agree i m m') (f : Target → Target) :
    Agree i (m.modifyTarget i f) (m'.modifyTarget i f) :=
  ⟨h.now, h.myname, h.errTv, by rw [modifyTarget_same, modifyTarget_same, h.target], h.acts⟩

lemma log (h : Agree i m m') (x : Act) : Agree i (m.log x) (m'.log x) := by
  refine ⟨h.now, h.myname, h.errTv, h.target, ?_⟩
  have hacts := h.acts
  simp only [actsOf] at hacts
  simp only [actsOf, log_hist, List.filter_append, hacts]

lemma telegramSendMessage (h : Agree i m m') (up : Bool) (text : Text) (c : Call) :
    Agree i (m.telegramSendMessage i up text c) (m'.telegramSendMessage i up text c) := by
  have hlog := h.log (.notice i up text c.ok m.now)
  rw [Monitor.telegramSendMessage, Monitor.telegramSendMessage, h.now]
  exact hlog.atTime _

lemma noticeText (h : Agree i m m') (name : Text) (up : Bool) :
    m'.noticeText name up = m.noticeText name up := by
  rw [Monitor.noticeText, Monitor.noticeText, h.myname]

lemma handleErrEvent (h : Agree i m m') (c : Call) :
    Agree i (m.handleErrEvent i c) (m'.handleErrEvent i c) := by
  cases ht : m.targets[i]? with
  | none =>
      rw [handleErrEvent_none c ht, handleErrEvent_none c (h.target.trans ht)]
      exact h
  | some t =>
      cases hon : t.isonline with
      | true =>
          rw [handleErrEvent_online c ht hon, handleErrEvent_online c (h.target.trans ht) hon,
            h.noticeText]
          exact (h.modifyTarget _).telegramSendMessage _ _ c
      | false =>
          rw [handleErrEvent_offline c ht hon, handleErrEvent_offline c (h.target.trans ht) hon]
          exact h

lemma resetErrorTimer (h : Agree i m m') (c : Call) {t : Target} (ht : m.targets[i]? = some t) :
    Agree i (m.resetErrorTimer i c) (m'.resetErrorTimer i c) := by
  cases hon : t.isonline with
  | true =>
      rw [resetErrorTimer_online c ht hon, resetErrorTimer_online c (h.target.trans ht) hon,
        h.now, h.errTv]
      exact h.modifyTarget _
  | false =>
      rw [resetErrorTimer_offline c ht hon, resetErrorTimer_offline c (h.target.trans ht) hon,
        h.noticeText, h.now, h.errTv]
      exact (h.telegramSendMessage _ _ c).modifyTarget _

/-- What happens apart from the target. -/
lemma of_apart (h : Agree i m m') {n n' : Monitor} (ha : Apart i m n) (hk : Keeps m n)
    (hn : n.now = m.now) (ha' : Apart i m' n') (hk' : Keeps m' n') (hn' : n'.now = m'.now) :
    Agree i n n' :=
  ((ha.agree hk hn).symm.trans h).trans (ha'.agree hk' hn')

/-- An event of the target keeps two monitors in agreement at it. -/
lemma act (h : Agree i m m') (hk : m'.targets.map Target.entry = m.targets.map Target.entry)
    {ev : Event} (hown : owner m ev = some i) :
    Agree i (act wall m ev) (act wall m' ev) := by
  cases ev with
  | tick d => cases hown
  | poll j res sent =>
      obtain rfl : j = i := by simpa [owner] using hown
      exact (h.modifyTarget _).of_apart (Apart.sendBip wall _ j res sent)
        (Keeps.sendBip wall _ j res sent) (sendBip_now wall _ j res sent)
        (Apart.sendBip wall _ j res sent) (Keeps.sendBip wall _ j res sent)
        (sendBip_now wall _ j res sent)
  | err j c =>
      obtain rfl : j = i := by simpa [owner] using hown
      exact (h.modifyTarget _).handleErrEvent c
  | recv src re res c =>
      cases src with
      | none => cases hown
      | some client =>
          have hw : getTarget res m.targets client = some i := hown
          have hw' : getTarget res m'.targets client = some i :=
            (getTarget_congr res client hk).trans hw
          have ht := List.getElem?_eq_getElem (getTarget_lt hw)
          rw [Monitor.act, Monitor.act, handleAnswer_attributed c wall re hw ht,
            handleAnswer_attributed c wall re hw' (h.target.trans ht), h.now]
          have hreset := (h.log (.answer client (some i) re m.now)).resetErrorTimer c ht
          exact hreset.of_apart (Apart.recordAnswer wall _ i re _)
            (Passive.recordAnswer wall _ i re _).keeps
            (recordAnswer_now wall _ i re _) (Apart.recordAnswer wall _ i re _)
            (Passive.recordAnswer wall _ i re _).keeps (recordAnswer_now wall _ i re _)

end Agree

/-- An event at the instant `t`. -/
def actAt (t : ℤ) (m : Monitor) (ev : Event) : Monitor := act wall { m with now := t } ev

/-- The clock is set. -/
lemma keeps_atTime (m : Monitor) (t : ℤ) : Keeps m { m with now := t } :=
  ⟨rfl, rfl, rfl, rfl, List.prefix_refl _⟩

lemma keeps_actAt (t : ℤ) (m : Monitor) (ev : Event) : Keeps m (actAt wall t m ev) :=
  (keeps_atTime m t).trans (keeps_act wall _ ev)

lemma apart_actAt (t : ℤ) {m : Monitor} {ev : Event} (h : owner m ev ≠ some i) :
    Apart i m (actAt wall t m ev) := by
  have happ : Apart i { m with now := t } (actAt wall t m ev) :=
    apart_act wall (by rwa [owner_congr (keeps_atTime m t)])
  exact ⟨happ.target, happ.hist⟩

/-- An event of the target `i` and one that is not its own, in either order, seen
from the target. -/
lemma swap_own (t : ℤ) {m : Monitor} {ev ev' : Event} (hown : owner m ev = some i)
    (hother : owner m ev' ≠ some i) :
    (actAt wall t (actAt wall t m ev) ev').targets[i]?
        = (actAt wall t (actAt wall t m ev') ev).targets[i]? ∧
      actsOf i (actAt wall t (actAt wall t m ev) ev').hist
        = actsOf i (actAt wall t (actAt wall t m ev') ev).hist := by
  have hkeep := keeps_actAt wall t m ev'
  -- the other event second leaves the target as its own event has made it
  have hsecond : Apart i (actAt wall t m ev) (actAt wall t (actAt wall t m ev) ev') :=
    apart_actAt wall t (by rwa [owner_congr (keeps_actAt wall t m ev)])
  -- the other event first leaves the target as it was, for its own event to act on
  have hfirst : Apart i m (actAt wall t m ev') := apart_actAt wall t hother
  have hsame : Agree i { m with now := t } { actAt wall t m ev' with now := t } :=
    ⟨rfl, hkeep.myname, hkeep.errTv, hfirst.target, hfirst.acts⟩
  have hboth : Agree i (actAt wall t m ev) (actAt wall t (actAt wall t m ev') ev) :=
    hsame.act wall hkeep.entries (by rwa [owner_congr (keeps_atTime m t)])
  exact ⟨hsecond.target.trans hboth.target.symm, hsecond.acts.trans hboth.acts.symm⟩

/-- Two events of different targets at one instant, in either order, leave every
target and the acts about it the same. -/
lemma events_commute (t : ℤ) {m : Monitor} {ev ev' : Event} {i j : ℕ}
    (hown : owner m ev = some i) (hown' : owner m ev' = some j) (hij : i ≠ j) (k : ℕ) :
    (actAt wall t (actAt wall t m ev) ev').targets[k]?
        = (actAt wall t (actAt wall t m ev') ev).targets[k]? ∧
      actsOf k (actAt wall t (actAt wall t m ev) ev').hist
        = actsOf k (actAt wall t (actAt wall t m ev') ev).hist := by
  by_cases hki : i = k
  · subst hki
    exact swap_own wall t hown (by rw [hown']; simpa using hij.symm)
  · by_cases hkj : j = k
    · subst hkj
      have hother : owner m ev ≠ some j := by rw [hown]; simpa using hij
      have hswap := swap_own wall t hown' hother
      exact ⟨hswap.1.symm, hswap.2.symm⟩
    · -- neither event is the target's own
      have hev : owner m ev ≠ some k := by rw [hown]; simpa using hki
      have hev' : owner m ev' ≠ some k := by rw [hown']; simpa using hkj
      have hsecond : Apart k (actAt wall t m ev) (actAt wall t (actAt wall t m ev) ev') :=
        apart_actAt wall t (by rwa [owner_congr (keeps_actAt wall t m ev)])
      have hsecond' : Apart k (actAt wall t m ev') (actAt wall t (actAt wall t m ev') ev) :=
        apart_actAt wall t (by rwa [owner_congr (keeps_actAt wall t m ev')])
      have h₁ := (apart_actAt wall t hev).trans hsecond
      have h₂ := (apart_actAt wall t hev').trans hsecond'
      exact ⟨h₁.target.trans h₂.target.symm, h₁.acts.trans h₂.acts.symm⟩

/-- The notices about the target `i` alternate and its flag is the last of them;
no event of another target touches it; and events of two targets at one instant
may be exchanged. -/
structure NoticesAlternate (wall : ℤ → Reading) (i : ℕ) (m : Monitor) : Prop where
  alternate : Detector.Alternates ((noticesOf i m.hist).map Prod.fst)
  flag : ∃ t, m.targets[i]? = some t ∧
    (t.isonline = true ↔ ((noticesOf i m.hist).map Prod.fst).getLast? = some true)
  apart : ∀ ev j, owner m ev = some j → j ≠ i → (act wall m ev).targets[i]? = m.targets[i]?
  commute : ∀ t ev ev' j k, owner m ev = some j → owner m ev' = some k → j ≠ k →
    (actAt wall t (actAt wall t m ev) ev').targets[i]?
        = (actAt wall t (actAt wall t m ev') ev).targets[i]? ∧
      actsOf i (actAt wall t (actAt wall t m ev) ev').hist
        = actsOf i (actAt wall t (actAt wall t m ev') ev).hist

/-- So it is for every target, after any sequence of events. -/
theorem notices_alternate (hi : i < cfg.targets.length) :
    NoticesAlternate wall i ((machine wall).exec (start cfg t₀) es) := by
  obtain ⟨t, ht, halt, hlen, -⟩ := announced_exec wall cfg t₀ es hi
  refine ⟨halt, ⟨t, ht, ?_⟩, ?_, ?_⟩
  · rw [halt.getLast?, hlen]
    simp
  · intro ev j hown hji
    exact (apart_act wall (by rw [hown]; simpa using hji)).target
  · intro t ev ev' j k hown hown' hjk
    exact events_commute wall t hown hown' hjk i

/-- Two targets, at two ports of one host. -/
def twoTargets : Config where
  myname := bytes "local"
  pollInterval := 20
  errInterval := 15
  targets := [⟨bytes "pi", bytes "127.0.0.2", bytes "48807"⟩,
    ⟨bytes "nas", bytes "127.0.0.2", bytes "12345"⟩]

/-- The address of the second target. -/
def nasAddr : SockAddr := ⟨2130706434, 12345⟩

/-- Each of the two targets has its own address. -/
def twoResolver : Resolver := fun i _ _ => some (if i = 0 then piAddr else nasAddr)

theorem notices_alternate_twoTargets :
    NoticesAlternate (fun _ => .epoch) 0 ((machine fun _ => .epoch).exec (start twoTargets 0)
      [.recv (some nasAddr) 0 twoResolver delivered, .tick 5,
        .recv (some piAddr) 0 twoResolver delivered]) :=
  notices_alternate (fun _ => .epoch) twoTargets 0 _ (by decide)

end Hearthbeat.Monitor
