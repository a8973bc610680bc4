import Hearthbeat.Monitor.Tracking

/-!
When the monitor raises an alarm, in runs whose timers keep their promise.

* `exact_detection`: while a target is online its error timer stands
  `err_interval` after its last handled answer and is not overdue, and an alarm
  comes exactly `err_interval` after the last handled answer.
* `silence_reported`: a target that has answered and then stays silent for more
  than `err_interval` has been reported down since. A target that never answered
  is offline from the start and is not reported (`silent_from_start`).

Both are the `Detector.Exact` of the detector of the target.
-/

namespace Hearthbeat.Monitor

/-- The time of an answer attributed to the target `i`. -/
def answerOf (i : ℕ) : Act → Option ℤ
  | .answer _ (some j) _ t => if j = i then some t else none
  | _ => none

/-- The time of the last handled answer of the target `i`. -/
def lastAnswer (i : ℕ) (hist : List Act) : Option ℤ := latest (answerOf i) hist

lemma answerOf_eq (i : ℕ) (x : Act) : answerOf i x = (obsOf i x).bind Detector.Obs.answer? := by
  cases x with
  | answer src who re t =>
      cases who with
      | none => rfl
      | some j => by_cases h : j = i <;> simp [answerOf, obsOf, h, Detector.Obs.answer?]
  | notice j up text ok t => by_cases h : j = i <;> simp [answerOf, obsOf, h, Detector.Obs.answer?]
  | _ => rfl

/-- The detector of a target knows of its last answer. -/
lemma lastAnswer_observed (i : ℕ) (hist : List Act) :
    Detector.lastAnswer (observed i hist) = lastAnswer i hist := by
  rw [Detector.lastAnswer, observed, latest_filterMap, lastAnswer]
  congr 1
  exact funext fun x => (answerOf_eq i x).symm

/-- The target `i` is detected exactly, with timeout `e`. -/
structure ExactDetection (e : ℤ) (i : ℕ) (m : Monitor) : Prop where
  timer : ∀ t, m.targets[i]? = some t → t.isonline = true →
    ∃ a, lastAnswer i m.hist = some a ∧ t.errEv.pending = some (a + e) ∧ m.now ≤ a + e
  alarm : ∀ h₁ h₂ text ok τ, m.hist = h₁ ++ .notice i false text ok τ :: h₂ →
    ∃ a, lastAnswer i h₁ = some a ∧ τ = a + e
  missed : ∀ t, m.targets[i]? = some t →
    ¬ (t.isonline = true ∧ ∀ a, lastAnswer i m.hist = some a → a + e < m.now)

variable (wall : ℤ → Reading) (cfg : Config) (t₀ : ℤ) {es : List Event} {i : ℕ}

/-- The detector of a target in a timely run. -/
lemma exact_detector (he : 0 < cfg.errInterval) (hi : i < cfg.targets.length)
    (h : (machine wall).Allowed (start cfg t₀) es) :
    Detector.Exact (seconds cfg.errInterval) (detectorAfter wall cfg t₀ es i) := by
  have hpos : 0 < seconds cfg.errInterval := by
    rw [seconds]
    omega
  exact Detector.exact_of_run hpos (tracked_run wall cfg t₀ hi h)

/-- The error timer of a target that is online is due `err_interval` after its last answer. -/
lemma armed_of_online (he : 0 < cfg.errInterval) (hi : i < cfg.targets.length)
    (h : (machine wall).Allowed (start cfg t₀) es) {t : Target}
    (ht : ((machine wall).exec (start cfg t₀) es).targets[i]? = some t)
    (hon : t.isonline = true) :
    ∃ a, lastAnswer i ((machine wall).exec (start cfg t₀) es).hist = some a ∧
      t.errEv.pending = some (a + seconds cfg.errInterval) ∧
      ((machine wall).exec (start cfg t₀) es).now ≤ a + seconds cfg.errInterval := by
  have hexact := exact_detector wall cfg t₀ he hi h
  have htrack := tracked_exec wall cfg t₀ es hi
  have hlast := lastAnswer_observed i ((machine wall).exec (start cfg t₀) es).hist
  rw [htrack.obs] at hlast
  obtain ⟨t', ht', hon', herr'⟩ := htrack.target
  obtain rfl : t' = t := by simpa [ht] using ht'.symm
  obtain ⟨a, ha, hd⟩ := hexact.online (hon'.symm.trans hon)
  refine ⟨a, hlast.symm.trans ha, by rw [herr', hd], ?_⟩
  rw [← htrack.now, ← hd]
  exact hexact.due

/-- An alarm falls `err_interval` after the last answer before it. -/
lemma alarm_of_answer (he : 0 < cfg.errInterval) (hi : i < cfg.targets.length)
    (h : (machine wall).Allowed (start cfg t₀) es) {h₁ h₂ : List Act} {text : Text} {ok : Bool}
    {τ : ℤ} (hsplit : ((machine wall).exec (start cfg t₀) es).hist
      = h₁ ++ .notice i false text ok τ :: h₂) :
    ∃ a, lastAnswer i h₁ = some a ∧ τ = a + seconds cfg.errInterval := by
  have hexact := exact_detector wall cfg t₀ he hi h
  have hobs : (detectorAfter wall cfg t₀ es i).obs
      = observed i h₁ ++ .notice false ok τ :: observed i h₂ := by
    rw [← (tracked_exec wall cfg t₀ es hi).obs, hsplit, observed_append]
    simp [observed, obsOf]
  obtain ⟨a, ha, hτ⟩ := hexact.alarms.split hobs ok τ rfl
  exact ⟨a, by rw [← lastAnswer_observed, ha], hτ⟩

/-- The alarm of a target falls `err_interval` after its last handled answer, and
not without it. -/
theorem exact_detection (he : 0 < cfg.errInterval) (hi : i < cfg.targets.length)
    (h : (machine wall).Allowed (start cfg t₀) es) :
    ExactDetection (seconds cfg.errInterval) i ((machine wall).exec (start cfg t₀) es) := by
  refine ⟨fun t ht hon => armed_of_online wall cfg t₀ he hi h ht hon,
    fun h₁ h₂ text ok τ hsplit => alarm_of_answer wall cfg t₀ he hi h hsplit, ?_⟩
  rintro t ht ⟨hon, hlate⟩
  obtain ⟨a, ha, -, hnow⟩ := armed_of_online wall cfg t₀ he hi h ht hon
  have := hlate a ha
  omega

/-! ### One target, and a run of its own -/

/-- A configuration with one target, polled every 20 s and given 15 s. -/
def oneTarget : Config where
  myname := bytes "local"
  pollInterval := 20
  errInterval := 15
  targets := [⟨bytes "pi", bytes "127.0.0.2", bytes "48807"⟩]

/-- The address of the one target. -/
def piAddr : SockAddr := ⟨2130706434, 48807⟩

/-- Every lookup finds the one address. -/
def piResolver : Resolver := fun _ _ _ => some piAddr

/-- A message that is delivered at once. -/
def delivered : Call := ⟨true, 0⟩

/-- An answer, and then nothing for more than 15 s. -/
def answeredOnce : List Event :=
  [.recv (some piAddr) 0 piResolver delivered, .tick 15000000000, .err 0 delivered, .tick 1]

/-- Nothing at all for more than 15 s. -/
def neverAnswered : List Event := [.tick 15000000000, .err 0 delivered, .tick 1]

theorem exact_detection_answeredOnce :
    ExactDetection (seconds 15) 0
      ((machine fun _ => .epoch).exec (start oneTarget 0) answeredOnce) :=
  exact_detection (fun _ => .epoch) oneTarget 0 (by decide) (by decide) (by decide)

/-! ### Silent hosts -/

/-- A down notice of the target `i` stands after its last handled answer. -/
def ReportedDown (i : ℕ) (hist : List Act) : Prop :=
  ∃ h₁ h₂ text ok τ, hist = h₁ ++ .notice i false text ok τ :: h₂ ∧ lastAnswer i h₂ = none

/-- A report that the detector made is in the history. -/
lemma reportedDown_of_observed {hist : List Act} {a : ℤ}
    (h : Detector.Reported (observed i hist) a) : ReportedDown i hist := by
  obtain ⟨o₁, o₂, hobs, -, hquiet, ok, τ, hmem⟩ := h
  obtain ⟨h₁, h₂, rfl, -, rfl⟩ := List.filterMap_eq_append_iff.mp hobs
  obtain ⟨x, hx, hxo⟩ := List.mem_filterMap.mp hmem
  obtain ⟨g₁, g₂, rfl⟩ := List.append_of_mem hx
  have hnotice : ∃ text, x = .notice i false text ok τ := by
    cases x with
    | notice j up text ok' t =>
        simp only [obsOf, Option.ite_none_right_eq_some, Option.some.injEq,
          Detector.Obs.notice.injEq] at hxo
        obtain ⟨rfl, rfl, rfl, rfl⟩ := hxo
        exact ⟨text, rfl⟩
    | answer src who re t =>
        cases who with
        | none => cases hxo
        | some j => simp [obsOf] at hxo
    | _ => cases hxo
  obtain ⟨text, rfl⟩ := hnotice
  refine ⟨h₁ ++ g₁, g₂, text, ok, τ, by simp, (latest_eq_none _).mpr fun y hy => ?_⟩
  rw [answerOf_eq]
  cases hyo : obsOf i y with
  | none => rfl
  | some o => exact hquiet o (List.mem_filterMap.mpr ⟨y, by simp [hy], hyo⟩)

/-- A target that never answered is not reported down, silent as it is. -/
theorem silent_from_start :
    let m := (machine fun _ => .epoch).exec (start oneTarget 0) neverAnswered
    (machine fun _ => .epoch).Allowed (start oneTarget 0) neverAnswered ∧
      lastAnswer 0 m.hist = none ∧ 0 + seconds oneTarget.errInterval < m.now ∧
      ¬ ReportedDown 0 m.hist := by
  refine ⟨by decide, by decide, by decide, ?_⟩
  rintro ⟨h₁, h₂, text, ok, τ, hsplit, -⟩
  have hnil : ((machine fun _ => .epoch).exec (start oneTarget 0) neverAnswered).hist = [] := rfl
  rw [hnil] at hsplit
  simp at hsplit

/-- A target that has been silent for more than `err_interval` has been reported. -/
lemma reported_of_silent (he : 0 < cfg.errInterval) (hi : i < cfg.targets.length)
    (h : (machine wall).Allowed (start cfg t₀) es) {a : ℤ}
    (ha : lastAnswer i ((machine wall).exec (start cfg t₀) es).hist = some a)
    (hlate : a + seconds cfg.errInterval < ((machine wall).exec (start cfg t₀) es).now) :
    ReportedDown i ((machine wall).exec (start cfg t₀) es).hist := by
  have hexact := exact_detector wall cfg t₀ he hi h
  have htrack := tracked_exec wall cfg t₀ es hi
  have hlast : Detector.lastAnswer (detectorAfter wall cfg t₀ es i).obs = some a := by
    rw [← htrack.obs, lastAnswer_observed, ha]
  have hoff : (detectorAfter wall cfg t₀ es i).online = false := by
    by_contra hon
    obtain ⟨b, hb, hd⟩ := hexact.online (by simpa using hon)
    have hab : a = b := by simpa [hlast] using hb
    have hdue := hexact.due
    rw [← htrack.now] at hlate
    omega
  refine reportedDown_of_observed (a := a) ?_
  rw [htrack.obs]
  exact hexact.reported hoff a hlast

/-- A target that has answered is reported down once it has been silent for more
than `err_interval`; one that never answered is never reported down. -/
theorem silence_reported (he : 0 < cfg.errInterval) (hi : i < cfg.targets.length)
    (h : (machine wall).Allowed (start cfg t₀) es) :
    let m := (machine wall).exec (start cfg t₀) es
    (∀ a, lastAnswer i m.hist = some a → a + seconds cfg.errInterval < m.now →
        ReportedDown i m.hist) ∧
      (lastAnswer i m.hist = none → ∀ text ok τ, .notice i false text ok τ ∉ m.hist) := by
  intro m
  refine ⟨fun a ha hlate => reported_of_silent wall cfg t₀ he hi h ha hlate, ?_⟩
  intro hnone text ok τ hmem
  obtain ⟨h₁, h₂, hsplit⟩ := List.append_of_mem hmem
  obtain ⟨a, ha, -⟩ := alarm_of_answer wall cfg t₀ he hi h hsplit
  obtain ⟨x, hx, hxa⟩ := mem_of_latest _ ha
  have hnever := (latest_eq_none _).mp hnone x (by rw [hsplit]; simp [hx])
  rw [hxa] at hnever
  cases hnever

theorem silence_reported_answeredOnce :
    let m := (machine fun _ => .epoch).exec (start oneTarget 0) answeredOnce
    (∀ a, lastAnswer 0 m.hist = some a → a + seconds 15 < m.now → ReportedDown 0 m.hist) ∧
      (lastAnswer 0 m.hist = none → ∀ text ok τ, .notice 0 false text ok τ ∉ m.hist) :=
  silence_reported (fun _ => .epoch) oneTarget 0 (by decide) (by decide) (by decide)

end Hearthbeat.Monitor
