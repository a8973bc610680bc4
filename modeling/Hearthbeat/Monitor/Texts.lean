import Hearthbeat.Monitor.Frame
import Hearthbeat.Monitor.Init
import Hearthbeat.Argparse.Lines

/-!
What the texts of the notifications say. Both are cut by `snprintf` to 255 bytes.

* `unambiguous_iff`: the texts about the targets of a monitor tell them apart, and up from
  down, exactly if the name of the monitor and that of every target have at most 243 bytes
  together. Names of different targets are told apart even by texts that are cut in front
  of the last four bytes (`eq_of_take_ends`).
* `long_names`: names that the reader accepts, and whose four texts are one.
* `notices_tell`: in a run, what a notice says can be read off its text.
-/

namespace Hearthbeat.Monitor

open Argparse (declaration)

/-- What stands behind the name in a notification. -/
def noticeEnd (up : Bool) : Text := if up then bytes " is up!" else bytes " is down!"

/-- The texts about the targets of a monitor differ for every target, and from those of
targets with another name. -/
structure Unambiguous (m : Monitor) : Prop where
  same : ∀ t ∈ m.targets, m.noticeText t.name true ≠ m.noticeText t.name false
  apart : ∀ t ∈ m.targets, ∀ t' ∈ m.targets, t.name ≠ t'.name →
    ∀ up up', m.noticeText t.name up ≠ m.noticeText t'.name up'

section Texts

variable (m : Monitor) {a b : Text} {up up' : Bool} {r : ℕ}

/-- What is left to tell two texts apart. -/
lemma noticeText_inj :
    m.noticeText a up = m.noticeText b up' ↔
      (a ++ noticeEnd up).take (248 - m.myname.length)
        = (b ++ noticeEnd up').take (248 - m.myname.length) := by
  have hcut : ∀ name up, m.noticeText name up = (m.myname ++ bytes ": Host ").take 255
      ++ (name ++ noticeEnd up).take (248 - m.myname.length) := by
    intro name up
    have hlen : 255 - (m.myname ++ bytes ": Host ").length = 248 - m.myname.length := by
      rw [List.length_append, show (bytes ": Host ").length = 7 from rfl]
      omega
    rw [noticeText, snprintf, List.append_assoc, List.take_append, hlen]
    rfl
  rw [hcut, hcut, List.append_right_inj]

/-- The two texts about one name first differ at its fifth byte. -/
lemma take_ends_eq_iff :
    (a ++ noticeEnd true).take r = (a ++ noticeEnd false).take r ↔ r ≤ a.length + 4 := by
  have hends : (noticeEnd true).take (r - a.length) = (noticeEnd false).take (r - a.length) ↔
      r - a.length ≤ 4 := by
    constructor
    · intro h
      by_contra hlt
      have hfifth := congrArg (List.take 5) h
      rw [List.take_take, List.take_take, Nat.min_eq_left (by omega)] at hfifth
      revert hfifth
      decide
    · intro hle
      have hfour : ∀ up, (noticeEnd up).take (r - a.length)
          = ((noticeEnd up).take 4).take (r - a.length) := fun up => by
        rw [List.take_take, Nat.min_eq_left hle]
      rw [hfour, hfour]
      rfl
  rw [List.take_append, List.take_append, List.append_right_inj, hends]
  omega

/-- The ends begin with bytes that are not found further behind in them. -/
lemma drop_noticeEnd {n : ℕ} (hn : 1 ≤ n) : ((noticeEnd up).drop n).take 2 ≠ bytes " i" := by
  by_cases hlong : 10 ≤ n
  · have hlen : (noticeEnd up).length ≤ 9 := by cases up <;> decide
    rw [List.drop_of_length_le (by omega)]
    decide
  · interval_cases n <;> cases up <;> decide

/-- The shorter of two names is not continued by its end to the longer one. -/
lemma eq_of_take_ends_of_le (hle : a.length ≤ b.length) (hb : b.length + 2 ≤ r)
    (h : (a ++ noticeEnd up).take r = (b ++ noticeEnd up').take r) : a = b := by
  have ha : a.take r = a := List.take_of_length_le (by omega)
  have hb' : b.take r = b := List.take_of_length_le (by omega)
  rw [List.take_append, List.take_append, ha, hb'] at h
  have hpre : b <+: a ++ (noticeEnd up).take (r - a.length) := by
    rw [h]
    exact List.prefix_append _ _
  obtain ⟨e, rfl⟩ := List.prefix_of_prefix_length_le (List.prefix_append a _) hpre hle
  rw [List.append_assoc, List.append_right_inj] at h
  rw [List.length_append] at hb h
  by_contra hne
  have hpos : 1 ≤ e.length := by
    by_contra hzero
    exact hne (by simp [List.eq_nil_of_length_eq_zero (Nat.lt_one_iff.mp (not_le.mp hzero))])
  have hstart : ((noticeEnd up').take (r - (a.length + e.length))).take 2 = bytes " i" := by
    rw [List.take_take, Nat.min_eq_left (by omega)]
    cases up' <;> rfl
  have htwo : ((noticeEnd up).drop e.length).take 2 = bytes " i" :=
    calc ((noticeEnd up).drop e.length).take 2
        = (((noticeEnd up).take (r - a.length)).drop e.length).take 2 := by
          rw [List.drop_take, List.take_take, Nat.min_eq_left (by omega)]
      _ = ((noticeEnd up').take (r - (a.length + e.length))).take 2 := by rw [h, List.drop_left]
      _ = bytes " i" := hstart
  exact drop_noticeEnd hpos htwo

/-- Different names make different texts. -/
lemma eq_of_take_ends (ha : a.length + 2 ≤ r) (hb : b.length + 2 ≤ r)
    (h : (a ++ noticeEnd up).take r = (b ++ noticeEnd up').take r) : a = b := by
  rcases Nat.le_total a.length b.length with hle | hle
  · exact eq_of_take_ends_of_le hle hb h
  · exact (eq_of_take_ends_of_le hle ha h.symm).symm

end Texts

/-- The texts of a monitor are unambiguous exactly if no name is too long. -/
theorem unambiguous_iff (m : Monitor) :
    Unambiguous m ↔ ∀ t ∈ m.targets, m.myname.length + t.name.length ≤ 243 := by
  constructor
  · intro h t ht
    have hne := h.same t ht
    rw [Ne, noticeText_inj, take_ends_eq_iff] at hne
    omega
  · intro h
    refine ⟨fun t ht => ?_, fun t ht t' ht' hne up up' heq => ?_⟩
    · have hlen := h t ht
      rw [Ne, noticeText_inj, take_ends_eq_iff]
      omega
    · have hlen := h t ht
      have hlen' := h t' ht'
      rw [noticeText_inj] at heq
      exact hne (eq_of_take_ends (by omega) (by omega) heq)

/-! ### Whole runs -/

/-- A notice has the text of its target and its direction. -/
def Worded (cfg : Config) (t₀ : ℤ) (x : Act) : Prop :=
  ∀ i up text ok t, x = .notice i up text ok t →
    ∃ entry, cfg.targets[i]? = some entry ∧ text = (start cfg t₀).noticeText entry.name up

section Runs

variable {wall : ℤ → Reading} {cfg : Config} {t₀ : ℤ} {m : Monitor} {i : ℕ}

lemma worded_of_isNotice {x : Act} (hx : x.isNotice = false) : Worded cfg t₀ x := by
  rintro i up text ok t rfl
  cases hx

/-- The notice that a callback sends about a target. -/
lemma worded_notice (hm : Keeps (start cfg t₀) m) {t : Target} (ht : m.targets[i]? = some t)
    (up ok : Bool) (now : ℤ) :
    Worded cfg t₀ (.notice i up (m.noticeText t.name up) ok now) := by
  rintro i' up' text ok' t' heq
  simp only [Act.notice.injEq] at heq
  obtain ⟨rfl, rfl, rfl, -, -⟩ := heq
  refine ⟨t.entry, entry_of_keeps hm ht, ?_⟩
  rw [noticeText, noticeText, hm.myname]
  rfl

lemma worded_handleErrEvent (hm : Keeps (start cfg t₀) m) (h : ∀ x ∈ m.hist, Worded cfg t₀ x)
    (c : Call) : ∀ x ∈ (m.handleErrEvent i c).hist, Worded cfg t₀ x := by
  cases ht : m.targets[i]? with
  | none => rwa [handleErrEvent_none c ht]
  | some t =>
      cases hon : t.isonline with
      | true =>
          rw [handleErrEvent_online c ht hon]
          exact List.forall_mem_append.mpr ⟨h, by simpa using worded_notice hm ht false c.ok m.now⟩
      | false => rwa [handleErrEvent_offline c ht hon]

lemma worded_resetErrorTimer (hm : Keeps (start cfg t₀) m) (h : ∀ x ∈ m.hist, Worded cfg t₀ x)
    (c : Call) {t : Target} (ht : m.targets[i]? = some t) :
    ∀ x ∈ (m.resetErrorTimer i c).hist, Worded cfg t₀ x := by
  cases hon : t.isonline with
  | true => rwa [resetErrorTimer_online c ht hon]
  | false =>
      rw [resetErrorTimer_offline c ht hon]
      exact List.forall_mem_append.mpr ⟨h, by simpa using worded_notice hm ht true c.ok m.now⟩

lemma worded_answer (hworded : ∀ x ∈ m.hist, Worded cfg t₀ x) (client : SockAddr)
    (who : Option ℕ) (re : ℕ) :
    ∀ x ∈ (m.log (.answer client who re m.now)).hist, Worded cfg t₀ x :=
  List.forall_mem_append.mpr ⟨hworded, by simpa using worded_of_isNotice rfl⟩

variable (wall) in
/-- An answer adds a notice of its target at most, in front of the record. -/
lemma worded_handleAnswer (hm : Keeps (start cfg t₀) m) (h : ∀ x ∈ m.hist, Worded cfg t₀ x)
    (src : Option SockAddr) (re : ℕ) (res : Resolver) (c : Call) :
    ∀ x ∈ (m.handleAnswer wall src re res c).hist, Worded cfg t₀ x := by
  cases src with
  | none => exact h
  | some client =>
      cases hw : getTarget res m.targets client with
      | none =>
          rw [handleAnswer_unattributed c wall re hw]
          exact worded_answer h client none re
      | some i =>
          have ht := List.getElem?_eq_getElem (getTarget_lt hw)
          rw [handleAnswer_attributed c wall re hw ht]
          set m₁ := m.log (.answer client (some i) re m.now)
          have hm₁ : Keeps (start cfg t₀) m₁ := hm.trans (Passive.log m rfl).keeps
          obtain ⟨l, hl, hrecord⟩ := recordAnswer_hist wall (m₁.resetErrorTimer i c) i re _
          rw [hl]
          refine List.forall_mem_append.mpr
            ⟨worded_resetErrorTimer hm₁ (worded_answer h client (some i) re) c ht, fun x hx => ?_⟩
          obtain ⟨interval, t, rfl⟩ := hrecord x hx
          exact worded_of_isNotice rfl

/-- Every event keeps the notices so. -/
lemma worded_act (m : Monitor) (ev : Event)
    (h : Keeps (start cfg t₀) m ∧ ∀ x ∈ m.hist, Worded cfg t₀ x) :
    Keeps (start cfg t₀) (act wall m ev) ∧ ∀ x ∈ (act wall m ev).hist, Worded cfg t₀ x := by
  obtain ⟨hm, hworded⟩ := h
  refine ⟨hm.trans (keeps_act wall m ev), ?_⟩
  cases ev with
  | tick d => exact hworded
  | poll i res sent =>
      set m₁ := m.modifyTarget i fun t => { t with pollEv := t.pollEv.fire }
      show ∀ x ∈ (m₁.sendBip wall i res sent).hist, Worded cfg t₀ x
      cases ht : m₁.targets[i]? with
      | none =>
          rw [sendBip_none wall ht]
          exact hworded
      | some t =>
          obtain ⟨dest, hhist⟩ := sendBip_hist wall ht res sent
          rw [hhist]
          exact List.forall_mem_append.mpr ⟨hworded, by simpa using worded_of_isNotice rfl⟩
  | err i c =>
      have hfire : Passive m (m.modifyTarget i fun t => { t with errEv := t.errEv.fire }) :=
        Passive.modifyTarget m i fun _ => rfl
      exact worded_handleErrEvent (hm.trans hfire.keeps) hworded c
  | recv src re res c => exact worded_handleAnswer wall hm hworded src re res c

variable (wall cfg t₀) in
/-- The text of a notice says the name of its target, and whether it is up, if no name is
too long. -/
theorem notices_tell (hlen : ∀ x ∈ cfg.targets, cfg.myname.length + x.name.length ≤ 243)
    (es : List Event) {i j : ℕ} {up up' ok ok' : Bool} {text : Text} {t t' : ℤ}
    (h : .notice i up text ok t ∈ ((machine wall).exec (start cfg t₀) es).hist)
    (h' : .notice j up' text ok' t' ∈ ((machine wall).exec (start cfg t₀) es).hist) :
    up = up' ∧ cfg.targets[i]?.map Entry.name = cfg.targets[j]?.map Entry.name := by
  have hinv := Machine.exec_induction (M := machine wall) worded_act
    ⟨Keeps.refl (start cfg t₀), by simp [start, init]⟩ es
  obtain ⟨x, hx, htext⟩ := hinv.2 _ h i up text ok t rfl
  obtain ⟨x', hx', htext'⟩ := hinv.2 _ h' j up' text ok' t' rfl
  have hlenx := hlen x (List.mem_of_getElem? hx)
  have hlenx' := hlen x' (List.mem_of_getElem? hx')
  have heq := (noticeText_inj _).mp (htext.symm.trans htext')
  have hmyname : (start cfg t₀).myname = cfg.myname := rfl
  rw [hmyname] at heq
  have hname : x.name = x'.name := eq_of_take_ends (by omega) (by omega) heq
  refine ⟨?_, by rw [hx, hx', Option.map_some, Option.map_some, hname]⟩
  rw [hname] at heq
  cases up <;> cases up'
  · rfl
  · exact absurd (take_ends_eq_iff.mp heq.symm) (by omega)
  · exact absurd (take_ends_eq_iff.mp heq) (by omega)
  · rfl

end Runs

/-! ### Long names -/

/-- The reader takes the value from a line that fits its buffer. -/
def Delivered (key value : Text) : Prop :=
  (declaration (key, value)).length ≤ 254 ∧
    parseLine (declaration (key, value) ++ [newline]) = some (key, value)

/-- A monitor and two targets with long names. -/
def longNames : Config where
  myname := List.replicate 100 (byte 'm')
  pollInterval := 20
  errInterval := 15
  targets := [⟨List.replicate 200 (byte 'a') ++ bytes "1", bytes "h", bytes "1"⟩,
    ⟨List.replicate 200 (byte 'a') ++ bytes "2", bytes "h", bytes "2"⟩]

/-- A value without a newline or a NUL is delivered, if its line fits. -/
lemma delivered_of_fits {key value : Text}
    (hbytes : ∀ b ∈ key ++ value, b ≠ 0 ∧ b ≠ newline) (hkey : equals ∉ key)
    (hhash : key.head? ≠ some hash) (hne : key ≠ [])
    (hlen : key.length + value.length ≤ 253) : Delivered key value := by
  have hmem : ∀ b, b ≠ equals → b ∈ declaration (key, value) → b ∈ key ++ value := by
    intro b hb h
    simpa [declaration, hb] using h
  have hline : newline ∉ declaration (key, value) := fun h =>
    (hbytes _ (hmem _ (by decide) h)).2 rfl
  have hnul : 0 ∉ declaration (key, value) := fun h => (hbytes _ (hmem _ (by decide) h)).1 rfl
  refine ⟨?_, (parseLine_eq_some hline).mpr ⟨rfl, hkey, hnul, ?_⟩⟩
  · simp only [declaration, List.length_append, List.length_cons]
    omega
  · rwa [declaration, List.head?_append_of_ne_nil _ hne]

/-- What the long names are made of. -/
lemma longNames_targets {x : Entry} (hx : x ∈ longNames.targets) :
    ∃ d p, x = ⟨List.replicate 200 (byte 'a') ++ [d], bytes "h", [p]⟩ ∧
      (d = byte '1' ∨ d = byte '2') ∧ (p = byte '1' ∨ p = byte '2') := by
  rcases List.mem_pair.mp hx with rfl | rfl
  · exact ⟨byte '1', byte '1', rfl, .inl rfl, .inl rfl⟩
  · exact ⟨byte '2', byte '2', rfl, .inr rfl, .inr rfl⟩

/-- What the long names have in common fills all the room that `snprintf` has left. -/
lemma longNames_texts {x x' : Entry} (hx : x ∈ longNames.targets) (hx' : x' ∈ longNames.targets)
    (up up' : Bool) :
    (start longNames 0).noticeText x.name up = (start longNames 0).noticeText x'.name up' := by
  have hcut : ∀ y, (List.replicate 200 (byte 'a') ++ y).take 148
      = (List.replicate 200 (byte 'a')).take 148 := fun y =>
    List.take_append_of_le_length (by rw [List.length_replicate]; omega)
  obtain ⟨d, p, rfl, -, -⟩ := longNames_targets hx
  obtain ⟨d', p', rfl, -, -⟩ := longNames_targets hx'
  have hlen : (start longNames 0).myname.length = 100 := List.length_replicate
  rw [noticeText_inj, hlen, List.append_assoc, List.append_assoc, hcut, hcut]

lemma delivered_longMyname : Delivered (bytes "myname") longNames.myname := by
  have hlen : (bytes "myname").length + longNames.myname.length ≤ 253 := by
    rw [longNames, List.length_replicate]
    decide
  refine delivered_of_fits (fun b hb => ?_) (by decide) (by decide) (by decide) hlen
  rcases List.mem_append.mp hb with hb | hb
  · exact ne_of_not_mem (t := bytes "myname") (by decide) (by decide) b hb
  · rw [List.eq_of_mem_replicate hb]
    decide

/-- The reader takes the targets, and `init` cuts them into their fields. -/
lemma delivered_longNames {x : Entry} (hx : x ∈ longNames.targets) :
    Delivered (bytes "target") x.text ∧ (cut x.text).map Cut.entry = some x := by
  obtain ⟨d, p, rfl, hd, hp⟩ := longNames_targets hx
  have hname : ∀ b ∈ List.replicate 200 (byte 'a') ++ [d],
      b ≠ 0 ∧ b ≠ newline ∧ b ≠ byte ':' := by
    intro b hb
    rcases List.mem_append.mp hb with hb | hb
    · rw [List.eq_of_mem_replicate hb]
      decide
    · rw [List.mem_singleton.mp hb]
      rcases hd with rfl | rfl <;> decide
  have hrest : ∀ b ∈ byte ':' :: (bytes "h" ++ byte ':' :: [p]), b ≠ 0 ∧ b ≠ newline := by
    rcases hp with rfl | rfl <;> exact ne_of_not_mem (by decide) (by decide)
  have htext : ∀ b ∈ Entry.text ⟨List.replicate 200 (byte 'a') ++ [d], bytes "h", [p]⟩,
      b ≠ 0 ∧ b ≠ newline := by
    intro b hb
    rcases List.mem_append.mp hb with hb | hb
    · exact ⟨(hname b hb).1, (hname b hb).2.1⟩
    · exact hrest b hb
  refine ⟨delivered_of_fits (fun b hb => ?_) (by decide) (by decide) (by decide) ?_, ?_⟩
  · rcases List.mem_append.mp hb with hb | hb
    · exact ne_of_not_mem (t := bytes "target") (by decide) (by decide) b hb
    · exact htext b hb
  · simp only [Entry.text, List.length_append, List.length_replicate]
    show 6 + (200 + 1 + 4) ≤ 253
    norm_num
  · refine entry_text (fun h => (hname _ h).2.2 rfl) ?_ fun h => (htext _ h).1 rfl
    show byte ':' ∉ [p]
    rcases hp with rfl | rfl <;> decide

/-- The names are accepted, and whatever happens to either target, the text is the same. -/
theorem long_names :
    Delivered (bytes "myname") longNames.myname ∧
      (∀ x ∈ longNames.targets,
        Delivered (bytes "target") x.text ∧ (cut x.text).map Cut.entry = some x) ∧
      (∀ x ∈ longNames.targets, ∀ x' ∈ longNames.targets, ∀ up up',
        (start longNames 0).noticeText x.name up = (start longNames 0).noticeText x'.name up') ∧
      ¬ Unambiguous (start longNames 0) := by
  refine ⟨delivered_longMyname, fun x hx => delivered_longNames hx,
    fun x hx x' hx' => longNames_texts hx hx', fun h => ?_⟩
  -- the up text and the down text of the first target
  have hmem := List.getElem_mem (l := longNames.targets) (n := 0) (by decide)
  exact h.same _ (List.getElem_mem (n := 0) (by decide)) (longNames_texts hmem hmem true false)

end Hearthbeat.Monitor
