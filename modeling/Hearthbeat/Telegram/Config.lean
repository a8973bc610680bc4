import Hearthbeat.Argparse.Tails
import Hearthbeat.Text.Decimal

/-!
`telegram.c`, the configuration and the requests made with it.

* `startup`: what `init` of `monitor.c` and then `telegram_init` read, each from its own
  file. The registrations of a monitor whose file cannot be opened are still there for
  `telegram_init`.
* `launch`: the same for the program, which faults where `telegram_init` assigns to the list
  of `init`. That was a local variable.
* `sendMessageRequest`: the request of `send_message`.
* `used_iff`: the id that a file configures is the one in every request exactly if it is an
  `int`, no tail of a later long line sets another one, and nothing is assigned to the list
  that is gone. Larger ids are cut to 32 bits (`large_id`).
-/

namespace Hearthbeat

open Argparse (Registration Session WellRegistered pointers taken declaration)

/-- What `init` registers: the list 0, the string 0, and the integers 0 and 1. -/
def Monitor.registrations : List Registration :=
  [.strlst (bytes "target") 0, .strDef (bytes "myname") 0 (bytes "myself"),
    .int (bytes "poll_interval") 0, .int (bytes "err_interval") 1]

namespace Telegram

/-- What `telegram_init` registers: `telegram_userid`, the integer 2, and
`telegram_token`, the string 1. -/
def registrations : List Registration := [.int (bytes "user_id") 2, .str (bytes "token") 1]

/-- The variables at the start of the program. -/
def globals : Variables := ⟨fun _ => 0, fun _ => none, fun _ => []⟩

/-- The two files are read, one after the other, as if the variables of `init` were still
there; none is a file that cannot be opened. -/
def startup (monitor telegram : Option (List Byte)) : Argparse :=
  Argparse.machine.exec (Argparse.start globals)
    [⟨Monitor.registrations, monitor⟩, ⟨registrations, telegram⟩]

/-- The program after `telegram_init`, if `init` gets there. The list of `init` is a local
variable: where the file of the monitor cannot be opened, its registration stays, and
what `telegram_init` assigns to it is stored through a dangling pointer. There is no program
behind that. -/
def launch (monitor telegram : Option (List Byte)) : Option Argparse :=
  let s := startup monitor telegram
  if monitor = none ∧ ∃ w ∈ Argparse.writesOf s.hist, w.1.t = .lst then none else some s

/-- The source's `telegram_userid`. -/
def userid (s : Argparse) : ℤ := s.vars.ints 2

/-- The source's `telegram_token`. -/
def token (s : Argparse) : Option Text := s.vars.strs 1

/-! ### Requests -/

/-- The source's `fill_url`; a null token is printed as the C library does. -/
def fillUrl (token : Option Text) (method : Text) : Text :=
  bytes "https://api.telegram.org/bot" ++ token.getD (bytes "(null)") ++ bytes "/" ++ method

/-- The values in a JSON object that is sent; a number is that of an `int`. -/
inductive Json where
  | number (x : ℤ)
  | string (s : Text)
  deriving DecidableEq, Repr

/-- A call of the API: its URL, and the object that is posted, if any. -/
structure Request where
  url : Text
  data : Option (List (Text × Json))
  deriving DecidableEq

/-- The request of `send_message`. -/
def sendMessageRequest (token : Option Text) (userid : ℤ) (message : Text) : Request where
  url := fillUrl token (bytes "sendMessage")
  data := some [(bytes "chat_id", .number userid), (bytes "text", .string message)]

/-- The request of `telegram_send_message`. -/
def telegramRequest (s : Argparse) (message : Text) : Request :=
  sendMessageRequest (token s) (userid s) message

/-- A field of the object that is posted. -/
def Request.field (r : Request) (name : Text) : Option Json := r.data.bind (·.lookup name)

/-- Every message is sent to the chat `n`, and no other id is taken for none. -/
structure Used (s : Argparse) (n : ℤ) : Prop where
  chat : ∀ message, (telegramRequest s message).field (bytes "chat_id") = some (.number n)
  zero : userid s = 0 → n = 0

lemma used_iff_userid {s : Argparse} {n : ℤ} : Used s n ↔ userid s = n := by
  have hfield : ∀ message,
      (telegramRequest s message).field (bytes "chat_id") = some (.number (userid s)) :=
    fun _ => rfl
  constructor
  · intro h
    have hchat := (hfield []).symm.trans (h.chat [])
    exact Json.number.inj (Option.some.inj hchat)
  · rintro rfl
    exact ⟨hfield, fun h => h⟩

/-! ### The id that is read -/

section Startup

variable (monitor : Option (List Byte)) (f : List Byte)

/-- The tables that `telegram_init` reads its file with. -/
lemma startup_eq : ∃ (s : Argparse) (rs : List Registration),
    startup monitor (some f) = s.readProperties (some f) ∧ WellRegistered rs ∧
      s.callbacks = rs.map Registration.callback ∧ s.registeredPointers = pointers rs ∧
      registrations ⊆ rs := by
  set s₁ := (Argparse.start globals).runSession ⟨Monitor.registrations, monitor⟩
  have hrun : startup monitor (some f)
      = (registrations.foldl Argparse.register s₁).readProperties (some f) := rfl
  obtain ⟨before, hc, hp, hwell⟩ : ∃ before : List Registration,
      s₁.callbacks = before.map Registration.callback ∧ s₁.registeredPointers = pointers before ∧
        WellRegistered (before ++ registrations) := by
    cases monitor with
    | none =>
        -- the registrations of the monitor have stayed
        exact ⟨Monitor.registrations, rfl, rfl, by decide, by decide, by decide, by decide⟩
    | some g => exact ⟨[], rfl, rfl, by decide, by decide, by decide, by decide⟩
  refine ⟨_, before ++ registrations, hrun, hwell, ?_, ?_, List.subset_append_right _ _⟩
  · rw [Argparse.foldl_register_callbacks, hc, List.map_append]
  · rw [Argparse.foldl_register_pointers, hp, pointers, pointers, List.filterMap_append]

/-- The id is the last one that the reader takes from a line. -/
lemma userid_startup {v : Text}
    (h : ((completeLines newline f).filterMap (taken (bytes "user_id"))).getLast? = some v) :
    userid (startup monitor (some f)) = atoi v := by
  obtain ⟨s, rs, hs, hrs, hc, hp, hsub⟩ := startup_eq monitor f
  have hmem : (⟨bytes "user_id", .int, 2⟩ : RegisteredPointer) ∈ pointers rs :=
    List.mem_filterMap.mpr ⟨.int (bytes "user_id") 2, hsub (by simp [registrations]), rfl⟩
  have hget := Argparse.get_readProperties hrs hc hp f hmem
  simp only [Variables.get, foldl_assign_int, h] at hget
  rw [hs]
  exact Value.int.inj hget

end Startup

/-- The ids that the reader takes from lines that are too long for its buffer. -/
def strayIds (lines : List (List Byte)) : List Text :=
  (lines.filter fun l => 255 ≤ l.length).filterMap (taken (bytes "user_id"))

section Id

variable {f : List Byte} {n : ℤ}

/-- The line of an id. -/
lemma taken_id (hlow : -2 ^ 52 < n) (hhigh : n < 2 ^ 52) :
    taken (bytes "user_id") (declaration (bytes "user_id", signedDecimal n))
      = some (signedDecimal n) := by
  have hbytes : ∀ b ∈ declaration (bytes "user_id", signedDecimal n), b ≠ 0 ∧ b ≠ newline := by
    intro b hb
    rcases List.mem_append.mp hb with hb | hb
    · exact ne_of_not_mem (t := bytes "user_id") (by decide) (by decide) b hb
    rcases List.mem_cons.mp hb with rfl | hb
    · decide
    rcases mem_signedDecimal n hb with rfl | hdigit
    · decide
    · constructor <;> (rintro rfl; revert hdigit; decide)
  have hlen := length_signedDecimal n (k := 16) (by norm_num) (by omega)
  refine Argparse.taken_declaration (fun h => (hbytes _ h).2 rfl) (fun h => (hbytes _ h).1 rfl)
    (by decide) (show some (byte 'u') ≠ some hash by decide) ?_
  rw [declaration, List.length_append, List.length_cons]
  show 7 + ((signedDecimal n).length + 1) < 255
  omega

/-- Lines that declare no id leave only what is found in the tails of long ones. -/
lemma taken_later {lines : List (List Byte)} (hlines : ∀ l ∈ lines, newline ∉ l)
    (hlater : ∀ l ∈ lines, ∀ v, l ≠ declaration (bytes "user_id", v)) :
    lines.filterMap (taken (bytes "user_id")) = strayIds lines := by
  rw [strayIds, List.filterMap_filter]
  refine List.filterMap_congr fun l hl => ?_
  split_ifs with hlong
  · rfl
  · refine Option.eq_none_iff_forall_ne_some.mpr fun v hv => hlater l hl v ?_
    exact Argparse.taken_short (hlines l hl) (by simpa using hlong) hv

end Id

/-- Where the file of the monitor cannot be opened, its list is assigned the values that the
reader takes from the other file for `target`. -/
lemma writes_target (f : List Byte) :
    (∃ w ∈ Argparse.writesOf (startup none (some f)).hist, w.1.t = .lst) ↔
      ∃ l ∈ completeLines newline f, taken (bytes "target") l ≠ none := by
  set rs := Monitor.registrations ++ registrations
  set s := rs.foldl Argparse.register (Argparse.start globals)
  have hrun : startup none (some f) = s.readProperties (some f) := rfl
  have hrs : WellRegistered rs := ⟨by decide, by decide, by decide, by decide⟩
  have hvalues := Argparse.valuesTo_readProperties (s := s) hrs rfl rfl f
    (p := ⟨bytes "target", .lst, 0⟩) (by decide)
  have hnew : s.hist.length = 0 := rfl
  rw [← hrun, hnew, List.drop_zero] at hvalues
  -- the table has one list
  have honly : ∀ w ∈ Argparse.writesOf (startup none (some f)).hist, w.1.t = .lst →
      w.1.ptr = 0 := by
    intro w hw hlst
    obtain ⟨l, hturn, -⟩ := s.readLines_turn (chunks newline 255 f)
    have hhist : (startup none (some f)).hist = l := hturn.hist
    have hmem : w.1 ∈ pointers rs := hturn.writes_mem (hhist ▸ hw)
    have hlists : ∀ p ∈ pointers rs, p.t = .lst → p.ptr = 0 := by decide
    exact hlists w.1 hmem hlst
  constructor
  · rintro ⟨w, hw, hlst⟩
    have hvalue : w.2 ∈ (completeLines newline f).filterMap (taken (bytes "target")) := by
      rw [← hvalues]
      exact List.mem_filterMap.mpr ⟨w, hw, if_pos ⟨hlst, honly w hw hlst⟩⟩
    obtain ⟨l, hl, htaken⟩ := List.mem_filterMap.mp hvalue
    exact ⟨l, hl, by rw [htaken]; simp⟩
  · rintro ⟨l, hl, htaken⟩
    obtain ⟨value, hvalue⟩ := Option.ne_none_iff_exists'.mp htaken
    have hmem : value ∈ valuesTo .lst 0 (Argparse.writesOf (startup none (some f)).hist) := by
      rw [hvalues]
      exact List.mem_filterMap.mpr ⟨l, hl, hvalue⟩
    obtain ⟨w, hw, hwrite⟩ := List.mem_filterMap.mp hmem
    split_ifs at hwrite with hlst
    exact ⟨w, hw, hlst.1⟩

/-- The program faults exactly at an assignment to the list that is gone. -/
lemma launch_eq (monitor : Option (List Byte)) (f : List Byte) (s : Argparse) :
    launch monitor (some f) = some s ↔ startup monitor (some f) = s ∧
      (monitor = none → ∀ l ∈ completeLines newline f, taken (bytes "target") l = none) := by
  have hsafe : ¬ (monitor = none ∧
      ∃ w ∈ Argparse.writesOf (startup monitor (some f)).hist, w.1.t = .lst) ↔
        (monitor = none → ∀ l ∈ completeLines newline f, taken (bytes "target") l = none) := by
    rw [not_and]
    refine forall_congr' fun hnone => ?_
    rw [hnone, writes_target]
    simp
  rw [← hsafe, launch]
  split_ifs with hstale
  · exact iff_of_false (by simp) fun h => h.2 hstale
  · exact ⟨fun h => ⟨Option.some.inj h, hstale⟩, fun h => congrArg some h.1⟩

/-- A monitor whose file can be opened leaves nothing behind. -/
lemma launch_some (f : List Byte) (telegram : Option (List Byte)) :
    launch (some f) telegram = some (startup (some f) telegram) := by
  rw [launch, if_neg]
  simp

/-- The id that a file configures, in a line behind which no other is declared, is used
exactly if it is an `int`, or if the tail of a long line happens to set it, and if the
program does not fault before. -/
theorem used_iff (monitor : Option (List Byte)) {f : List Byte} {before later : List (List Byte)}
    {n : ℤ} (hlow : -2 ^ 52 < n) (hhigh : n < 2 ^ 52)
    (hf : completeLines newline f
      = before ++ declaration (bytes "user_id", signedDecimal n) :: later)
    (hlater : ∀ l ∈ later, ∀ v, l ≠ declaration (bytes "user_id", v)) :
    (∃ s, launch monitor (some f) = some s ∧ Used s n) ↔
      (monitor = none → ∀ l ∈ completeLines newline f, taken (bytes "target") l = none) ∧
      match (strayIds later).getLast? with
      | none => -2 ^ 31 ≤ n ∧ n < 2 ^ 31
      | some v => atoi v = n := by
  have hlines : ∀ l ∈ later, newline ∉ l := fun l hl =>
    not_mem_of_completeLines newline (f := f) (by rw [hf]; simp [hl])
  have htaken : (completeLines newline f).filterMap (taken (bytes "user_id"))
      = before.filterMap (taken (bytes "user_id")) ++ signedDecimal n :: strayIds later := by
    rw [hf, List.filterMap_append, List.filterMap_cons_some (taken_id hlow hhigh),
      taken_later hlines hlater]
  have hlast : ((completeLines newline f).filterMap (taken (bytes "user_id"))).getLast?
      = some ((strayIds later).getLast?.getD (signedDecimal n)) := by
    rw [htaken, List.getLast?_append, List.getLast?_cons, Option.some_or]
  have hused : (∃ s, launch monitor (some f) = some s ∧ Used s n) ↔
      (monitor = none → ∀ l ∈ completeLines newline f, taken (bytes "target") l = none) ∧
        Used (startup monitor (some f)) n := by
    constructor
    · rintro ⟨s, hlaunch, h⟩
      obtain ⟨rfl, hsafe⟩ := (launch_eq monitor f s).mp hlaunch
      exact ⟨hsafe, h⟩
    · exact fun h => ⟨_, (launch_eq monitor f _).mpr ⟨rfl, h.1⟩, h.2⟩
  rw [hused, used_iff_userid, userid_startup monitor f hlast]
  refine and_congr_right fun _ => ?_
  cases (strayIds later).getLast? with
  | none => exact atoi_signedDecimal_iff (by omega) (by omega)
  | some v => exact Iff.rfl

theorem used_small_id :
    (∃ s, launch none (some (bytes "# me
user_id=-1234
token=t
")) = some s ∧ Used s (-1234)) ↔
      ((none : Option (List Byte)) = none → ∀ l ∈ completeLines newline (bytes "# me
user_id=-1234
token=t
"), taken (bytes "target") l = none) ∧ -2 ^ 31 ≤ (-1234 : ℤ) ∧ (-1234 : ℤ) < 2 ^ 31 := by
  have hfile : completeLines newline (bytes "# me
user_id=-1234
token=t
") = [bytes "# me"] ++ declaration (bytes "user_id", signedDecimal (-1234)) ::
      [bytes "token=t"] := by
    decide
  have hlater : ∀ l ∈ [bytes "token=t"], ∀ v, l ≠ declaration (bytes "user_id", v) := by
    intro l hl v heq
    rw [List.mem_singleton.mp hl] at heq
    exact absurd (congrArg List.head? heq) (show some (byte 't') ≠ some (byte 'u') by decide)
  exact used_iff none (by norm_num) (by norm_num) hfile hlater

/-- The id of a recent account, of 32 bits, becomes negative, and that of a larger one 0. -/
theorem large_id :
    (∃ s, launch (some []) (some (bytes "user_id=2147483648
")) = some s ∧ userid s = -2147483648) ∧
      (∃ s, launch (some []) (some (bytes "user_id=4294967296
")) = some s ∧ userid s = 0) ∧
      (¬ ∃ s, launch (some []) (some (bytes "user_id=2147483648
")) = some s ∧ Used s 2147483648) ∧
      ¬ ∃ s, launch (some []) (some (bytes "user_id=4294967296
")) = some s ∧ Used s 4294967296 := by
  have hnegative : userid (startup (some []) (some (bytes "user_id=2147483648
"))) = -2147483648 := by
    decide
  have hzero : userid (startup (some []) (some (bytes "user_id=4294967296
"))) = 0 := by decide
  refine ⟨⟨_, launch_some _ _, hnegative⟩, ⟨_, launch_some _ _, hzero⟩, ?_, ?_⟩
  · rintro ⟨s, hlaunch, hused⟩
    obtain rfl := Option.some.inj ((launch_some _ _).symm.trans hlaunch)
    rw [used_iff_userid, hnegative] at hused
    norm_num at hused
  · rintro ⟨s, hlaunch, hused⟩
    obtain rfl := Option.some.inj ((launch_some _ _).symm.trans hlaunch)
    rw [used_iff_userid, hzero] at hused
    norm_num at hused

end Telegram

end Hearthbeat
