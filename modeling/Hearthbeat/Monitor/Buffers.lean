import Hearthbeat.Argparse.Buffers
import Hearthbeat.Logtime.Clock
import Hearthbeat.Monitor.Entries
import Hearthbeat.Telegram.Config

/-!
The buffers of fixed size that the settings are copied into, for any content of the two
configuration files.

`buffers_suffice`: the copies of the reader, the cells of the list of targets, the names of
the clocks and the URLs of the requests all fit. The only check behind this is the size
that `fgets` is given.
-/

namespace Hearthbeat.Monitor

open Argparse (Session LineFits copyLengths writesOf pointers taken)
open Telegram (globals startup token fillUrl)

/-- The state in which the loop of `init` goes through the targets. -/
def configured (monitor : List Byte) : Argparse :=
  (Argparse.start globals).runSession ⟨registrations, some monitor⟩

/-- A C string is stored with its NUL, inside the buffer. -/
def Holds (buffer : List Byte) (x : Text) : Prop :=
  ∃ after, store buffer 0 (x ++ [0]) = some after ∧ after.length = buffer.length ∧ cstr after = x

/-- The name field of a clock, once `strncpy` has filled it: terminated, and the name. -/
def ClockHolds (name : Text) : Prop :=
  ∃ field, strncpyTo (List.replicate 256 0) name 256 = some field ∧ 0 ∈ field ∧ cstr field = name

/-- The buffers that the two files are copied into. -/
structure BuffersSuffice (monitor telegram : List Byte) : Prop where
  lines : ∀ f ∈ [monitor, telegram], ∀ line ∈ chunks newline 255 f,
    ∀ lengths ∈ copyLengths line, LineFits line lengths
  cells : ∀ w ∈ writesOf (startup (some monitor) (some telegram)).hist, w.1.t = .lst →
    Holds (List.replicate 256 0) w.2
  names : ∀ value ∈ (configured monitor).vars.lsts 0, 2 ≤ value.count (byte ':') →
    ∃ t, (cut value).bind Cut.newTarget = some t ∧ ClockHolds t.name
  urls : ∀ method ∈ [bytes "getMe", bytes "sendMessage"], ∀ buffer : List Byte,
    buffer.length = 1024 →
      Holds buffer (fillUrl (token (startup (some monitor) (some telegram))) method)

section Copies

variable {buffer : List Byte} {x : Text}

/-- A C string of fewer bytes than the buffer fits. -/
lemma holds_of_lt (hnul : 0 ∉ x) (hlen : x.length < buffer.length) : Holds buffer x := by
  have hfits : (x ++ [0]).length ≤ buffer.length := by
    rw [List.length_append, List.length_singleton]
    omega
  refine ⟨_, store_zero hfits, ?_, ?_⟩
  · rw [List.length_append, List.length_drop]
    omega
  · rw [List.append_assoc, List.singleton_append, cstr_append_zero, cstr_of_not_mem hnul]

lemma clockHolds_of_lt (hnul : 0 ∉ x) (hlen : x.length < 256) : ClockHolds x :=
  ⟨_, strncpyTo_whole hlen, by simp, by rw [cstr_append_zero, cstr_of_not_mem hnul]⟩

end Copies

/-! ### What the sessions leave -/

section Sessions

variable (monitor telegram : List Byte)

lemma typed_monitor : (registrations.foldl Argparse.register (Argparse.start globals)).Typed :=
  Argparse.typed_register (by decide) rfl rfl

lemma typed_telegram :
    (Telegram.registrations.foldl Argparse.register (configured monitor)).Typed :=
  Argparse.typed_register (by decide) rfl rfl

/-- The values of the targets. -/
lemma target_values : (configured monitor).vars.lsts 0
    = (completeLines newline monitor).filterMap (taken (bytes "target")) := by
  have hrs : Argparse.WellRegistered registrations := ⟨by decide, by decide, by decide, by decide⟩
  have hget := Argparse.get_runSession (s := Argparse.start globals) hrs rfl rfl monitor
    (p := ⟨bytes "target", .lst, 0⟩) (by decide)
  simp only [Variables.get, foldl_assign_lst] at hget
  exact Value.lst.inj hget

/-- The token, if there is one. -/
lemma token_values : token (startup (some monitor) (some telegram))
    = ((completeLines newline telegram).filterMap (taken (bytes "token"))).getLast? := by
  have hother : ∀ p ∈ pointers registrations, ¬ (p.t = .str ∧ p.ptr = 1) := by decide
  have hold : (configured monitor).vars.get .str 1 = .str none :=
    Argparse.get_runSession_of_not_mem (Argparse.start globals)
      (σ := ⟨registrations, some monitor⟩) hother
  have hrs : Argparse.WellRegistered Telegram.registrations :=
    ⟨by decide, by decide, by decide, by decide⟩
  have hget := Argparse.get_runSession (s := configured monitor) hrs rfl rfl telegram
    (p := ⟨bytes "token", .str, 1⟩) (by decide)
  have hkept : (Telegram.registrations.foldl Argparse.register (configured monitor)).vars.get .str 1
      = .str none := hold
  rw [hkept, foldl_assign_str, Option.or_none] at hget
  exact Value.str.inj hget

/-- No session assigns more than a line. -/
lemma length_of_assigned {w : RegisteredPointer × Text}
    (hw : w ∈ writesOf (startup (some monitor) (some telegram)).hist) :
    w.2.length < 254 ∧ 0 ∉ w.2 := by
  rcases Argparse.length_of_written (typed_telegram monitor) hw with hw | hshort
  · rw [Argparse.foldl_register_hist] at hw
    rcases Argparse.length_of_written typed_monitor hw with hw | hshort
    · rw [Argparse.foldl_register_hist] at hw
      cases hw
    · exact hshort
  · exact hshort

/-- The name of a target that is read fits its clock. -/
lemma clockHolds_target {value : Text} (hcount : 2 ≤ value.count (byte ':')) (hnul : 0 ∉ value)
    (hlen : value.length < 254) :
    ∃ t, (cut value).bind Cut.newTarget = some t ∧ ClockHolds t.name := by
  obtain ⟨x, hx, rfl⟩ := readable_of_count hcount hnul
  have hname : x.name.length < 256 := by
    rw [Entry.text, List.length_append] at hlen
    omega
  refine ⟨x.newTarget, newTarget_text hx, clockHolds_of_lt (fun h => hnul ?_) hname⟩
  exact List.mem_append_left _ h

/-- The URL of a request has fewer bytes than its buffer. -/
lemma holds_fillUrl {token : Option Text} (htoken : ∀ x ∈ token, x.length < 254 ∧ 0 ∉ x)
    {method : Text} (hmethod : method ∈ [bytes "getMe", bytes "sendMessage"]) {buffer : List Byte}
    (hlen : buffer.length = 1024) : Holds buffer (fillUrl token method) := by
  have hshort : (token.getD (bytes "(null)")).length < 254 ∧ 0 ∉ token.getD (bytes "(null)") := by
    cases token with
    | none => exact ⟨by decide, by decide⟩
    | some x => exact htoken x rfl
  have hmethods : ∀ method ∈ [bytes "getMe", bytes "sendMessage"],
      method.length ≤ 11 ∧ 0 ∉ method := by decide
  obtain ⟨hle, hnul⟩ := hmethods method hmethod
  refine holds_of_lt ?_ ?_
  · have hfixed : 0 ∉ bytes "https://api.telegram.org/bot" ∧ 0 ∉ bytes "/" := by decide
    simp only [fillUrl, List.mem_append, not_or]
    exact ⟨⟨⟨hfixed.1, hshort.2⟩, hfixed.2⟩, hnul⟩
  · simp only [fillUrl, List.length_append]
    rw [show (bytes "https://api.telegram.org/bot").length = 28 from rfl,
      show (bytes "/").length = 1 from rfl]
    omega

end Sessions

/-- Whatever the two files contain, all that is copied from them fits. -/
theorem buffers_suffice (monitor telegram : List Byte) : BuffersSuffice monitor telegram where
  lines f _ line hline lengths hlengths := Argparse.line_fits hline hlengths
  cells w hw _ := by
    obtain ⟨hlen, hnul⟩ := length_of_assigned monitor telegram hw
    exact holds_of_lt hnul (by rw [List.length_replicate]; omega)
  names value hvalue hcount := by
    rw [target_values] at hvalue
    obtain ⟨l, hl, htaken⟩ := List.mem_filterMap.mp hvalue
    obtain ⟨hlen, hnul⟩ := Argparse.length_of_taken hl htaken
    exact clockHolds_target hcount hnul hlen
  urls method hmethod buffer hlen := by
    refine holds_fillUrl (fun x hx => ?_) hmethod hlen
    rw [token_values] at hx
    obtain ⟨l, hl, htaken⟩ := List.mem_filterMap.mp (List.mem_of_getLast? hx)
    exact Argparse.length_of_taken hl htaken

end Hearthbeat.Monitor
