import Hearthbeat.Monitor.Target
import Hearthbeat.Text.Buffer

/-!
`monitor.c`, the loop of `init`: how the values of `target` are cut into the three
strings of a target.

* `cut`: the sizes of the three buffers and the lengths of the three copies for one
  value, none where `init` dies. `initTargets` is the loop.
* `Checked`: a value with fewer than two colons is rejected, and what is copied fits.
* `checked_iff`: a run of the loop is so exactly if no value that it reaches has one
  colon; the two searches then find the same one (`one_colon`).
* `entry_text`, `text_entry`: otherwise the strings are those of `name:host:port`.
-/

namespace Hearthbeat

/-- The text of a target in the configuration file. -/
def Entry.text (x : Entry) : Text := x.name ++ byte ':' :: (x.host ++ byte ':' :: x.port)

namespace Monitor

/-- The allocation of a string and the copy into it: the arguments of `malloc` and
`memset`, and of `strncpy`, as the differences of pointers that they are. -/
structure Copy where
  size : ℤ
  src : Text
  len : ℤ
  deriving DecidableEq

namespace Copy

/-- The contents of the buffer after the copy, none where it leaves the buffer. -/
def buffer (c : Copy) : Option (List Byte) :=
  strncpyTo (List.replicate c.size.toNat 0) c.src c.len

/-- The copy stays inside the buffer and leaves room for the NUL. -/
structure Fits (c : Copy) : Prop where
  nonneg : 0 ≤ c.len
  lt : c.len < c.size
  terminated : ∃ b ∈ c.buffer, 0 ∈ b

/-- The string in the buffer. -/
def field (c : Copy) : Text := (c.buffer.map cstr).getD []

lemma fits_of_lt {c : Copy} (hnonneg : 0 ≤ c.len) (hlt : c.len < c.size) :
    c.Fits ∧ c.field = strncpy c.len.toNat c.src := by
  obtain ⟨n, hn⟩ := Int.eq_ofNat_of_zero_le hnonneg
  obtain ⟨b, hb, -, hzero, hstr⟩ := strncpyTo_zeros c.src c.size.toNat n (by omega)
  have hbuffer : c.buffer = some b := by rw [buffer, hn]; exact hb
  refine ⟨⟨hnonneg, hlt, b, hbuffer, hzero⟩, ?_⟩
  calc c.field
      = cstr b := by rw [field, hbuffer, Option.map_some, Option.getD_some]
    _ = strncpy n c.src := hstr
    _ = strncpy c.len.toNat c.src := by rw [hn, Int.toNat_natCast]

end Copy

/-- The copies of a target. -/
structure Cut where
  name : Copy
  host : Copy
  port : Copy
  deriving DecidableEq

/-- The three copies, in the order of the source. -/
def Cut.copies (c : Cut) : List Copy := [c.name, c.host, c.port]

/-- The body of the loop: none where it dies. -/
def cut (value : Text) : Option Cut :=
  let totallength : ℤ := value.length
  match strchr value (byte ':'), strrchr value (byte ':') with
  | some first, some last =>
      some {
        name := ⟨first + 1, value, first⟩
        host := ⟨last - first + 1, value.drop (first + 1), last - first - 1⟩
        port := ⟨totallength - last + 1, value.drop (last + 1), totallength - last⟩ }
  | _, _ => none

/-- The loop: the values that it reaches, with their copies. It ends in the first value
that it dies of. -/
def initTargets : List Text → List (Text × Option Cut)
  | [] => []
  | value :: values =>
      match cut value with
      | none => [(value, none)]
      | some c => (value, some c) :: initTargets values

/-- What is asked of a value that the loop reaches. -/
structure Checked (value : Text) (c : Option Cut) : Prop where
  rejected : value.count (byte ':') < 2 → c = none
  fits : ∀ cut ∈ c, ∀ copy ∈ cut.copies, copy.Fits

section Cuts

variable {value a b p : Text}

lemma cut_none (hnul : 0 ∉ value) (hcolon : byte ':' ∉ value) : cut value = none := by
  rw [cut, strchr_eq_none hcolon hnul]

/-- One colon is found by both searches. -/
lemma cut_one (ha : byte ':' ∉ a) (hp : byte ':' ∉ p) (hnul : 0 ∉ a ++ byte ':' :: p) :
    ∃ c, cut (a ++ byte ':' :: p) = some c ∧ c.host.len = -1 := by
  rw [cut, strchr_append_cons ha hnul, strrchr_append_cons hp hnul]
  exact ⟨_, rfl, by simp⟩

/-- The copies of `name:host:port`. -/
lemma cut_text {x : Entry} (hname : byte ':' ∉ x.name) (hport : byte ':' ∉ x.port)
    (hnul : 0 ∉ x.text) :
    cut x.text = some {
      name := ⟨x.name.length + 1, x.text, x.name.length⟩
      host := ⟨x.host.length + 2, x.host ++ byte ':' :: x.port, x.host.length⟩
      port := ⟨x.port.length + 2, x.port, x.port.length + 1⟩ } := by
  have hlast : x.text = (x.name ++ byte ':' :: x.host) ++ byte ':' :: x.port := by
    simp [Entry.text]
  have hfirst : strchr x.text (byte ':') = some x.name.length := strchr_append_cons hname hnul
  have hend : strrchr x.text (byte ':') = some (x.name ++ byte ':' :: x.host).length := by
    rw [hlast] at hnul ⊢
    exact strrchr_append_cons hport hnul
  have hhost : x.text.drop (x.name.length + 1) = x.host ++ byte ':' :: x.port := by
    rw [Entry.text, List.drop_length_add_append, List.drop_one, List.tail_cons]
  have hrest : x.text.drop ((x.name ++ byte ':' :: x.host).length + 1) = x.port := by
    rw [hlast, List.drop_length_add_append, List.drop_one, List.tail_cons]
  have htotal : x.text.length = (x.name ++ byte ':' :: x.host).length + 1 + x.port.length := by
    rw [hlast, List.length_append, List.length_cons]
    omega
  simp only [cut, hfirst, hend, hhost, hrest, htotal]
  rw [List.length_append, List.length_cons]
  push_cast
  congr 3 <;> ring

lemma fits_text {x : Entry} {c : Cut} (hname : byte ':' ∉ x.name) (hport : byte ':' ∉ x.port)
    (hnul : 0 ∉ x.text) (hc : cut x.text = some c) :
    (∀ copy ∈ c.copies, copy.Fits) ∧
      c.name.field = x.name ∧ c.host.field = x.host ∧ c.port.field = x.port := by
  obtain rfl := Option.some.inj ((cut_text hname hport hnul).symm.trans hc)
  obtain ⟨hname, hn⟩ := Copy.fits_of_lt
    (c := ⟨x.name.length + 1, x.text, x.name.length⟩) (by simp only; omega) (by simp only; omega)
  obtain ⟨hhost, hh⟩ := Copy.fits_of_lt
    (c := ⟨x.host.length + 2, x.host ++ byte ':' :: x.port, x.host.length⟩)
    (by simp only; omega) (by simp only; omega)
  obtain ⟨hport, hp⟩ := Copy.fits_of_lt
    (c := ⟨x.port.length + 2, x.port, x.port.length + 1⟩) (by simp only; omega)
    (by simp only; omega)
  simp only [Entry.text, List.mem_append, List.mem_cons, not_or] at hnul
  refine ⟨by simp [Cut.copies, hname, hhost, hport], hn.trans ?_, hh.trans ?_, hp.trans ?_⟩
  · rw [Int.toNat_natCast, strncpy, Entry.text, List.take_left, cstr_of_not_mem hnul.1]
  · rw [Int.toNat_natCast, strncpy, List.take_left, cstr_of_not_mem hnul.2.2.1]
  · rw [strncpy, List.take_of_length_le (by simp only; omega), cstr_of_not_mem hnul.2.2.2.2]

/-- A value has no colon, or one, or the form `name:host:port`. -/
lemma value_cases (value : Text) : byte ':' ∉ value ∨
    (∃ a p, value = a ++ byte ':' :: p ∧ byte ':' ∉ a ∧ byte ':' ∉ p) ∨
    ∃ x : Entry, value = x.text ∧ byte ':' ∉ x.name ∧ byte ':' ∉ x.port := by
  by_cases hcolon : byte ':' ∈ value
  · obtain ⟨a, r, rfl, ha⟩ := List.eq_append_cons_of_mem hcolon
    by_cases hr : byte ':' ∈ r
    · obtain ⟨p, b, hrev, hp⟩ := List.eq_append_cons_of_mem (List.mem_reverse.mpr hr)
      have hsplit : r = b.reverse ++ byte ':' :: p.reverse := by
        rw [← List.reverse_reverse r, hrev]
        simp
      exact .inr (.inr
        ⟨⟨a, b.reverse, p.reverse⟩, by rw [Entry.text, hsplit], ha, by simpa using hp⟩)
    · exact .inr (.inl ⟨a, r, rfl, ha, hr⟩)
  · exact .inl hcolon

lemma cut_eq_none_iff (hnul : 0 ∉ value) : cut value = none ↔ byte ':' ∉ value := by
  refine ⟨fun hcut => ?_, cut_none hnul⟩
  rcases value_cases value with hnone | ⟨a, p, rfl, ha, hp⟩ | ⟨x, rfl, hname, hport⟩
  · exact hnone
  · obtain ⟨c, hc, -⟩ := cut_one ha hp hnul
    rw [hcut] at hc
    cases hc
  · rw [cut_text hname hport hnul] at hcut
    cases hcut

/-- A value is cut as it should be unless it has one colon. -/
lemma checked_cut (hnul : 0 ∉ value) : Checked value (cut value) ↔ value.count (byte ':') ≠ 1 := by
  rcases value_cases value with hnone | ⟨a, p, rfl, ha, hp⟩ | ⟨x, rfl, hname, hport⟩
  · have hcut := cut_none hnul hnone
    have hcount : value.count (byte ':') ≠ 1 := by
      rw [List.count_eq_zero_of_not_mem hnone]
      norm_num
    exact iff_of_true ⟨fun _ => hcut, by simp [hcut]⟩ hcount
  · obtain ⟨c, hc, hhost⟩ := cut_one ha hp hnul
    have hcount : (a ++ byte ':' :: p).count (byte ':') = 1 := by
      rw [List.count_append, List.count_cons_self, List.count_eq_zero_of_not_mem ha,
        List.count_eq_zero_of_not_mem hp]
    refine iff_of_false (fun h => ?_) (not_not_intro hcount)
    have hnonneg := (h.fits c hc c.host (by simp [Cut.copies])).nonneg
    omega
  · have hcount : 2 ≤ x.text.count (byte ':') := by
      rw [Entry.text, List.count_append, List.count_cons_self, List.count_append,
        List.count_cons_self]
      omega
    refine iff_of_true ⟨fun hlt => absurd hlt (by omega), fun c hc => ?_⟩ (by omega)
    exact (fits_text hname hport hnul hc).1

end Cuts

/-- In a run of the loop over any values, every value that it reaches is rejected or
copied as it should be exactly if none of those before the first without a colon has one
colon only. -/
theorem checked_iff (values : List Text) (hnul : ∀ value ∈ values, 0 ∉ value) :
    (∀ x ∈ initTargets values, Checked x.1 x.2) ↔
      ∀ value ∈ values.takeWhile fun value => value.contains (byte ':'),
        value.count (byte ':') ≠ 1 := by
  induction values with
  | nil => simp [initTargets]
  | cons value values ih =>
      obtain ⟨hvalue, hvalues⟩ := List.forall_mem_cons.mp hnul
      have hchecked := checked_cut hvalue
      cases hcut : cut value with
      | none =>
          have hcolon := (cut_eq_none_iff hvalue).mp hcut
          have hcount : value.count (byte ':') ≠ 1 := by
            rw [List.count_eq_zero_of_not_mem hcolon]
            norm_num
          rw [hcut] at hchecked
          have hreached : initTargets (value :: values) = [(value, none)] := by
            simp [initTargets, hcut]
          rw [hreached, List.takeWhile_cons_of_neg (by simpa using hcolon)]
          simpa using hchecked.mpr hcount
      | some c =>
          have hcolon : byte ':' ∈ value := by
            by_contra hnone
            rw [cut_none hvalue hnone] at hcut
            cases hcut
          rw [hcut] at hchecked
          have hreached : initTargets (value :: values)
              = (value, some c) :: initTargets values := by
            simp [initTargets, hcut]
          rw [hreached, List.takeWhile_cons_of_pos (by simpa using hcolon), List.forall_mem_cons,
            List.forall_mem_cons, ih hvalues, hchecked]

/-- A value of the default configuration, and one that is rejected. -/
theorem checked_pi :
    (initTargets [bytes "pi:localhost:48807", bytes "pi"]).map Prod.fst
        = [bytes "pi:localhost:48807", bytes "pi"] ∧
      ∀ x ∈ initTargets [bytes "pi:localhost:48807", bytes "pi"], Checked x.1 x.2 :=
  ⟨by decide, (checked_iff [bytes "pi:localhost:48807", bytes "pi"] (by decide)).mpr (by decide)⟩

/-- A value without a host. -/
theorem one_colon :
    initTargets [bytes "pi:48807"]
        = [(bytes "pi:48807", some {
            name := ⟨3, bytes "pi:48807", 2⟩
            host := ⟨1, bytes "48807", -1⟩
            port := ⟨7, bytes "48807", 6⟩ })] ∧
      ¬ ∀ x ∈ initTargets [bytes "pi:48807"], Checked x.1 x.2 := by
  have hcut : initTargets [bytes "pi:48807"]
      = [(bytes "pi:48807", some {
          name := ⟨3, bytes "pi:48807", 2⟩
          host := ⟨1, bytes "48807", -1⟩
          port := ⟨7, bytes "48807", 6⟩ })] := by
    decide
  refine ⟨hcut, fun h => ?_⟩
  rw [hcut, List.forall_mem_singleton] at h
  have hnonneg := (h.fits _ rfl ⟨1, bytes "48807", -1⟩ (by decide)).nonneg
  exact absurd hnonneg (by decide)

/-! ### The entries -/

/-- The strings of a target that has been cut. -/
def Cut.entry (c : Cut) : Entry := ⟨c.name.field, c.host.field, c.port.field⟩

/-- An entry whose name and port have no colon is read as it was written. -/
theorem entry_text {x : Entry} (hname : byte ':' ∉ x.name) (hport : byte ':' ∉ x.port)
    (hnul : 0 ∉ x.text) : (cut x.text).map Cut.entry = some x := by
  have hc := cut_text hname hport hnul
  obtain ⟨-, hn, hh, hp⟩ := fits_text hname hport hnul hc
  rw [hc, Option.map_some, Cut.entry, hn, hh, hp]

/-- What is copied as it should be says what was written. -/
theorem text_entry {value : Text} {c : Cut} (hnul : 0 ∉ value) (hc : cut value = some c)
    (h : Checked value (some c)) : c.entry.text = value := by
  rcases value_cases value with hnone | ⟨a, p, rfl, ha, hp⟩ | ⟨x, rfl, hname, hport⟩
  · rw [cut_none hnul hnone] at hc
    cases hc
  · obtain ⟨c', hc', hhost⟩ := cut_one ha hp hnul
    obtain rfl := Option.some.inj (hc.symm.trans hc')
    have hnonneg := (h.fits c rfl c.host (by simp [Cut.copies])).nonneg
    omega
  · obtain ⟨-, hn, hh, hp⟩ := fits_text hname hport hnul hc
    rw [Cut.entry, hn, hh, hp]

end Monitor

end Hearthbeat
