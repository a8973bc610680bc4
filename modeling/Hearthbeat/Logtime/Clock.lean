import Hearthbeat.Text.Bytes

/-!
`logtime.c`, the clocks: the departure time kept for every name, and the
interval that `logtime_set_record` hands to `execute_insert_query`.

* `Timespec`, `timespecDiff`: `nanos_timespecDiff` and `normal_timespecDiff` say
  that the difference is exact and normal.
* `NamedClock`, `getNamedClock`, `logtimeSetStart`, `logtimeSetRecord`: the array
  `clocks`; `departure_logtimeSetStart` is its law, one departure a name. A name
  that fills its field runs into the departure behind it (`NamedClock.str`).
-/

namespace Hearthbeat

/-- The struct `timespec`. -/
structure Timespec where
  tvSec : ℤ
  tvNsec : ℤ
  deriving DecidableEq, Repr

namespace Timespec

/-- The nanoseconds are less than a second. -/
def Normal (t : Timespec) : Prop := 0 ≤ t.tvNsec ∧ t.tvNsec < 1000000000

instance (t : Timespec) : Decidable t.Normal :=
  inferInstanceAs (Decidable (0 ≤ t.tvNsec ∧ t.tvNsec < 1000000000))

/-- The time in nanoseconds. -/
def nanos (t : Timespec) : ℤ := t.tvSec * 1000000000 + t.tvNsec

end Timespec

/-- What `clock_gettime` returns: a normal timespec. -/
structure Reading extends Timespec where
  normal : toTimespec.Normal

namespace Reading

/-- The reading at the epoch. -/
def epoch : Reading := ⟨⟨0, 0⟩, by decide⟩

/-- The reading that many nanoseconds after the epoch. -/
def ofNanos (n : ℤ) : Reading where
  tvSec := n / 1000000000
  tvNsec := n % 1000000000
  normal := ⟨Int.emod_nonneg n (by decide), Int.emod_lt_of_pos n (by decide)⟩

end Reading

/-- The source's `timespec_diff`, with the borrow of a second. -/
def timespecDiff (start stop : Timespec) : Timespec :=
  if stop.tvNsec - start.tvNsec < 0 then
    ⟨stop.tvSec - start.tvSec - 1, stop.tvNsec - start.tvNsec + 1000000000⟩
  else
    ⟨stop.tvSec - start.tvSec, stop.tvNsec - start.tvNsec⟩

lemma nanos_timespecDiff (start stop : Timespec) :
    (timespecDiff start stop).nanos = stop.nanos - start.nanos := by
  simp only [timespecDiff, Timespec.nanos]
  split_ifs <;> (simp only []; omega)

lemma normal_timespecDiff {start stop : Timespec} (h₁ : start.Normal) (h₂ : stop.Normal) :
    (timespecDiff start stop).Normal := by
  simp only [Timespec.Normal] at h₁ h₂
  simp only [timespecDiff]
  split_ifs with hlt <;> (simp only [Timespec.Normal]; omega)

/-- A normal timespec is determined by what it means. -/
lemma Timespec.Normal.eq {t t' : Timespec} (h : t.Normal) (h' : t'.Normal)
    (heq : t.nanos = t'.nanos) : t = t' := by
  obtain ⟨s, ns⟩ := t
  obtain ⟨s', ns'⟩ := t'
  simp only [Timespec.Normal, Timespec.nanos] at h h' heq
  obtain rfl : s = s' := by omega
  obtain rfl : ns = ns' := by omega
  rfl

/-- Different readings are at different distances from a start. -/
lemma timespecDiff_inj (start : Timespec) {r r' : Reading} :
    timespecDiff start r.toTimespec = timespecDiff start r'.toTimespec ↔ r = r' := by
  refine ⟨fun h => ?_, fun h => by rw [h]⟩
  have hnanos := congrArg Timespec.nanos h
  rw [nanos_timespecDiff, nanos_timespecDiff] at hnanos
  have heq := r.normal.eq r'.normal (by omega)
  obtain ⟨t, hnormal⟩ := r
  obtain ⟨t', hnormal'⟩ := r'
  obtain rfl : t = t' := heq
  rfl

/-- The struct `named_clock`; its name is a field of 256 bytes. -/
structure NamedClock where
  name : Text
  departure : Reading

/-- The bytes of a `long` in memory. -/
def longBytes (x : ℤ) : List Byte :=
  (List.range 8).map fun k => UInt8.ofNat (x / 256 ^ k % 256).toNat

/-- The C string at the start of a clock: its name, and where that leaves no room for
a NUL, the bytes of the departure up to one. -/
def NamedClock.str (c : NamedClock) : Text :=
  if c.name.length < 256 then c.name
  else c.name ++ cstr (longBytes c.departure.tvSec ++ longBytes c.departure.tvNsec)

/-- The index of the first clock of that name. -/
def getNamedClock (clocks : List NamedClock) (name : Text) : Option ℕ :=
  clocks.findIdx? fun c => c.str == name

/-- Read the clock into the departure of the name, a new entry if it has
none. -/
def logtimeSetStart (clocks : List NamedClock) (name : Text) (now : Reading) : List NamedClock :=
  match getNamedClock clocks name with
  | none => clocks ++ [{ name := name.take 256, departure := now }]
  | some k => clocks.modify k fun c => { c with departure := now }

/-- The interval handed to `execute_insert_query`; none where no clock of that
name was started. -/
def logtimeSetRecord (clocks : List NamedClock) (name : Text) (now : Reading) :
    Option Timespec :=
  match getNamedClock clocks name with
  | none => none
  | some k => clocks[k]?.map fun c => timespecDiff c.departure.toTimespec now.toTimespec

/-- The departure kept for a name. -/
def departure (clocks : List NamedClock) (name : Text) : Option Reading :=
  (clocks.find? fun c => c.str == name).map NamedClock.departure

section Clocks

variable (c : NamedClock) (cs : List NamedClock) (name : Text) (now : Reading)

/-- Another departure does not change the string of a short name. -/
lemma str_departure {c : NamedClock} {name : Text} (hc : c.str = name) (hlen : name.length < 256)
    (now : Reading) : { c with departure := now }.str = name := by
  have hshort : c.name.length < 256 := by
    by_contra hlong
    rw [NamedClock.str, if_neg hlong] at hc
    rw [← hc, List.length_append] at hlen
    omega
  rw [NamedClock.str, if_pos hshort] at hc
  rw [NamedClock.str, if_pos hshort, hc]

lemma getNamedClock_cons :
    getNamedClock (c :: cs) name
      = if c.str = name then some 0 else (getNamedClock cs name).map (· + 1) := by
  by_cases h : c.str = name <;> simp [getNamedClock, List.findIdx?_cons, h]

lemma departure_cons :
    departure (c :: cs) name = if c.str = name then some c.departure else departure cs name := by
  by_cases h : c.str = name <;> simp [departure, h]

lemma logtimeSetStart_cons :
    logtimeSetStart (c :: cs) name now
      = if c.str = name then { c with departure := now } :: cs
        else c :: logtimeSetStart cs name now := by
  by_cases h : c.str = name
  · simp [logtimeSetStart, getNamedClock_cons, h]
  · cases hk : getNamedClock cs name <;> simp [logtimeSetStart, getNamedClock_cons, h, hk]

lemma logtimeSetRecord_eq :
    logtimeSetRecord cs name now
      = (departure cs name).map fun d => timespecDiff d.toTimespec now.toTimespec := by
  induction cs with
  | nil => rfl
  | cons c cs ih =>
      by_cases h : c.str = name
      · simp [logtimeSetRecord, getNamedClock_cons, departure_cons, h]
      · rw [departure_cons, if_neg h, ← ih, logtimeSetRecord, logtimeSetRecord,
          getNamedClock_cons, if_neg h]
        cases getNamedClock cs name <;> simp

/-- A start sets the departure of its own name and of no other. -/
lemma departure_logtimeSetStart (hlen : name.length < 256) (other : Text) :
    departure (logtimeSetStart cs name now) other
      = if name = other then some now else departure cs other := by
  have htake : name.take 256 = name := List.take_of_length_le (by omega)
  induction cs with
  | nil =>
      have hset : logtimeSetStart [] name now = [⟨name, now⟩] := by
        simp [logtimeSetStart, getNamedClock, htake]
      have hstr : NamedClock.str ⟨name, now⟩ = name := if_pos hlen
      rw [hset, departure_cons, hstr]
  | cons c cs ih =>
      rw [logtimeSetStart_cons]
      by_cases hc : c.str = name
      · rw [if_pos hc, departure_cons, departure_cons, hc, str_departure hc hlen]
        split_ifs <;> rfl
      · rw [if_neg hc, departure_cons, departure_cons, ih]
        by_cases ho : name = other
        · have hco : c.str ≠ other := ho ▸ hc
          simp [ho, hco]
        · simp [ho]

end Clocks

end Hearthbeat
