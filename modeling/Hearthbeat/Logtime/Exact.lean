import Hearthbeat.Logtime.Integrity

/-!
Exactness of the stored intervals.

* `timespecDiff64`: the source's `timespec_diff` in signed arithmetic of 64 bits, none where
  an operation overflows. `timespecDiff64_eq` says that none does for readings of a clock,
  not even in the borrow of a second from the lowest difference there is.
* `stored_exactly`: the row that `logtime_set_record` has stored is the exact interval if
  and only if the seconds of the interval, rounded down, are an `int`.
-/

namespace Hearthbeat

/-- The result of an operation on signed numbers of 64 bits. -/
def checked64 (x : ℤ) : Option ℤ := if -2 ^ 63 ≤ x ∧ x < 2 ^ 63 then some x else none

/-- The source's `timespec_diff`, operation by operation. -/
def timespecDiff64 (start stop : Timespec) : Option Timespec := do
  let nsec ← checked64 (stop.tvNsec - start.tvNsec)
  if nsec < 0 then
    let sec ← checked64 (stop.tvSec - start.tvSec)
    let sec ← checked64 (sec - 1)
    let nsec ← checked64 (stop.tvNsec - start.tvNsec)
    let nsec ← checked64 (nsec + 1000000000)
    return ⟨sec, nsec⟩
  else
    let sec ← checked64 (stop.tvSec - start.tvSec)
    let nsec ← checked64 (stop.tvNsec - start.tvNsec)
    return ⟨sec, nsec⟩

/-- A reading of a clock that does not count from before the epoch. -/
def Reading.Representable (r : Reading) : Prop := 0 ≤ r.tvSec ∧ r.tvSec < 2 ^ 63

namespace Logtime

/-- The row of an interval holds it. -/
def ClockRow.nanos (row : ClockRow) : ℤ := row.s * 1000000000 + row.ns

/-- What is asked of the interval between two readings, and of the row that is stored for
it: `/` rounds down. -/
structure StoredExactly (start stop : Reading) : Prop where
  safe : timespecDiff64 start.toTimespec stop.toTimespec
    = some (timespecDiff start.toTimespec stop.toTimespec)
  normal : (timespecDiff start.toTimespec stop.toTimespec).Normal
  exact : (timespecDiff start.toTimespec stop.toTimespec).nanos = stop.nanos - start.nanos
  row : ∀ (s : Logtime) (name : Text) (o : Outcomes), departure s.clocks name = some start →
    o.insertClock = true → s.db.clocks.isSome = true →
      ∃ row, (act s (.setRecord name stop o)).db.clockRows = s.db.clockRows ++ [row] ∧
        0 ≤ row.ns ∧ row.ns < 1000000000 ∧
        (ClockRow.nanos row = stop.nanos - start.nanos ↔
          -2 ^ 31 ≤ (stop.nanos - start.nanos) / 1000000000 ∧
            (stop.nanos - start.nanos) / 1000000000 < 2 ^ 31)

section Exact

variable {start stop : Reading} {x : ℤ}

lemma checked64_of_le (hle : -2 ^ 63 ≤ x) (hlt : x < 2 ^ 63) : checked64 x = some x :=
  if_pos ⟨hle, hlt⟩

/-- No operation overflows. -/
lemma timespecDiff64_eq (hstart : start.Representable) (hstop : stop.Representable) :
    timespecDiff64 start.toTimespec stop.toTimespec
      = some (timespecDiff start.toTimespec stop.toTimespec) := by
  obtain ⟨hs, hs'⟩ := hstart
  obtain ⟨ht, ht'⟩ := hstop
  obtain ⟨hsn, hsn'⟩ := start.normal
  obtain ⟨htn, htn'⟩ := stop.normal
  have hnsec := checked64_of_le (x := stop.tvNsec - start.tvNsec) (by omega) (by omega)
  have hsec := checked64_of_le (x := stop.tvSec - start.tvSec) (by omega) (by omega)
  simp only [timespecDiff64, timespecDiff, hnsec, hsec, Option.bind_eq_bind, Option.bind_some]
  split_ifs with hborrow
  · -- the lowest difference of the seconds is one above the lowest number
    have hless := checked64_of_le (x := stop.tvSec - start.tvSec - 1) (by omega) (by omega)
    have hmore := checked64_of_le (x := stop.tvNsec - start.tvNsec + 1000000000) (by omega)
      (by omega)
    simp only [hless, hmore, Option.bind_some]
    rfl
  · rfl

/-- The seconds of a normal interval are what it means, rounded down. -/
lemma sec_of_normal {t : Timespec} (h : t.Normal) : t.nanos / 1000000000 = t.tvSec := by
  obtain ⟨hle, hlt⟩ := h
  rw [Timespec.nanos]
  omega

/-- A row made from a normal interval. -/
lemma row_of_normal {t : Timespec} (h : t.Normal) (target : ℤ) (call : Text) :
    toInt t.tvNsec = t.tvNsec ∧
      (ClockRow.nanos ⟨target, toInt t.tvSec, toInt t.tvNsec, call⟩ = t.nanos ↔
        -2 ^ 31 ≤ t.nanos / 1000000000 ∧ t.nanos / 1000000000 < 2 ^ 31) := by
  have hns : toInt t.tvNsec = t.tvNsec := toInt_of_lt h.1 (by have := h.2; omega)
  refine ⟨hns, ?_⟩
  rw [sec_of_normal h, ClockRow.nanos, hns, Timespec.nanos, ← bmod_eq_self_iff, toInt]
  constructor
  · intro heq
    simp only at heq
    omega
  · intro heq
    simp only [heq]

end Exact

/-- Between any two readings, in either order, the interval is computed without overflow and
exactly, and stored so exactly if its seconds are an `int`. -/
theorem stored_exactly {start stop : Reading} (hstart : start.Representable)
    (hstop : stop.Representable) : StoredExactly start stop where
  safe := timespecDiff64_eq hstart hstop
  normal := normal_timespecDiff start.normal stop.normal
  exact := nanos_timespecDiff _ _
  row s name o hdep hinsert hclocks := by
    have hnormal := normal_timespecDiff start.normal stop.normal
    have hrecord : logtimeSetRecord s.clocks name stop
        = some (timespecDiff start.toTimespec stop.toTimespec) := by
      rw [logtimeSetRecord_eq, hdep, Option.map_some]
    have hnanos := nanos_timespecDiff start.toTimespec stop.toTimespec
    obtain ⟨hns, hiff⟩ := row_of_normal hnormal (s.db.resolve name o).2 name
    simp only [act, hrecord, executeInsertQuery_clockRows, hinsert, hclocks, and_self, if_true]
    refine ⟨_, rfl, ?_, ?_, ?_⟩
    · rw [hns]
      exact hnormal.1
    · rw [hns]
      exact hnormal.2
    · rw [← hnanos]
      exact hiff

/-- The clock is set back from the last second there is to the epoch: the seconds borrow
down to the lowest number of 64 bits. -/
def lastSecond : Reading := ⟨⟨9223372036854775807, 999999999⟩, by decide⟩

theorem stored_exactly_lastSecond :
    StoredExactly lastSecond .epoch ∧
      timespecDiff64 lastSecond.toTimespec Reading.epoch.toTimespec
        = some ⟨-9223372036854775808, 1⟩ :=
  ⟨stored_exactly ⟨by decide, by decide⟩ ⟨by decide, by decide⟩, by decide⟩

end Logtime

end Hearthbeat
