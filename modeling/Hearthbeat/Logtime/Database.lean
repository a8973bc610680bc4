import Hearthbeat.Sqlite.Table
import Hearthbeat.Logtime.Clock
import Hearthbeat.Machine.Run

/-!
`logtime.c`, the database: the tables `targets` and `clocks`, the statements that
are run on them, and a process that starts and records clocks.

Every statement may fail, in its preparation or in its step, and then changes
nothing; a failed `SELECT` has no row, so its column is 0. Ids are 64 bits wide
in the database and an `int` in the source.

* `Database.getTargetId`, `Database.resolve`, `Database.executeInsertQuery`: the
  queries. `resolve` is the part of the last that finds or makes the id.
* `Database.resolves_iff`: when the id it finds is that of a row of the name.
* `Logtime.machine`: the calls of any number of processes, one after the other.
-/

namespace Hearthbeat

/-- The conversion to an `int` of 32 bits. -/
def toInt (x : ℤ) : ℤ := x.bmod (2 ^ 32)

lemma toInt_lt (x : ℤ) : toInt x < 2 ^ 31 := by
  have h := Int.bmod_lt (x := x) (m := 2 ^ 32) (by norm_num)
  norm_num at h
  exact h

lemma toInt_le {x : ℤ} (hx : 0 ≤ x) : toInt x ≤ x := by
  rw [toInt, Int.bmod_def]
  push_cast
  split_ifs <;> omega

lemma toInt_of_lt {x : ℤ} (hx : 0 ≤ x) (hlt : x < 2 ^ 31) : toInt x = x :=
  (bmod_eq_self_iff x).mpr ⟨by omega, hlt⟩

/-- A row of `clocks`, but for its time stamp. `call` is the name in the call of
`logtime_set_record` that inserted it, which the table does not hold. -/
structure ClockRow where
  target : ℤ
  s : ℤ
  ns : ℤ
  call : Text
  deriving DecidableEq

/-- The tables, none before they are created. -/
structure Database where
  targets : Option (Table Text)
  clocks : Option (List ClockRow)

/-- Which statements of one `execute_insert_query` succeed. -/
structure Outcomes where
  lookup : Bool
  insertTarget : Bool
  lookupAgain : Bool
  insertClock : Bool
  deriving DecidableEq

/-- All of them. -/
abbrev Outcomes.all : Outcomes := ⟨true, true, true, true⟩

namespace Database

/-- `CREATE TABLE IF NOT EXISTS targets`. -/
def createTargets (db : Database) (ok : Bool) : Database :=
  if ok then { db with targets := some (db.targets.getD Table.empty) } else db

/-- `CREATE TABLE IF NOT EXISTS clocks`. -/
def createClocks (db : Database) (ok : Bool) : Database :=
  if ok then { db with clocks := some (db.clocks.getD []) } else db

/-- The source's `get_target_id`: -1 if the query finds no row, 0 if it fails. -/
def getTargetId (db : Database) (name : Text) (ok : Bool) : ℤ :=
  match db.targets with
  | none => 0
  | some t =>
      if ok then
        match t.select name with
        | none => -1
        | some r => toInt r.id
      else 0

/-- `INSERT INTO targets (name)`. -/
def insertTarget (db : Database) (name : Text) (ok : Bool) : Database :=
  if ok then { db with targets := db.targets.map (·.insert name) } else db

/-- `INSERT INTO clocks (target, s, ns)`. -/
def insertClock (db : Database) (row : ClockRow) (ok : Bool) : Database :=
  if ok then { db with clocks := db.clocks.map (· ++ [row]) } else db

/-- The first part of `execute_insert_query`: the id of the name, inserted where it
is missing. -/
def resolve (db : Database) (name : Text) (o : Outcomes) : Database × ℤ :=
  let id := db.getTargetId name o.lookup
  if id = -1 then
    let db := db.insertTarget name o.insertTarget
    (db, db.getTargetId name o.lookupAgain)
  else (db, id)

/-- The source's `execute_insert_query`, with the outcomes of its statements. -/
def executeInsertQuery (db : Database) (name : Text) (time : Timespec) (o : Outcomes) :
    Database :=
  let (db, id) := db.resolve name o
  db.insertClock ⟨id, toInt time.tvSec, toInt time.tvNsec, name⟩ o.insertClock

/-- The number of rows of `targets`. -/
def size (db : Database) : ℤ := db.targets.elim 0 fun t => t.rows.length

/-- The id is that of a row of `targets` with the name. -/
def Resolves (db : Database) (id : ℤ) (name : Text) : Prop :=
  ∃ t ∈ db.targets, ∃ r ∈ t.rows, r.id = id ∧ r.value = name

/-- The statements before the last of `execute_insert_query` find or make the row of
the name, and its id is an `int`. -/
def Sound (db : Database) (name : Text) (o : Outcomes) : Prop :=
  o.lookup = true ∧ ∃ t ∈ db.targets,
    match t.select name with
    | some r => r.id < 2 ^ 31
    | none => o.insertTarget = true ∧ o.lookupAgain = true ∧ (t.rows.length : ℤ) + 1 < 2 ^ 31

section Queries

variable {db : Database} {t : Table Text} {name : Text} {o : Outcomes} {ok : Bool}

lemma getTargetId_none (h : db.targets = none) : db.getTargetId name ok = 0 := by
  simp only [getTargetId, h]

lemma getTargetId_failed : db.getTargetId name false = 0 := by
  simp only [getTargetId]
  split <;> rfl

lemma getTargetId_some (h : db.targets = some t) {r : Row Text} (hr : t.select name = some r) :
    db.getTargetId name true = toInt r.id := by
  simp [getTargetId, h, hr]

lemma getTargetId_missing (h : db.targets = some t) (hr : t.select name = none) :
    db.getTargetId name true = -1 := by
  simp [getTargetId, h, hr]

variable (name) in
lemma insertTarget_true (h : db.targets = some t) :
    (db.insertTarget name true).targets = some (t.insert name) := by
  simp [insertTarget, h]

lemma insertTarget_clocks : (db.insertTarget name ok).clocks = db.clocks := by
  simp only [insertTarget]
  split_ifs <;> rfl

variable (db name ok) in
/-- What can happen to `targets`. -/
lemma insertTarget_targets : (db.insertTarget name ok).targets = db.targets ∨
    ∃ t ∈ db.targets, (db.insertTarget name ok).targets = some (t.insert name) := by
  cases ok with
  | false => exact .inl rfl
  | true =>
      cases ht : db.targets with
      | none => exact .inl (by simp [insertTarget, ht])
      | some t => exact .inr ⟨t, rfl, insertTarget_true _ ht⟩

/-- A row of the name and with its id is there before an insertion if it is there
after it, unless it is the new one. -/
lemma resolves_insertTarget {id : ℤ} {other : Text} (hid : id ≤ db.size) :
    (db.insertTarget other ok).Resolves id name ↔ db.Resolves id name := by
  rcases insertTarget_targets db other ok with h | ⟨t, ht, h⟩
  · simp only [Resolves, h]
  · rw [Option.mem_def] at ht
    simp only [size, ht, Option.elim_some] at hid
    simp only [Resolves, h, ht, Option.mem_def, Option.some.injEq, exists_eq_left',
      Table.mem_insert]
    constructor
    · rintro ⟨r, hr | rfl, hrid, hname⟩
      · exact ⟨r, hr, hrid, hname⟩
      · simp only at hrid
        omega
    · rintro ⟨r, hr, hrid, hname⟩
      exact ⟨r, .inl hr, hrid, hname⟩

/-- No row has an id below 1. -/
lemma not_resolves {id : ℤ} (hid : id < 1) : ¬ db.Resolves id name := by
  rintro ⟨t, -, r, hr, rfl, -⟩
  have := (Table.id_bounds hr).1
  omega

/-! ### The id that is found -/

/-- Where the first lookup is no -1, nothing is inserted. -/
lemma resolve_of_ne (h : db.getTargetId name o.lookup ≠ -1) :
    db.resolve name o = (db, db.getTargetId name o.lookup) := by
  simp only [resolve, if_neg h]

lemma resolve_of_eq (h : db.getTargetId name o.lookup = -1) :
    db.resolve name o = (db.insertTarget name o.insertTarget,
      (db.insertTarget name o.insertTarget).getTargetId name o.lookupAgain) := by
  simp only [resolve, if_pos h]

/-- A row that is there is found, and is the right one if its id is an `int`. -/
lemma resolves_of_present (ht : db.targets = some t) (hlookup : o.lookup = true) {r : Row Text}
    (hr : t.select name = some r) :
    (db.resolve name o).1.Resolves (db.resolve name o).2 name ↔ r.id < 2 ^ 31 := by
  obtain ⟨hmem, hvalue⟩ := Table.select_some hr
  have hpos := (Table.id_bounds hmem).1
  have hfound : db.getTargetId name o.lookup = toInt r.id := by
    rw [hlookup, getTargetId_some ht hr]
  by_cases hid : toInt r.id = -1
  · -- the row is taken for missing, and found no better the second time
    have hbig : ¬ r.id < 2 ^ 31 := fun hlt => by
      rw [toInt_of_lt (by omega) hlt] at hid
      omega
    have hagain : (db.insertTarget name o.insertTarget).getTargetId name o.lookupAgain < 1 := by
      cases hagain : o.lookupAgain with
      | false =>
          rw [getTargetId_failed]
          norm_num
      | true =>
          have hr' : ∃ t', (db.insertTarget name o.insertTarget).targets = some t' ∧
              t'.select name = some r := by
            rcases insertTarget_targets db name o.insertTarget with
              h | ⟨t', ht', h⟩
            · exact ⟨t, h.trans ht, hr⟩
            · obtain rfl : t = t' := by simpa [ht] using ht'
              exact ⟨_, h, by rw [Table.select_insert, hr, Option.some_or]⟩
          obtain ⟨t', ht', hr'⟩ := hr'
          rw [getTargetId_some ht' hr', hid]
          norm_num
    rw [resolve_of_eq (hfound.trans hid)]
    exact iff_of_false (not_resolves hagain) hbig
  · rw [resolve_of_ne (hfound ▸ hid), hfound]
    constructor
    · rintro ⟨t', ht', r', hr', hid', hname⟩
      obtain rfl : t = t' := by simpa [ht] using ht'
      have hle := Table.select_le hr hr' hname
      have hlt := toInt_lt r.id
      omega
    · intro hlt
      exact ⟨t, ht, r, hmem, (toInt_of_lt (by omega) hlt).symm, hvalue⟩

/-- A row that is missing is inserted and found, if both statements succeed and its
id is an `int`. -/
lemma resolves_of_missing (ht : db.targets = some t) (hlookup : o.lookup = true)
    (hr : t.select name = none) :
    (db.resolve name o).1.Resolves (db.resolve name o).2 name ↔
      o.insertTarget = true ∧ o.lookupAgain = true ∧ (t.rows.length : ℤ) + 1 < 2 ^ 31 := by
  have hmissing : db.getTargetId name o.lookup = -1 := by
    rw [hlookup, getTargetId_missing ht hr]
  rw [resolve_of_eq hmissing]
  cases hagain : o.lookupAgain with
  | false =>
      rw [getTargetId_failed]
      exact iff_of_false (not_resolves (by norm_num)) (by simp)
  | true =>
      cases hinsert : o.insertTarget with
      | false =>
          have hnone : (db.insertTarget name false).getTargetId name true = -1 :=
            getTargetId_missing ht hr
          rw [hnone]
          exact iff_of_false (not_resolves (by norm_num)) (by simp)
      | true =>
          have ht' := insertTarget_true name ht
          have hrow : (t.insert name).select name = some ⟨(t.rows.length : ℤ) + 1, name⟩ := by
            rw [Table.select_insert, hr, if_pos rfl, Option.none_or]
          rw [getTargetId_some ht' hrow]
          constructor
          · rintro ⟨t', ht'', r', hr', hid', hname⟩
            obtain rfl : t.insert name = t' := by simpa [ht'] using ht''
            rcases Table.mem_insert.mp hr' with hold | rfl
            · exact absurd hname (Table.select_eq_none.mp hr r' hold)
            · have hlt := toInt_lt ((t.rows.length : ℤ) + 1)
              exact ⟨rfl, rfl, by simp only at hid'; omega⟩
          · rintro ⟨-, -, hlt⟩
            have hid : toInt ((t.rows.length : ℤ) + 1) = t.rows.length + 1 :=
              toInt_of_lt (by omega) hlt
            refine ⟨_, ht', ⟨(t.rows.length : ℤ) + 1, name⟩, Table.mem_insert.mpr (.inr rfl), ?_,
              rfl⟩
            simp only [hid]

/-- The id found is that of a row of the name exactly if the statements are sound. -/
theorem resolves_iff :
    (db.resolve name o).1.Resolves (db.resolve name o).2 name ↔ db.Sound name o := by
  cases ht : db.targets with
  | none =>
      have hzero : db.getTargetId name o.lookup = 0 := getTargetId_none ht
      rw [resolve_of_ne (by rw [hzero]; norm_num), hzero]
      exact iff_of_false (not_resolves (by norm_num)) (by simp [Sound, ht])
  | some t =>
      cases hlookup : o.lookup with
      | false =>
          have hzero : db.getTargetId name o.lookup = 0 := by rw [hlookup, getTargetId_failed]
          rw [resolve_of_ne (by rw [hzero]; norm_num), hzero]
          exact iff_of_false (not_resolves (by norm_num)) (by simp [Sound, hlookup])
      | true =>
          cases hr : t.select name with
          | none =>
              rw [resolves_of_missing ht hlookup hr]
              simp only [Sound, ht, hlookup, hr, Option.mem_def, Option.some.injEq,
                exists_eq_left', true_and]
          | some r =>
              rw [resolves_of_present ht hlookup hr]
              simp only [Sound, ht, hlookup, hr, Option.mem_def, Option.some.injEq,
                exists_eq_left', true_and]

end Queries

/-- The rows of `clocks`. -/
def clockRows (db : Database) : List ClockRow := db.clocks.getD []

section Rows

variable (db : Database) (name : Text) (o : Outcomes) (ok : Bool)

lemma resolves_createTargets {id : ℤ} :
    (db.createTargets ok).Resolves id name ↔ db.Resolves id name := by
  cases ok with
  | false => rfl
  | true => cases ht : db.targets <;> simp [createTargets, Resolves, ht, Table.empty]

@[simp] lemma size_createTargets : (db.createTargets ok).size = db.size := by
  cases ok with
  | false => rfl
  | true => cases ht : db.targets <;> simp [createTargets, size, ht, Table.empty]

@[simp] lemma clockRows_createTargets : (db.createTargets ok).clockRows = db.clockRows := by
  cases ok <;> rfl

@[simp] lemma clockRows_createClocks : (db.createClocks ok).clockRows = db.clockRows := by
  cases ok <;> rfl

@[simp] lemma size_createClocks : (db.createClocks ok).size = db.size := by
  cases ok <;> rfl

lemma resolves_createClocks {id : ℤ} :
    (db.createClocks ok).Resolves id name ↔ db.Resolves id name := by
  cases ok <;> rfl

@[simp] lemma targets_insertClock (row : ClockRow) :
    (db.insertClock row ok).targets = db.targets := by
  cases ok <;> rfl

lemma clockRows_insertClock (row : ClockRow) :
    (db.insertClock row ok).clockRows
      = db.clockRows ++ if ok = true ∧ db.clocks.isSome = true then [row] else [] := by
  cases ok <;> cases h : db.clocks <;> simp [insertClock, clockRows, h]

lemma resolve_clocks : (db.resolve name o).1.clocks = db.clocks := by
  simp only [resolve]
  split_ifs
  · exact insertTarget_clocks
  · rfl

lemma size_insertTarget_le : db.size ≤ (db.insertTarget name ok).size := by
  rcases insertTarget_targets db name ok with h | ⟨t, ht, h⟩
  · simp only [size, h, le_refl]
  · rw [Option.mem_def] at ht
    simp [size, h, ht]

lemma size_resolve_le : db.size ≤ (db.resolve name o).1.size := by
  simp only [resolve]
  split_ifs
  · exact size_insertTarget_le db name o.insertTarget
  · exact le_refl _

lemma getTargetId_le : db.getTargetId name ok ≤ db.size := by
  cases ht : db.targets with
  | none => simp [getTargetId_none ht, size, ht]
  | some t =>
      have hsize : db.size = t.rows.length := by simp [size, ht]
      cases ok with
      | false =>
          rw [getTargetId_failed, hsize]
          positivity
      | true =>
          cases hr : t.select name with
          | none =>
              rw [getTargetId_missing ht hr, hsize]
              omega
          | some r =>
              have hbounds := Table.id_bounds (Table.select_some hr).1
              have hle := toInt_le (x := r.id) (by omega)
              rw [getTargetId_some ht hr, hsize]
              omega

lemma resolve_le : (db.resolve name o).2 ≤ (db.resolve name o).1.size := by
  simp only [resolve]
  split_ifs
  · exact getTargetId_le _ name o.lookupAgain
  · exact getTargetId_le db name o.lookup

end Rows

end Database

/-! ### Processes -/

/-- The clocks of the process that runs, and the database. -/
structure Logtime where
  clocks : List NamedClock
  db : Database

namespace Logtime

/-- A process begins with `logtime_init`, whose two statements may fail, and then
starts and records clocks. -/
inductive Event where
  | init (targets clocks : Bool)
  | setStart (name : Text) (now : Reading)
  | setRecord (name : Text) (now : Reading) (o : Outcomes)

/-- A call of `logtime.c`. A process begins without clocks. -/
def act (s : Logtime) : Event → Logtime
  | .init targets clocks => ⟨[], (s.db.createTargets targets).createClocks clocks⟩
  | .setStart name now => { s with clocks := logtimeSetStart s.clocks name now }
  | .setRecord name now o =>
      match logtimeSetRecord s.clocks name now with
      | none => s
      | some interval => { s with db := s.db.executeInsertQuery name interval o }

/-- The calls of processes that run one after the other. -/
def machine : Machine Logtime Event where
  guard _ _ := True
  act := act

/-- No process has run yet. -/
def start : Logtime := ⟨[], ⟨none, none⟩⟩

end Logtime

end Hearthbeat
