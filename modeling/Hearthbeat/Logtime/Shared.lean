import Hearthbeat.Logtime.Ledger

/-!
The latency database statement by statement, shared by processes that may stop
between any two statements: by a signal, whose handler exits, or by a crash.

* `Database.run`: one statement of `logtime_init` or `execute_insert_query`, and the
  statement that its process runs next.
* `Shared.machine`: processes that take turns at every statement. One process alone
  runs as `Logtime.machine` says (`alone_simulates`).
* `exactly_once`: unless a lookup or the insertion of a name fails, every interval
  recorded is stored under its name once, is still to be stored, or was lost with
  its process or to an insertion that failed.
* `names_unique`: one process at a time stores no name twice. Two at a time may, but
  `get_target_id` finds the same row for all of them (`found_first`).
-/

namespace Hearthbeat

/-- A call of `execute_insert_query`. -/
structure Query where
  name : Text
  time : Timespec
  deriving DecidableEq

/-- The row that a query inserts into `clocks`. -/
def Query.row (q : Query) (id : ℤ) : ClockRow :=
  ⟨id, toInt q.time.tvSec, toInt q.time.tvNsec, q.name⟩

/-- A statement, with the call that it belongs to and the id that it has found. -/
inductive Statement where
  | createTargets
  | createClocks
  | lookup (q : Query)
  | insertTarget (q : Query)
  | lookupAgain (q : Query)
  | insertClock (q : Query) (id : ℤ)
  deriving DecidableEq

/-- What a query stores: the name and the columns. -/
def Query.entry (q : Query) : Text × ℤ × ℤ := (q.name, toInt q.time.tvSec, toInt q.time.tvNsec)

/-- The same of a row, by the name of its call. -/
def ClockRow.entry (row : ClockRow) : Text × ℤ × ℤ := (row.call, row.s, row.ns)

/-- The query that a statement belongs to. -/
def Statement.query : Statement → Option Query
  | createTargets | createClocks => none
  | lookup q | insertTarget q | lookupAgain q | insertClock q _ => some q

namespace Database

/-- Run a statement; what the process runs after it. -/
def run (db : Database) (ok : Bool) : Statement → Database × Option Statement
  | .createTargets => (db.createTargets ok, some .createClocks)
  | .createClocks => (db.createClocks ok, none)
  | .lookup q =>
      let id := db.getTargetId q.name ok
      (db, some (if id = -1 then .insertTarget q else .insertClock q id))
  | .insertTarget q => (db.insertTarget q.name ok, some (.lookupAgain q))
  | .lookupAgain q => (db, some (.insertClock q (db.getTargetId q.name ok)))
  | .insertClock q id => (db.insertClock (q.row id) ok, none)

end Database

/-- A process: its clocks, and the statement that it is about to run, if any. -/
structure Process where
  clocks : List NamedClock
  next : Option Statement

/-- Places for processes that run at one time, and their database. -/
structure Shared where
  procs : List (Option Process)
  db : Database

namespace Shared

/-- A process begins with `logtime_init`, starts and records clocks, runs its
statements one at a time and stops. -/
inductive Event where
  | init (p : ℕ)
  | setStart (p : ℕ) (name : Text) (now : Reading)
  | setRecord (p : ℕ) (name : Text) (now : Reading)
  | statement (p : ℕ) (ok : Bool)
  | stop (p : ℕ)

/-- The process at a place. -/
def process (s : Shared) (p : ℕ) : Option Process := s.procs[p]?.join

/-- The statement that a process is about to run. -/
def next (s : Shared) (p : ℕ) : Option Statement := (s.process p).bind Process.next

/-- Put a process in its place. -/
def put (s : Shared) (p : ℕ) (P : Option Process) : Shared := { s with procs := s.procs.set p P }

/-- A process is between two calls of `logtime.c`. -/
def Free (s : Shared) (p : ℕ) : Prop := (s.process p).map Process.next = some none

/-- When an event can happen. -/
def guard (s : Shared) : Event → Prop
  | .init p => s.procs[p]? = some none
  | .setStart p _ _ => s.Free p
  | .setRecord p _ _ => s.Free p
  | .statement p _ => (s.next p).isSome = true
  | .stop p => (s.process p).isSome = true

instance (s : Shared) (e : Event) : Decidable (s.guard e) :=
  match e with
  | .init p => decidable_of_iff (s.procs[p]?.map Option.isNone = some true) (by simp [guard])
  | .setStart p _ _ | .setRecord p _ _ =>
      inferInstanceAs (Decidable ((s.process p).map Process.next = some none))
  | .statement p _ => inferInstanceAs (Decidable ((s.next p).isSome = true))
  | .stop p => inferInstanceAs (Decidable ((s.process p).isSome = true))

/-- A step of a process: it begins, calls a function of `logtime.c`, runs the next statement,
or stops and loses its clocks. -/
def act (s : Shared) : Event → Shared
  | .init p => s.put p (some ⟨[], some .createTargets⟩)
  | .setStart p name now =>
      s.put p ((s.process p).map fun P => { P with clocks := logtimeSetStart P.clocks name now })
  | .setRecord p name now =>
      s.put p ((s.process p).map fun P =>
        { P with next := (logtimeSetRecord P.clocks name now).map fun time => .lookup ⟨name, time⟩ })
  | .statement p ok =>
      match s.process p with
      | some ⟨clocks, some st⟩ =>
          { s.put p (some ⟨clocks, (s.db.run ok st).2⟩) with db := (s.db.run ok st).1 }
      | _ => s
  | .stop p => s.put p none

/-- The processes in any interleaving of their statements. -/
def machine : Machine Shared Event where
  guard := guard
  act := act

instance (s : Shared) (e : Event) : Decidable (machine.guard s e) :=
  inferInstanceAs (Decidable (s.guard e))

/-- Places for `n` processes, and no database yet. -/
def start (n : ℕ) : Shared := ⟨List.replicate n none, ⟨none, none⟩⟩

/-! ### One process alone -/

/-- The statements of the calls of `Logtime.machine`. -/
def statements (s : Logtime) : Logtime.Event → List Event
  | .init targets clocks => [.stop 0, .init 0, .statement 0 targets, .statement 0 clocks]
  | .setStart name now => [.setStart 0 name now]
  | .setRecord name now o => .setRecord 0 name now ::
      if (logtimeSetRecord s.clocks name now).isNone then []
      else if s.db.getTargetId name o.lookup = -1 then
        [.statement 0 o.lookup, .statement 0 o.insertTarget, .statement 0 o.lookupAgain,
          .statement 0 o.insertClock]
      else [.statement 0 o.lookup, .statement 0 o.insertClock]

/-- A process that has the database to itself and is between two calls. -/
def alone (s : Logtime) : Shared := ⟨[some ⟨s.clocks, none⟩], s.db⟩

/-- One process alone does statement by statement what its calls do. -/
theorem alone_simulates :
    Logtime.machine.Simulates machine (fun s t => t = alone s) statements := by
  have hcall : ∀ (s : Logtime) e, machine.Allowed (alone s) (statements s e) ∧
      machine.exec (alone s) (statements s e) = alone (Logtime.act s e) := by
    intro s e
    cases e with
    | init targets clocks => exact ⟨⟨rfl, rfl, rfl, rfl, trivial⟩, rfl⟩
    | setStart name now => exact ⟨⟨rfl, trivial⟩, rfl⟩
    | setRecord name now o =>
        cases htime : logtimeSetRecord s.clocks name now with
        | none =>
            simp [statements, htime, machine, act, guard, alone, Free, process, put, Logtime.act]
        | some time =>
            by_cases hid : s.db.getTargetId name o.lookup = -1
            · simp [statements, htime, hid, machine, act, guard, alone, Free, process, next, put,
                Logtime.act, Database.run, Database.executeInsertQuery, Database.resolve, Query.row]
            · simp [statements, htime, hid, machine, act, guard, alone, Free, process, next, put,
                Logtime.act, Database.run, Database.executeInsertQuery, Database.resolve, Query.row]
  exact ⟨fun e hst => hst ▸ (hcall _ e).2, fun e hst _ => hst ▸ (hcall _ e).1⟩

end Shared

/-! ### What the statements before have found -/

namespace Database

/-- The least id that is stored with a name. -/
def firstId (db : Database) (name : Text) : Option ℤ :=
  (db.targets.bind fun t => t.select name).map Row.id

/-- A process can run the statement, or start a call. -/
def Ready (db : Database) : Option Statement → Prop
  | some .createTargets => True
  | some (.lookupAgain q) => (db.firstId q.name).isSome = true
  | some (.insertClock q id) => db.firstId q.name = some id
  | _ => db.targets.isSome = true

/-- The condition on a statement: only the last of `logtime_init` and the last of
`execute_insert_query` may fail, and ids stay an `int`. -/
def Reliable (db : Database) (ok : Bool) : Statement → Prop
  | .createClocks | .insertClock _ _ => True
  | .insertTarget _ => ok = true ∧ db.size + 1 < 2 ^ 31
  | _ => ok = true

/-- The rows that a statement adds to `clocks`. -/
def added (db : Database) (ok : Bool) : Statement → List ClockRow
  | .insertClock q id => if ok = true ∧ db.clocks.isSome = true then [q.row id] else []
  | _ => []

/-- What a statement should have stored and has not. -/
def dropped (db : Database) (ok : Bool) : Statement → List (Text × ℤ × ℤ)
  | .insertClock q _ => if ok = true ∧ db.clocks.isSome = true then [] else [q.entry]
  | _ => []

/-- Tables and first ids stay. -/
structure Grows (db db' : Database) : Prop where
  targets : db.targets.isSome = true → db'.targets.isSome = true
  firstId : ∀ {name id}, db.firstId name = some id → db'.firstId name = some id

section Statements

variable {db db' : Database} {t : Table Text} {name : Text} {id : ℤ} {ok : Bool}
  {st : Statement}

lemma firstId_eq_some : db.firstId name = some id ↔
    ∃ t, db.targets = some t ∧ ∃ r, t.select name = some r ∧ r.id = id := by
  cases ht : db.targets <;> simp [firstId, ht]

lemma firstId_targets (h : db.firstId name = some id) : db.targets.isSome = true := by
  obtain ⟨t, ht, -⟩ := firstId_eq_some.mp h
  rw [ht, Option.isSome_some]

/-- The row of a first id. -/
lemma firstId_row (h : db.firstId name = some id) :
    ∃ r ∈ db.targetRows, r.id = id ∧ r.value = name := by
  obtain ⟨t, ht, r, hr, rfl⟩ := firstId_eq_some.mp h
  obtain ⟨hmem, hvalue⟩ := Table.select_some hr
  exact ⟨r, by simpa [targetRows, ht] using hmem, rfl, hvalue⟩

/-- While ids are an `int`, `get_target_id` returns the first. -/
lemma getTargetId_firstId (hsize : db.size < 2 ^ 31) (h : db.firstId name = some id) :
    db.getTargetId name true = id ∧ id ≠ -1 := by
  obtain ⟨t, ht, r, hr, rfl⟩ := firstId_eq_some.mp h
  have hbounds := Table.id_bounds (Table.select_some hr).1
  have hlength : db.size = t.rows.length := by simp [size, ht]
  rw [getTargetId_some ht hr, toInt_of_lt (by omega) (by omega)]
  exact ⟨rfl, by omega⟩

lemma getTargetId_firstId_none (ht : db.targets.isSome = true) (h : db.firstId name = none) :
    db.getTargetId name true = -1 := by
  obtain ⟨t, ht⟩ := Option.isSome_iff_exists.mp ht
  refine getTargetId_missing ht ?_
  simpa [firstId, ht] using h

lemma Grows.refl (db : Database) : db.Grows db := ⟨id, id⟩

lemma Grows.ready (h : db.Grows db') {next : Option Statement} (hready : db.Ready next) :
    db'.Ready next := by
  match next with
  | some .createTargets => trivial
  | some (.lookupAgain q) =>
      obtain ⟨id, hid⟩ := Option.isSome_iff_exists.mp hready
      exact Option.isSome_iff_exists.mpr ⟨id, h.firstId hid⟩
  | some (.insertClock q id) => exact h.firstId hready
  | none | some .createClocks | some (.lookup q) | some (.insertTarget q) =>
      exact h.targets hready

/-- A name that is inserted leaves the first ids, and gets one if it has none. -/
lemma firstId_insertTarget (ht : db.targets = some t) (name other : Text) :
    (db.insertTarget name true).firstId other
      = (db.firstId other).or (if name = other then some (db.size + 1) else none) := by
  have hsize : db.size = t.rows.length := by simp [size, ht]
  simp only [firstId, insertTarget_true name ht, ht, Option.bind_some, Table.select_insert, hsize]
  cases t.select other <;> split_ifs <;> rfl

variable (db name ok) in
lemma grows_insertTarget : db.Grows (db.insertTarget name ok) := by
  cases ok with
  | false => exact .refl db
  | true =>
      cases ht : db.targets with
      | none =>
          have hsame : db.insertTarget name true = db := by
            simp only [insertTarget, if_true, ht, Option.map_none]
            rw [← ht]
          rw [hsame]
          exact .refl db
      | some t =>
          refine ⟨fun _ => by simp [insertTarget_true name ht], fun hid => ?_⟩
          rw [firstId_insertTarget ht, hid, Option.some_or]

variable (db ok) in
lemma grows_createTargets : db.Grows (db.createTargets ok) := by
  cases ok with
  | false => exact .refl db
  | true =>
      refine ⟨fun _ => rfl, fun hid => ?_⟩
      obtain ⟨t, ht, r, hr, hid⟩ := firstId_eq_some.mp hid
      exact firstId_eq_some.mpr ⟨t, by simp [createTargets, ht], r, hr, hid⟩

variable (db ok st) in
/-- No statement takes a first id away. -/
lemma grows_run : db.Grows (db.run ok st).1 := by
  cases st with
  | createTargets => exact grows_createTargets db ok
  | createClocks => cases ok <;> exact ⟨id, id⟩
  | lookup q => exact .refl db
  | insertTarget q => exact grows_insertTarget db q.name ok
  | lookupAgain q => exact .refl db
  | insertClock q id =>
      have htargets : (db.insertClock (q.row id) ok).targets = db.targets := targets_insertClock ..
      exact ⟨fun h => htargets ▸ h, fun h => by
        simpa only [run, firstId, htargets] using h⟩

/-- A reliable statement leaves its process ready for the next. -/
lemma ready_run (hsize : db.size < 2 ^ 31) (hready : db.Ready (some st))
    (hok : db.Reliable ok st) : (db.run ok st).1.Ready (db.run ok st).2 := by
  cases st with
  | createTargets =>
      obtain rfl : ok = true := hok
      rfl
  | createClocks => exact (grows_run db ok .createClocks).targets hready
  | lookup q =>
      obtain rfl : ok = true := hok
      cases hid : db.firstId q.name with
      | none =>
          simp only [run, getTargetId_firstId_none hready hid, if_true]
          exact hready
      | some id =>
          obtain ⟨hfound, hne⟩ := getTargetId_firstId hsize hid
          simp only [run, hfound, if_neg hne]
          exact hid
  | insertTarget q =>
      obtain ⟨rfl, -⟩ := hok
      obtain ⟨t, ht⟩ := Option.isSome_iff_exists.mp hready
      simp [run, Ready, firstId_insertTarget ht]
  | lookupAgain q =>
      obtain rfl : ok = true := hok
      obtain ⟨id, hid⟩ := Option.isSome_iff_exists.mp hready
      simp only [run, (getTargetId_firstId hsize hid).1]
      exact hid
  | insertClock q id => exact (grows_run db ok (.insertClock q id)).targets (firstId_targets hready)

/-- The rows of `clocks` after a statement. -/
lemma clockRows_run : (db.run ok st).1.clockRows = db.clockRows ++ db.added ok st := by
  cases st with
  | insertClock q id => exact clockRows_insertClock db ok (q.row id)
  | insertTarget q => simp [run, added, clockRows, insertTarget_clocks]
  | _ => simp [run, added]

lemma size_run (hsize : db.size < 2 ^ 31) (hok : db.Reliable ok st) :
    (db.run ok st).1.size < 2 ^ 31 := by
  cases st with
  | insertTarget q =>
      obtain ⟨rfl, hlt⟩ := hok
      cases ht : db.targets with
      | none => simp [run, size, insertTarget, ht]
      | some t => simpa [run, size, insertTarget_true _ ht, ht] using hlt
  | insertClock q id => simpa [run, size] using hsize
  | _ => simpa [run] using hsize

end Statements

/-- The rows of `clocks` joined to `targets`: names and columns. -/
def entries (db : Database) : List (Text × ℤ × ℤ) :=
  db.clockRows.flatMap fun row =>
    (db.targetRows.filter fun r => r.id = row.target).map fun r => (r.value, row.s, row.ns)

/-- Every row of `clocks` has the first id of the name of its call. -/
def Referred (db : Database) : Prop :=
  ∀ row ∈ db.clockRows, db.firstId row.call = some row.target

section Entries

variable {db : Database}

/-- With distinct ids, a row is found by its own. -/
lemma filter_id {rows : List (Row Text)} {r : Row Text} (hids : (rows.map Row.id).Nodup)
    (hr : r ∈ rows) : (rows.filter fun r' => r'.id = r.id) = [r] := by
  induction rows with
  | nil => cases hr
  | cons r' rows ih =>
      rw [List.map_cons, List.nodup_cons] at hids
      rcases List.mem_cons.mp hr with rfl | hr
      · have hnone : (rows.filter fun r' => r'.id = r.id) = [] :=
          List.filter_eq_nil_iff.mpr fun r' hr' hid =>
            hids.1 (List.mem_map.mpr ⟨r', hr', of_decide_eq_true hid⟩)
        simp [hnone]
      · have hne : r'.id ≠ r.id := fun hid => hids.1 (List.mem_map.mpr ⟨r, hr, hid.symm⟩)
        rw [List.filter_cons_of_neg (by simpa using hne), ih hids.2 hr]

/-- The join gives every row the name of its call. -/
lemma Referred.entries_eq (h : db.Referred) :
    db.entries = db.clockRows.map ClockRow.entry := by
  rw [entries, List.map_eq_flatMap]
  refine List.flatMap_congr fun row hrow => ?_
  obtain ⟨r, hr, hid, hvalue⟩ := firstId_row (h row hrow)
  rw [← hid, filter_id (Logtime.nodup_ids db) hr, List.map_singleton, hvalue]
  rfl

end Entries

end Database

/-! ### Any number of processes -/

namespace Shared

/-- What a process has recorded and not yet stored. -/
def waiting (P : Option Process) : Multiset (Text × ℤ × ℤ) :=
  (((P.bind Process.next).bind Statement.query).map Query.entry).elim 0 fun x => {x}

/-- What all processes have. -/
def pending (s : Shared) : Multiset (Text × ℤ × ℤ) := (s.procs.map waiting).sum

/-- What an event records: the call of `execute_insert_query` that it begins. -/
def recorded (s : Shared) : Event → Multiset (Text × ℤ × ℤ)
  | .setRecord p name now =>
      ((s.process p).bind fun P => logtimeSetRecord P.clocks name now).elim 0
        fun time => {Query.entry ⟨name, time⟩}
  | _ => 0

/-- What an event loses: a process that stops in a query, an insertion that fails. -/
def lost (s : Shared) : Event → Multiset (Text × ℤ × ℤ)
  | .stop p => waiting (s.process p)
  | .statement p ok => (s.next p).elim 0 fun st => s.db.dropped ok st
  | _ => 0

/-- A statement that runs is reliable. -/
def Reliable (s : Shared) : Event → Prop
  | .statement p ok => ∀ st ∈ s.next p, s.db.Reliable ok st
  | _ => True

instance (db : Database) (ok : Bool) (st : Statement) : Decidable (db.Reliable ok st) :=
  match st with
  | .createClocks | .insertClock _ _ => isTrue trivial
  | .insertTarget _ => inferInstanceAs (Decidable (ok = true ∧ db.size + 1 < 2 ^ 31))
  | .createTargets | .lookup _ | .lookupAgain _ => inferInstanceAs (Decidable (ok = true))

instance (s : Shared) (e : Event) : Decidable (Reliable s e) :=
  match e with
  | .statement p ok => inferInstanceAs (Decidable (∀ st ∈ s.next p, s.db.Reliable ok st))
  | .init _ | .setStart _ _ _ | .setRecord _ _ _ | .stop _ => isTrue trivial

/-- What is kept: processes are ready for their statements, rows of `clocks` have the
first ids. -/
structure Kept (s : Shared) : Prop where
  size : s.db.size < 2 ^ 31
  ready : ∀ P, some P ∈ s.procs → s.db.Ready P.next
  referred : s.db.Referred

section Steps

variable {s : Shared} {p : ℕ} {P : Process}

lemma getElem_of_process (h : s.process p = some P) : s.procs[p]? = some (some P) := by
  simpa [process, Option.join_eq_some_iff] using h

/-- The process that a guard speaks of. -/
lemma Free.process (h : s.Free p) : ∃ clocks, s.process p = some ⟨clocks, none⟩ := by
  obtain ⟨⟨clocks, next⟩, hP, hnext⟩ := Option.map_eq_some_iff.mp h
  exact ⟨clocks, by rw [hP, ← hnext]⟩

lemma process_of_next (h : (s.next p).isSome = true) :
    ∃ clocks st, s.process p = some ⟨clocks, some st⟩ ∧ s.next p = some st := by
  obtain ⟨st, hst⟩ := Option.isSome_iff_exists.mp h
  obtain ⟨⟨clocks, next⟩, hP, hnext⟩ := Option.bind_eq_some_iff.mp hst
  exact ⟨clocks, st, by rw [hP, ← hnext], hst⟩

/-- A process that is put in its place leaves the others. -/
lemma mem_put {P' : Option Process} (h : some P ∈ (s.put p P').procs) :
    some P ∈ s.procs ∨ P' = some P := by
  rcases List.mem_or_eq_of_mem_set h with hold | hnew
  · exact .inl hold
  · exact .inr hnew.symm

lemma pending_put {a b : Option Process} (h : s.procs[p]? = some a) :
    (s.put p b).pending + waiting a = s.pending + waiting b := by
  obtain ⟨procs, db⟩ := s
  simp only [pending, put] at h ⊢
  induction procs generalizing p with
  | nil => simp at h
  | cons c procs ih =>
      cases p with
      | zero =>
          obtain rfl : c = a := by simpa using h
          simp only [List.set_cons_zero, List.map_cons, List.sum_cons]
          abel
      | succ p =>
          have hrest := ih (by simpa using h)
          simp only [List.set_cons_succ, List.map_cons, List.sum_cons, add_assoc, hrest]

/-- A step that leaves the database keeps what is kept, if it leaves a process that is
ready. -/
lemma Kept.put (h : s.Kept) {P' : Option Process} (hready : ∀ P, P' = some P → s.db.Ready P.next) :
    (s.put p P').Kept := by
  refine ⟨h.size, fun P hP => ?_, h.referred⟩
  rcases mem_put hP with hold | hnew
  · exact h.ready P hold
  · exact hready P hnew

lemma Kept.process (h : s.Kept) (hP : s.process p = some P) : s.db.Ready P.next :=
  h.ready P (List.mem_of_getElem? (getElem_of_process hP))

lemma act_statement {clocks : List NamedClock} {st : Statement}
    (hP : s.process p = some ⟨clocks, some st⟩) (ok : Bool) :
    act s (.statement p ok)
      = { s.put p (some ⟨clocks, (s.db.run ok st).2⟩) with db := (s.db.run ok st).1 } := by
  simp only [act, hP]

/-- A reliable statement keeps it. -/
lemma Kept.statement (h : s.Kept) {clocks : List NamedClock} {st : Statement} {ok : Bool}
    (hP : s.process p = some ⟨clocks, some st⟩) (hok : s.db.Reliable ok st) :
    (act s (.statement p ok)).Kept := by
  have hready := h.process hP
  have hgrows := Database.grows_run s.db ok st
  rw [act_statement hP]
  refine ⟨Database.size_run h.size hok, fun P hmem => ?_, fun row hrow => ?_⟩
  · rcases mem_put hmem with hold | hnew
    · exact hgrows.ready (h.ready P hold)
    · rw [← Option.some.inj hnew]
      exact Database.ready_run h.size hready hok
  · simp only [Database.clockRows_run] at hrow
    rcases List.mem_append.mp hrow with hold | hnew
    · exact hgrows.firstId (h.referred row hold)
    · cases st with
      | insertClock q id =>
          rw [Database.added] at hnew
          split_ifs at hnew
          · rw [List.mem_singleton.mp hnew]
            exact hgrows.firstId hready
          · cases hnew
      | _ => cases hnew

lemma Kept.step (s : Shared) (e : Event) (h : s.Kept) (hg : (machine.restrict Reliable).guard s e) :
    (act s e).Kept := by
  obtain ⟨hguard, hok⟩ := hg
  cases e with
  | init p =>
      refine h.put fun P hP => ?_
      rw [← Option.some.inj hP]
      trivial
  | setStart p name now =>
      obtain ⟨clocks, hP⟩ := Free.process hguard
      have hready := h.process hP
      refine h.put fun P hnew => ?_
      rw [hP, Option.map_some, Option.some.injEq] at hnew
      rw [← hnew]
      exact hready
  | setRecord p name now =>
      obtain ⟨clocks, hP⟩ := Free.process hguard
      have hready := h.process hP
      refine h.put fun P hnew => ?_
      rw [hP, Option.map_some, Option.some.injEq] at hnew
      rw [← hnew]
      cases logtimeSetRecord clocks name now <;> exact hready
  | statement p ok =>
      obtain ⟨clocks, st, hP, hst⟩ := process_of_next hguard
      exact h.statement hP (hok st hst)
  | stop p => exact h.put fun P hP => by cases hP

/-! ### Exactly once -/

/-- What is stored, by the names of the calls, and what is still to be. -/
def content (s : Shared) : Multiset (Text × ℤ × ℤ) :=
  s.db.clockRows.map ClockRow.entry + s.pending

lemma content_put {a b : Option Process} (h : s.procs[p]? = some a) :
    (s.put p b).content + waiting a = s.content + waiting b := by
  rw [content, add_assoc, pending_put h, ← add_assoc]
  rfl

/-- A statement leaves what its process has recorded, stores it or drops it. -/
lemma waiting_run (db : Database) (clocks : List NamedClock) (ok : Bool) (st : Statement) :
    waiting (some ⟨clocks, some st⟩) = waiting (some ⟨clocks, (db.run ok st).2⟩)
      + ((db.added ok st).map ClockRow.entry + db.dropped ok st) := by
  cases st with
  | lookup q =>
      simp only [Database.run]
      split_ifs <;> rfl
  | insertClock q id =>
      simp only [Database.added, Database.dropped]
      split_ifs <;> rfl
  | _ => rfl

lemma content_statement {clocks : List NamedClock} {st : Statement}
    (hP : s.process p = some ⟨clocks, some st⟩) (ok : Bool) :
    (act s (.statement p ok)).content + lost s (.statement p ok) = s.content := by
  have hnext : s.next p = some st := by simp [next, hP]
  have hput := pending_put (b := some ⟨clocks, (s.db.run ok st).2⟩) (getElem_of_process hP)
  have hpending : (s.put p (some ⟨clocks, (s.db.run ok st).2⟩)).pending
      + ((s.db.added ok st).map ClockRow.entry + s.db.dropped ok st) = s.pending := by
    rw [waiting_run s.db clocks ok st, add_left_comm, add_comm s.pending] at hput
    exact add_left_cancel hput
  have hrows : ((s.db.run ok st).1.clockRows.map ClockRow.entry : Multiset (Text × ℤ × ℤ))
      = s.db.clockRows.map ClockRow.entry + (s.db.added ok st).map ClockRow.entry := by
    rw [Database.clockRows_run, List.map_append, Multiset.coe_add]
  have hlost : lost s (.statement p ok) = s.db.dropped ok st := by rw [lost, hnext]; rfl
  rw [hlost, act_statement hP]
  calc _ = ((s.db.run ok st).1.clockRows.map ClockRow.entry : Multiset (Text × ℤ × ℤ))
        + (s.put p (some ⟨clocks, (s.db.run ok st).2⟩)).pending + s.db.dropped ok st := rfl
    _ = s.db.clockRows.map ClockRow.entry
        + ((s.put p (some ⟨clocks, (s.db.run ok st).2⟩)).pending
          + ((s.db.added ok st).map ClockRow.entry + s.db.dropped ok st)) := by
        rw [hrows]
        abel
    _ = s.content := by rw [hpending, content]

/-- Every step changes the content by what it records and loses. -/
lemma content_step (s : Shared) (e : Event) (hg : guard s e) :
    s.content + recorded s e = (act s e).content + lost s e := by
  cases e with
  | init p =>
      have hput := content_put (b := some ⟨[], some .createTargets⟩) hg
      exact hput.symm
  | setStart p name now =>
      obtain ⟨clocks, hP⟩ := Free.process hg
      have hput := content_put (b := some ⟨logtimeSetStart clocks name now, none⟩)
        (getElem_of_process hP)
      simp only [act, hP]
      exact hput.symm
  | setRecord p name now =>
      obtain ⟨clocks, hP⟩ := Free.process hg
      have hput := content_put (b := some ⟨clocks, (logtimeSetRecord clocks name now).map
        fun time => .lookup ⟨name, time⟩⟩) (getElem_of_process hP)
      simp only [act, recorded, hP, Option.bind_some, Option.map_some]
      cases htime : logtimeSetRecord clocks name now <;> rw [htime] at hput <;> exact hput.symm
  | statement p ok =>
      obtain ⟨clocks, st, hP, -⟩ := process_of_next hg
      exact (add_zero s.content).trans (content_statement hP ok).symm
  | stop p =>
      obtain ⟨P, hP⟩ := Option.isSome_iff_exists.mp hg
      have hput := content_put (b := none) (getElem_of_process hP)
      simp only [act, lost, hP]
      exact hput.symm

end Steps

variable {n : ℕ} {es : List Event}

lemma kept_start (n : ℕ) : (start n).Kept := by
  refine ⟨by simp [start, Database.size], fun P hP => ?_, ?_⟩
  · cases List.eq_of_mem_replicate hP
  · simp [start, Database.Referred, Database.clockRows]

lemma content_start (n : ℕ) : (start n).content = 0 := by
  simp [start, content, Database.clockRows, pending, waiting]

/-- In every run of any number of processes, in turns at every statement and stopped
anywhere, every recorded interval is stored once under its name, is still to be stored,
or was lost: with its process, or to an insertion that failed. -/
theorem exactly_once (h : (machine.restrict Reliable).Allowed (start n) es) :
    let s := machine.exec (start n) es
    machine.total recorded (start n) es
      = s.db.entries + s.pending + machine.total lost (start n) es := by
  intro s
  have hkept : s.Kept := h.induction Kept.step (kept_start n)
  have hbalance := h.of_restrict.balance content_step
  rw [content_start, zero_add] at hbalance
  rw [hkept.referred.entries_eq]
  exact hbalance

/-- In such a run, a row of `clocks` that is joined to a name has the id that
`get_target_id` finds for it, even where the name is stored twice. -/
theorem found_first (h : (machine.restrict Reliable).Allowed (start n) es) :
    let db := (machine.exec (start n) es).db
    ∀ row ∈ db.clockRows, ∃ r ∈ db.targetRows, r.id = row.target ∧
      db.getTargetId r.value true = row.target := by
  intro db row hrow
  have hkept : (machine.exec (start n) es).Kept := h.induction Kept.step (kept_start n)
  have hfirst := hkept.referred row hrow
  obtain ⟨r, hr, hid, hvalue⟩ := Database.firstId_row hfirst
  refine ⟨r, hr, hid, ?_⟩
  rw [hvalue]
  exact (Database.getTargetId_firstId hkept.size hfirst).1

/-- Two processes that record an interval for a name at the same time and both find it
missing; the first stops before it has stored its own. -/
def twoAtOnce : List Event :=
  [.init 0, .statement 0 true, .statement 0 true, .init 1, .statement 1 true, .statement 1 true,
    .setStart 0 (bytes "pi") .epoch, .setStart 1 (bytes "pi") .epoch,
    .setRecord 0 (bytes "pi") (.ofNanos 1000), .setRecord 1 (bytes "pi") (.ofNanos 2000),
    .statement 0 true, .statement 1 true, .statement 0 true, .statement 1 true,
    .statement 0 true, .statement 1 true, .statement 1 true, .stop 0]

lemma twoAtOnce_allowed : (machine.restrict Reliable).Allowed (start 2) twoAtOnce := by decide

theorem exactly_once_twoAtOnce :
    let s := machine.exec (start 2) twoAtOnce
    machine.total recorded (start 2) twoAtOnce
      = s.db.entries + s.pending + machine.total lost (start 2) twoAtOnce :=
  exactly_once twoAtOnce_allowed

theorem found_first_twoAtOnce :
    let db := (machine.exec (start 2) twoAtOnce).db
    ∀ row ∈ db.clockRows, ∃ r ∈ db.targetRows, r.id = row.target ∧
      db.getTargetId r.value true = row.target :=
  found_first twoAtOnce_allowed

/-! ### One process at a time -/

/-- No process begins while another runs, and ids stay an `int`. -/
def Alone (s : Shared) : Event → Prop
  | .init _ => ∀ P ∈ s.procs, P = none
  | .statement _ _ => s.db.size + 1 < 2 ^ 31
  | _ => True

instance (s : Shared) (e : Event) : Decidable (Alone s e) :=
  match e with
  | .init _ => inferInstanceAs (Decidable (∀ P ∈ s.procs, P = none))
  | .statement _ _ => inferInstanceAs (Decidable (s.db.size + 1 < 2 ^ 31))
  | .setStart _ _ _ | .setRecord _ _ _ | .stop _ => isTrue trivial

/-- What is kept then: one process runs, and a name that it is about to insert is
missing. -/
structure Single (s : Shared) : Prop where
  unique : ∀ {p p'}, (s.process p).isSome = true → (s.process p').isSome = true → p = p'
  values : (s.db.targetRows.map Row.value).Nodup
  missing : ∀ {p q}, s.next p = some (.insertTarget q) →
    q.name ∉ s.db.targetRows.map Row.value

section Single

variable {s : Shared} {p p' : ℕ} {P' : Option Process}

lemma process_put : (s.put p P').process p'
    = if p = p' ∧ p < s.procs.length then P' else s.process p' := by
  simp only [process, put, List.getElem?_set]
  by_cases hp : p = p'
  · subst hp
    by_cases hlt : p < s.procs.length
    · simp [hlt]
    · simp [hlt]
  · simp [hp]

lemma lt_of_process (h : (s.process p).isSome = true) : p < s.procs.length := by
  obtain ⟨P, hP⟩ := Option.isSome_iff_exists.mp h
  exact (List.getElem?_eq_some_iff.mp (getElem_of_process hP)).1

/-- A process is put where no other runs, or taken away. -/
lemma Single.put (h : s.Single) {db : Database} (hvalues : (db.targetRows.map Row.value).Nodup)
    (halone : P'.isSome = true → ∀ p', (s.process p').isSome = true → p' = p)
    (hmissing : ∀ q, P'.bind Process.next = some (.insertTarget q) →
      q.name ∉ db.targetRows.map Row.value)
    (hsame : P' = none → db = s.db) : Single { s.put p P' with db := db } := by
  have hprocess : ∀ p', (Shared.mk (s.put p P').procs db).process p' = (s.put p P').process p' :=
    fun _ => rfl
  refine ⟨fun {p₁ p₂} h₁ h₂ => ?_, hvalues, fun {p' q} hnext => ?_⟩
  · rw [hprocess, process_put] at h₁ h₂
    split_ifs at h₁ h₂ with hp₁ hp₂ hp₂
    · exact hp₁.1.symm.trans hp₂.1
    · exact hp₁.1.symm.trans (halone h₁ p₂ h₂).symm
    · exact (halone h₂ p₁ h₁).trans hp₂.1
    · exact h.unique h₁ h₂
  · rw [Shared.next, hprocess, process_put] at hnext
    split_ifs at hnext with hp
    · exact hmissing q hnext
    · have halive : (s.process p').isSome = true := by
        obtain ⟨P, hP, -⟩ := Option.bind_eq_some_iff.mp hnext
        rw [hP, Option.isSome_some]
      cases P' with
      | none => exact hsame rfl ▸ h.missing hnext
      | some P =>
          obtain rfl : p' = p := halone rfl p' halive
          exact absurd ⟨rfl, lt_of_process halive⟩ hp

/-- What a name that was not found is: missing. -/
lemma missing_of_getTargetId {db : Database} (hsize : db.size + 1 < 2 ^ 31) {name : Text} {ok : Bool}
    (hid : db.getTargetId name ok = -1) : name ∉ db.targetRows.map Row.value := by
  intro hmem
  obtain ⟨r, hr, hvalue⟩ := List.mem_map.mp hmem
  cases ht : db.targets with
  | none => simp [Database.targetRows, ht] at hr
  | some t =>
      cases ok with
      | false => simp [Database.getTargetId_failed] at hid
      | true =>
          cases hselect : t.select name with
          | none =>
              rw [Database.targetRows, ht] at hr
              exact Table.select_eq_none.mp hselect r hr hvalue
          | some r' =>
              have hfirst : db.firstId name = some r'.id :=
                Database.firstId_eq_some.mpr ⟨t, ht, r', hselect, rfl⟩
              obtain ⟨hfound, hne⟩ := Database.getTargetId_firstId (by omega) hfirst
              exact hne (hfound.symm.trans hid)

/-- A statement of the process that runs stores no name twice. -/
lemma Single.statement (h : s.Single) {clocks : List NamedClock} {st : Statement}
    (hP : s.process p = some ⟨clocks, some st⟩) (hsize : s.db.size + 1 < 2 ^ 31) (ok : Bool) :
    (act s (.statement p ok)).Single := by
  have halive : (s.process p).isSome = true := by rw [hP, Option.isSome_some]
  have halone : ∀ p', (s.process p').isSome = true → p' = p := fun p' hp' => h.unique hp' halive
  rw [act_statement hP]
  refine h.put ?_ (fun _ => halone) (fun q hnext => ?_) (fun hnone => by cases hnone)
  · have hmissing := fun q (hst : st = .insertTarget q) =>
      h.missing (p := p) (q := q) (by rw [next, hP, ← hst]; rfl)
    -- only an insertion adds a name, and the lookup before it found none
    cases st with
    | createTargets =>
        have hvalues := h.values
        cases ok with
        | false => exact hvalues
        | true =>
            cases ht : s.db.targets with
            | none => simp [Database.run, Database.createTargets, Database.targetRows, ht, Table.empty]
            | some t =>
                rw [Database.targetRows, ht] at hvalues
                simpa [Database.run, Database.createTargets, Database.targetRows, ht] using hvalues
    | createClocks => cases ok <;> exact h.values
    | lookup q => exact h.values
    | insertTarget q =>
        rcases Database.insertTarget_targets s.db q.name ok with hsame | ⟨t, ht, hnew⟩
        · simpa only [Database.run, Database.targetRows, hsame] using h.values
        · have hrows : s.db.targetRows = t.rows := by
            rw [Database.targetRows, Option.mem_def.mp ht]; rfl
          have habsent := hmissing q rfl
          have hvalues := h.values
          rw [hrows] at habsent hvalues
          simpa [Database.run, Database.targetRows, hnew] using hvalues.concat habsent
    | lookupAgain q => exact h.values
    | insertClock q id =>
        have htargets : (s.db.insertClock (q.row id) ok).targets = s.db.targets :=
          Database.targets_insertClock ..
        simpa only [Database.run, Database.targetRows, htargets] using h.values
  -- the next statement is an insertion only after a lookup without a row
  · cases st with
    | lookup q' =>
        simp only [Database.run, Option.bind_some, Option.some.injEq] at hnext ⊢
        split_ifs at hnext with hid
        · obtain rfl : q' = q := Statement.insertTarget.inj hnext
          exact missing_of_getTargetId hsize hid
    | _ => simp [Database.run] at hnext

lemma Single.step (s : Shared) (e : Event) (h : s.Single)
    (hg : (machine.restrict Alone).guard s e) : (act s e).Single := by
  obtain ⟨hguard, halone⟩ := hg
  cases e with
  | init p =>
      refine h.put h.values (fun _ p' hp' => ?_) (fun q hnext => by cases hnext) fun _ => rfl
      obtain ⟨P, hP⟩ := Option.isSome_iff_exists.mp hp'
      cases halone _ (List.mem_of_getElem? (getElem_of_process hP))
  | setStart p name now =>
      obtain ⟨clocks, hP⟩ := Free.process hguard
      have hp : (s.process p).isSome = true := by rw [hP, Option.isSome_some]
      refine h.put h.values (fun _ p' hp' => h.unique hp' hp) (fun q hnext => ?_) fun _ => rfl
      rw [hP] at hnext
      cases hnext
  | setRecord p name now =>
      obtain ⟨clocks, hP⟩ := Free.process hguard
      have hp : (s.process p).isSome = true := by rw [hP, Option.isSome_some]
      refine h.put h.values (fun _ p' hp' => h.unique hp' hp) (fun q hnext => ?_) fun _ => rfl
      rw [hP] at hnext
      cases htime : logtimeSetRecord clocks name now <;> simp [htime] at hnext
  | statement p ok =>
      obtain ⟨clocks, st, hP, -⟩ := process_of_next hguard
      exact h.statement hP halone ok
  | stop p =>
      exact h.put h.values (fun hnone => by cases hnone) (fun q hnext => by cases hnext) fun _ => rfl

end Single

/-- Where one process runs at a time, whichever of its statements fail and wherever it
stops, no name is stored twice. -/
theorem names_unique {n : ℕ} {es : List Event}
    (h : (machine.restrict Alone).Allowed (start n) es) :
    ((machine.exec (start n) es).db.targetRows.map Row.value).Nodup := by
  have hstart : (start n).Single := by
    have hnone : ∀ p, (start n).process p = none := fun p => by
      simp only [process, start, List.getElem?_replicate]
      split_ifs <;> rfl
    refine ⟨fun {p p'} hp => ?_, by simp [start, Database.targetRows], fun {p q} hnext => ?_⟩
    · simp [hnone] at hp
    · simp [next, hnone] at hnext
  exact (h.induction Single.step hstart).values

/-- A process that stops when it has inserted a name, and another that finds it. -/
def oneAfterTheOther : List Event :=
  [.init 0, .statement 0 true, .statement 0 true, .setStart 0 (bytes "pi") .epoch,
    .setRecord 0 (bytes "pi") (.ofNanos 1000), .statement 0 true, .statement 0 true, .stop 0,
    .init 0, .statement 0 true, .statement 0 true, .setStart 0 (bytes "pi") .epoch,
    .setRecord 0 (bytes "pi") (.ofNanos 2000), .statement 0 true, .statement 0 true]

theorem names_unique_oneAfterTheOther :
    ((machine.exec (start 1) oneAfterTheOther).db.targetRows.map Row.value).Nodup :=
  names_unique (by decide)

end Shared

end Hearthbeat
