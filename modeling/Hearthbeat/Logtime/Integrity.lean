import Hearthbeat.Logtime.Database

/-!
Referential integrity of the latency database, whatever statements fail.

* `Integrity`: every row of `clocks` refers to the row of `targets` whose name is
  that of the call which inserted it.
* `Clean`: a call that adds a row to `clocks` has found or made the row of its name.
* `integrity_iff`: a run keeps the integrity exactly if its calls are clean. A
  lookup that fails leaves the id 0, which no row has (`dangling_row`).
-/

namespace Hearthbeat.Logtime

/-- Every row of `clocks` has the id of a row of `targets` with the name of its
call. -/
def Integrity (db : Database) : Prop := ∀ row ∈ db.clockRows, db.Resolves row.target row.call

/-- The condition on a step: where it adds a row to `clocks`, the statements before
have found or made the row of the name, with an id that is an `int`. -/
def Clean (s : Logtime) : Event → Prop
  | .setRecord name now o =>
      (logtimeSetRecord s.clocks name now).isSome = true → o.insertClock = true →
        s.db.clocks.isSome = true → s.db.Sound name o
  | _ => True

/-- The ids in `clocks` are not above those in `targets`. -/
def Bounded (db : Database) : Prop := ∀ row ∈ db.clockRows, row.target ≤ db.size

section Query

variable {db : Database} {name : Text} {time : Timespec} {o : Outcomes}

lemma executeInsertQuery_targets :
    (db.executeInsertQuery name time o).targets = (db.resolve name o).1.targets := by
  simp [Database.executeInsertQuery]

lemma executeInsertQuery_clockRows :
    (db.executeInsertQuery name time o).clockRows
      = db.clockRows ++ if o.insertClock = true ∧ db.clocks.isSome = true then
          [⟨(db.resolve name o).2, toInt time.tvSec, toInt time.tvNsec, name⟩] else [] := by
  have hclocks := db.resolve_clocks name o
  have hrows : (db.resolve name o).1.clockRows = db.clockRows := by
    rw [Database.clockRows, hclocks, Database.clockRows]
  simp only [Database.executeInsertQuery, Database.clockRows_insertClock, hrows, hclocks]

/-- What was there keeps its meaning. -/
lemma resolves_executeInsertQuery {id : ℤ} {other : Text} (hid : id ≤ db.size) :
    (db.executeInsertQuery name time o).Resolves id other ↔ db.Resolves id other := by
  have htargets : (db.executeInsertQuery name time o).targets = (db.resolve name o).1.targets :=
    executeInsertQuery_targets
  simp only [Database.Resolves, htargets]
  simp only [Database.resolve]
  split_ifs
  · exact Database.resolves_insertTarget hid
  · exact Iff.rfl

lemma Bounded.query (h : Bounded db) : Bounded (db.executeInsertQuery name time o) := by
  have hsize : (db.executeInsertQuery name time o).size = (db.resolve name o).1.size := by
    rw [Database.size, executeInsertQuery_targets, Database.size]
  intro row hrow
  rw [executeInsertQuery_clockRows] at hrow
  rw [hsize]
  rcases List.mem_append.mp hrow with hold | hnew
  · exact (h row hold).trans (db.size_resolve_le name o)
  · split_ifs at hnew
    · rw [List.mem_singleton] at hnew
      exact hnew ▸ db.resolve_le name o
    · cases hnew

/-- A query keeps the integrity exactly if the row it adds, if any, is sound. -/
lemma integrity_query (h : Bounded db) :
    Integrity (db.executeInsertQuery name time o) ↔ Integrity db ∧
      (o.insertClock = true → db.clocks.isSome = true → db.Sound name o) := by
  have hold : (∀ row ∈ db.clockRows,
        (db.executeInsertQuery name time o).Resolves row.target row.call) ↔ Integrity db :=
    forall₂_congr fun row hrow => resolves_executeInsertQuery (h row hrow)
  have hnew : (db.executeInsertQuery name time o).Resolves (db.resolve name o).2 name ↔
      db.Sound name o := by
    rw [Database.Resolves, executeInsertQuery_targets]
    exact Database.resolves_iff
  rw [Integrity, executeInsertQuery_clockRows]
  split_ifs with hinsert
  · simp only [List.forall_mem_append, List.forall_mem_singleton, hold, hnew, hinsert,
      forall_const]
  · simp only [List.append_nil, hold]
    exact ⟨fun hint => ⟨hint, fun hok hsome => absurd ⟨hok, hsome⟩ hinsert⟩, fun hint => hint.1⟩

end Query

section Steps

variable {s : Logtime} {e : Event}

lemma Bounded.step (s : Logtime) (e : Event) (h : Bounded s.db) : Bounded (act s e).db := by
  cases e with
  | init targets clocks => simpa [Bounded, act] using h
  | setStart name now => exact h
  | setRecord name now o =>
      simp only [act]
      split
      · exact h
      · exact h.query

lemma integrity_step (s : Logtime) (e : Event) (h : Bounded s.db) :
    Integrity (act s e).db ↔ Integrity s.db ∧ Clean s e := by
  cases e with
  | init targets clocks =>
      simp [Integrity, Clean, act, Database.resolves_createClocks,
        Database.resolves_createTargets]
  | setStart name now => simp [act, Clean]
  | setRecord name now o =>
      cases hrecord : logtimeSetRecord s.clocks name now with
      | none => simp [act, Clean, hrecord]
      | some interval =>
          simp only [act, Clean, hrecord, integrity_query h, Option.isSome_some, true_implies]

end Steps

/-- A run, of any number of processes, keeps the integrity of the database exactly
if all its calls are clean. -/
theorem integrity_iff (es : List Event) :
    Integrity (machine.exec start es).db ↔ (machine.restrict Clean).Allowed start es := by
  have hrun : machine.Allowed start es := Machine.allowed_of_forall (fun _ _ => trivial) start es
  have hbounded : Bounded start.db := by simp [Bounded, start, Database.clockRows]
  have hstart : Integrity start.db := by simp [Integrity, start, Database.clockRows]
  have hiff := hrun.iff_restrict (P := fun s => Integrity s.db)
    (fun s e h _ => Bounded.step s e h) (fun s e h _ => integrity_step s e h) hbounded
  exact hiff.trans (and_iff_right hstart)

/-- A call whose first lookup fails, because the database is busy. -/
def busyLookup : List Event :=
  [.init true true, .setStart (bytes "pi") .epoch,
    .setRecord (bytes "pi") (.ofNanos 1000) ⟨false, true, true, true⟩]

/-- Its row refers to the id 0, and `targets` is empty. -/
theorem dangling_row :
    (machine.exec start busyLookup).db.clockRows = [⟨0, 0, 1000, bytes "pi"⟩] ∧
      ¬ Integrity (machine.exec start busyLookup).db := by
  have hrows : (machine.exec start busyLookup).db.clockRows = [⟨0, 0, 1000, bytes "pi"⟩] := by
    decide
  refine ⟨hrows, fun h => ?_⟩
  exact Database.not_resolves (by norm_num) (h ⟨0, 0, 1000, bytes "pi"⟩ (by rw [hrows]; simp))

end Hearthbeat.Logtime
