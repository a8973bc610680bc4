import Hearthbeat.Logtime.Integrity
import Hearthbeat.Text.Decimal

/-!
The latency log as one history for every name, when all statements succeed.

* `history`: the intervals that the calls of any number of processes, one after
  the other, record for a name. Calls for other names do not matter to it.
* `Faithful`: the database holds exactly the histories.
* `Tidy`: the invariant, kept while every id is an `int`; `tidy_calls` and
  `tidy_lifetimes` are its run lemmas.
* `faithful_iff`: the database is faithful exactly if fewer than 2^31 names have an
  interval. The rows of the name with the id 2^31 are lost (`too_many_names`).
-/

namespace Hearthbeat

/-- The rows of `targets`. -/
def Database.targetRows (db : Database) : List (Row Text) := db.targets.elim [] Table.rows

/-- The rows of `clocks` joined to a name, in the order of their insertion. -/
def Database.joined (db : Database) (name : Text) : List ClockRow :=
  db.clockRows.filter fun row =>
    db.targetRows.any fun r => decide (r.id = row.target) && decide (r.value = name)

namespace Logtime

/-- A start or a record of a clock, with the time that is read. -/
inductive Call where
  | start (name : Text) (now : Reading)
  | record (name : Text) (now : Reading)

namespace Call

/-- The name of the clock. -/
def name : Call → Text
  | start name _ => name
  | record name _ => name

/-- The call where every statement succeeds. -/
def event : Call → Event
  | start name now => .setStart name now
  | record name now => .setRecord name now .all

end Call

/-- A process, from `logtime_init` to its end. -/
def lifetime (calls : List Call) : List Event := .init true true :: calls.map Call.event

/-- Processes, one after the other. -/
def lifetimes (ps : List (List Call)) : List Event := ps.flatMap lifetime

/-- The intervals that calls record for a name, whose last start is known. -/
def intervals (name : Text) : Option Reading → List Call → List Timespec
  | _, [] => []
  | last, .start n now :: calls => intervals name (if n = name then some now else last) calls
  | last, .record n now :: calls =>
      (if n = name then
        (last.map fun d => timespecDiff d.toTimespec now.toTimespec).toList else [])
        ++ intervals name last calls

/-- The intervals recorded for a name; a process knows nothing of the starts before
it. -/
def history (ps : List (List Call)) (name : Text) : List Timespec :=
  ps.flatMap (intervals name none)

/-- The names for which an interval was recorded. -/
def recordedNames (ps : List (List Call)) : Finset Text :=
  {name ∈ (ps.flatten.map Call.name).toFinset | history ps name ≠ []}

/-- The database holds the history `h` of every name and nothing else. -/
structure Faithful (db : Database) (h : Text → List Timespec) : Prop where
  names : ∀ name, (db.targetRows.map Row.value).count name = if h name = [] then 0 else 1
  ids : (db.targetRows.map Row.id).Nodup
  joined : ∀ name, (db.joined name).map (fun row => (row.s, row.ns))
    = (h name).map fun t => (toInt t.tvSec, t.tvNsec)
  orphans : ∀ row ∈ db.clockRows, ∃ r ∈ db.targetRows, r.id = row.target

/-- What is kept of a database with the history `h`: one row for every name that has
an interval, and the rows of `clocks` under the names of their calls. -/
structure Tidy (db : Database) (h : Text → List Timespec) : Prop where
  values : (db.targetRows.map Row.value).Nodup
  named : ∀ name, name ∈ db.targetRows.map Row.value ↔ h name ≠ []
  integrity : Integrity db
  bounded : Bounded db
  calls : ∀ name,
    (db.clockRows.filter fun row => row.call = name).map (fun row => (row.s, row.ns))
      = (h name).map fun t => (toInt t.tvSec, t.tvNsec)

section Rows

variable {db : Database} {h : Text → List Timespec}

lemma resolves_iff_mem {id : ℤ} {name : Text} :
    db.Resolves id name ↔ ∃ r ∈ db.targetRows, r.id = id ∧ r.value = name := by
  cases ht : db.targets <;> simp [Database.Resolves, Database.targetRows, ht]

lemma nodup_ids (db : Database) : (db.targetRows.map Row.id).Nodup := by
  cases ht : db.targets with
  | none => simp [Database.targetRows, ht]
  | some t => simpa [Database.targetRows, ht] using t.nodup_ids

/-- Under the ids of the table and the integrity, the join sees the names of the
calls. -/
lemma Tidy.joined (htidy : Tidy db h) (name : Text) :
    db.joined name = db.clockRows.filter fun row => row.call = name := by
  refine List.filter_congr fun row hrow => ?_
  obtain ⟨r, hr, hid, hcall⟩ := resolves_iff_mem.mp (htidy.integrity row hrow)
  rw [Bool.eq_iff_iff]
  simp only [List.any_eq_true, Bool.and_eq_true, decide_eq_true_eq]
  constructor
  · rintro ⟨r', hr', hid', rfl⟩
    rw [← hcall, List.inj_on_of_nodup_map (nodup_ids db) hr hr' (hid.trans hid'.symm)]
  · rintro rfl
    exact ⟨r, hr, hid, hcall⟩

lemma Tidy.faithful (htidy : Tidy db h) : Faithful db h where
  names name := by
    rw [htidy.values.count]
    by_cases hname : h name = [] <;> simp [htidy.named, hname]
  ids := nodup_ids db
  joined name := by rw [htidy.joined, htidy.calls]
  orphans row hrow := by
    obtain ⟨r, hr, hid, -⟩ := resolves_iff_mem.mp (htidy.integrity row hrow)
    exact ⟨r, hr, hid⟩

end Rows

/-! ### A database that is tidy stays so -/

/-- The tables have been created. -/
def Created (db : Database) : Prop := db.targets.isSome = true ∧ db.clocks.isSome = true

/-- The history after one more interval of a name. -/
def extend (h : Text → List Timespec) (name : Text) (time : Timespec) : Text → List Timespec :=
  fun n => h n ++ if name = n then [time] else []

section Query

variable {db : Database} {h : Text → List Timespec} {name : Text} {time : Timespec}
  {names : Finset Text}

/-- Distinct values from a small set make few rows. -/
lemma length_le_card {rows : List (Row Text)} (hvalues : (rows.map Row.value).Nodup)
    (hsub : ∀ n ∈ rows.map Row.value, n ∈ names) : rows.length ≤ names.card := by
  rw [← List.length_map (f := Row.value), ← List.toFinset_card_of_nodup hvalues]
  exact Finset.card_le_card fun n hn => hsub n (List.mem_toFinset.mp hn)

lemma extend_ne_nil {n : Text} : extend h name time n ≠ [] ↔ h n ≠ [] ∨ n = name := by
  by_cases hn : name = n
  · simp [extend, hn]
  · simp [extend, hn, Ne.symm hn]

/-- The rows of `targets` after a query are those before, with one of the name where
there was none; they are few, and the query is sound. -/
lemma Tidy.query_targets (htidy : Tidy db h) (hcreated : Created db)
    (hsub : ∀ n, extend h name time n ≠ [] → n ∈ names) (hcard : names.card < 2 ^ 31) :
    db.Sound name .all ∧
      (db.resolve name .all).1.targetRows.map Row.value
        = db.targetRows.map Row.value
          ++ if name ∈ db.targetRows.map Row.value then [] else [name] := by
  obtain ⟨t, ht⟩ := Option.isSome_iff_exists.mp hcreated.1
  have hrows : db.targetRows = t.rows := by simp [Database.targetRows, ht]
  have hold : ∀ n ∈ t.rows.map Row.value, n ∈ names := fun n hn =>
    hsub n (extend_ne_nil.mpr (.inl ((htidy.named n).mp (hrows ▸ hn))))
  have hvalues : (t.rows.map Row.value).Nodup := hrows ▸ htidy.values
  rw [hrows]
  cases hr : t.select name with
  | some r =>
      obtain ⟨hmem, hvalue⟩ := Table.select_some hr
      have hbounds := Table.id_bounds hmem
      have hlength := length_le_card hvalues hold
      have hlt : r.id < 2 ^ 31 := by omega
      have hid : db.getTargetId name true = r.id := by
        rw [Database.getTargetId_some ht hr, toInt_of_lt (by omega) hlt]
      refine ⟨⟨rfl, t, ht, by simpa only [hr] using hlt⟩, ?_⟩
      rw [Database.resolve_of_ne (by rw [hid]; omega), hrows,
        if_pos (List.mem_map.mpr ⟨r, hmem, hvalue⟩), List.append_nil]
  | none =>
      have hmissing : name ∉ t.rows.map Row.value := fun hmem => by
        obtain ⟨r, hmem, hvalue⟩ := List.mem_map.mp hmem
        exact Table.select_eq_none.mp hr r hmem hvalue
      have hinsert : (t.insert name).rows.map Row.value = t.rows.map Row.value ++ [name] := by
        simp
      have hlength : (t.insert name).rows.length ≤ names.card := by
        refine length_le_card ?_ fun n hn => ?_
        · rw [hinsert]
          simpa only [List.concat_eq_append] using hvalues.concat hmissing
        · rw [hinsert, List.mem_append, List.mem_singleton] at hn
          exact hn.elim (hold n) fun hn => hsub n (extend_ne_nil.mpr (.inr hn))
      refine ⟨⟨rfl, t, ht, ?_⟩, ?_⟩
      · rw [Table.rows_insert, List.length_append, List.length_singleton] at hlength
        simp only [hr, true_and]
        omega
      · rw [Database.resolve_of_eq (Database.getTargetId_missing ht hr), if_neg hmissing,
          ← hinsert]
        simp [Database.targetRows, Database.insertTarget_true _ ht]

lemma Tidy.query (htidy : Tidy db h) (hcreated : Created db) (hnormal : time.Normal)
    (hsub : ∀ n, extend h name time n ≠ [] → n ∈ names) (hcard : names.card < 2 ^ 31) :
    Tidy (db.executeInsertQuery name time .all) (extend h name time) := by
  obtain ⟨hsound, hvalues⟩ := htidy.query_targets hcreated hsub hcard
  have hrows : (db.executeInsertQuery name time .all).targetRows
      = (db.resolve name .all).1.targetRows := by
    rw [Database.targetRows, executeInsertQuery_targets, Database.targetRows]
  rw [← hrows] at hvalues
  have hintegrity : Integrity (db.executeInsertQuery name time .all) :=
    (integrity_query htidy.bounded).mpr ⟨htidy.integrity, fun _ _ => hsound⟩
  refine ⟨?_, fun n => ?_, hintegrity, htidy.bounded.query, fun n => ?_⟩
  · rw [hvalues]
    split_ifs with hmem
    · simpa using htidy.values
    · simpa only [List.concat_eq_append] using htidy.values.concat hmem
  · rw [hvalues, extend_ne_nil, ← htidy.named n, List.mem_append]
    split_ifs with hmem
    · simp only [List.not_mem_nil, or_false]
      exact ⟨.inl, fun hn => hn.elim id fun hn => hn ▸ hmem⟩
    · rw [List.mem_singleton]
  · have hns : toInt time.tvNsec = time.tvNsec :=
      toInt_of_lt hnormal.1 (hnormal.2.trans (by norm_num))
    rw [executeInsertQuery_clockRows, if_pos ⟨rfl, hcreated.2⟩, List.filter_append, List.map_append,
      htidy.calls n, extend, List.map_append]
    by_cases hn : name = n <;> simp [hn, hns]

lemma Created.query (hcreated : Created db) (o : Outcomes) :
    Created (db.executeInsertQuery name time o) := by
  obtain ⟨t, ht⟩ := Option.isSome_iff_exists.mp hcreated.1
  obtain ⟨rows, hrows⟩ := Option.isSome_iff_exists.mp hcreated.2
  constructor
  · rw [executeInsertQuery_targets, Database.resolve]
    split_ifs
    · rcases Database.insertTarget_targets db name o.insertTarget with
        hsame | ⟨t', -, hnew⟩
      · simp [hsame, ht]
      · simp [hnew]
    · exact hcreated.1
  · simp only [Database.executeInsertQuery, Database.insertClock]
    split_ifs <;> simp [db.resolve_clocks, hrows]

end Query

section Runs

variable {s : Logtime} {h : Text → List Timespec} {names : Finset Text}

lemma act_record_none {name : Text} (hd : departure s.clocks name = none) (now : Reading) :
    act s (Call.record name now).event = s := by
  rw [Call.event, act, logtimeSetRecord_eq, hd, Option.map_none]

lemma act_record_some {name : Text} {d : Reading} (hd : departure s.clocks name = some d)
    (now : Reading) : act s (Call.record name now).event = ⟨s.clocks, s.db.executeInsertQuery name
      (timespecDiff d.toTimespec now.toTimespec) .all⟩ := by
  rw [Call.event, act, logtimeSetRecord_eq, hd, Option.map_some]

/-- The last starts that `intervals` keeps are the departures. -/
lemma intervals_cons {c : Call} (hlen : c.name.length < 256) (calls : List Call) (n : Text) :
    intervals n (departure s.clocks n) (c :: calls)
      = intervals n (departure s.clocks n) [c]
        ++ intervals n (departure (act s c.event).clocks n) calls := by
  cases c with
  | start name now =>
      simp only [intervals, Call.event, act, List.nil_append]
      rw [departure_logtimeSetStart s.clocks name now hlen]
  | record name now =>
      have hclocks : (act s (Call.record name now).event).clocks = s.clocks := by
        cases hd : departure s.clocks name with
        | none => rw [act_record_none hd]
        | some d => rw [act_record_some hd]
      rw [hclocks]
      simp only [intervals, List.append_nil]

/-- A call extends the history of every name by its interval, if it has one. -/
lemma Tidy.call (htidy : Tidy s.db h) (hcreated : Created s.db) {c : Call}
    (hsub : ∀ n, h n ++ intervals n (departure s.clocks n) [c] ≠ [] → n ∈ names)
    (hcard : names.card < 2 ^ 31) :
    Tidy (act s c.event).db (fun n => h n ++ intervals n (departure s.clocks n) [c]) ∧
      Created (act s c.event).db := by
  cases c with
  | start name now =>
      have hnext : (fun n => h n ++ intervals n (departure s.clocks n) [.start name now]) = h := by
        funext n
        simp only [intervals, List.append_nil]
      rw [hnext]
      exact ⟨htidy, hcreated⟩
  | record name now =>
      cases hd : departure s.clocks name with
      | none =>
          have hnext :
              (fun n => h n ++ intervals n (departure s.clocks n) [.record name now]) = h := by
            funext n
            by_cases hn : name = n
            · subst hn
              simp [intervals, hd]
            · simp [intervals, hn]
          rw [act_record_none hd, hnext]
          exact ⟨htidy, hcreated⟩
      | some d =>
          have hnext : (fun n => h n ++ intervals n (departure s.clocks n) [.record name now])
              = extend h name (timespecDiff d.toTimespec now.toTimespec) := by
            funext n
            by_cases hn : name = n
            · subst hn
              simp [intervals, extend, hd]
            · simp [intervals, extend, hn]
          have hsub' := fun n hn => hsub n ((congrFun hnext n).trans_ne hn)
          rw [act_record_some hd, hnext]
          exact ⟨htidy.query hcreated (normal_timespecDiff d.normal now.normal) hsub' hcard,
            hcreated.query _⟩

lemma tidy_calls (hcard : names.card < 2 ^ 31) (calls : List Call)
    (hlen : ∀ c ∈ calls, c.name.length < 256) (htidy : Tidy s.db h) (hcreated : Created s.db)
    (hsub : ∀ n, h n ++ intervals n (departure s.clocks n) calls ≠ [] → n ∈ names) :
    Tidy (machine.exec s (calls.map Call.event)).db
      fun n => h n ++ intervals n (departure s.clocks n) calls := by
  induction calls generalizing s h with
  | nil => simpa [intervals] using htidy
  | cons c calls ih =>
      have hnext : ∀ n, h n ++ intervals n (departure s.clocks n) (c :: calls)
          = (h n ++ intervals n (departure s.clocks n) [c])
            ++ intervals n (departure (act s c.event).clocks n) calls := fun n => by
        rw [intervals_cons (hlen c List.mem_cons_self), List.append_assoc]
      simp only [hnext] at hsub ⊢
      obtain ⟨htidy', hcreated'⟩ := htidy.call (c := c) hcreated
        (fun n hn => hsub n (List.append_ne_nil_of_left_ne_nil hn _)) hcard
      exact ih (fun c' hc' => hlen c' (List.mem_cons_of_mem _ hc')) htidy' hcreated' hsub

/-- `logtime_init` changes nothing that was stored. -/
lemma Tidy.init (htidy : Tidy s.db h) : Tidy (act s (.init true true)).db h := by
  have hrows : (act s (.init true true)).db.targetRows = s.db.targetRows := by
    cases ht : s.db.targets <;> simp [act, Database.createTargets, Database.createClocks,
      Database.targetRows, ht, Table.empty]
  have hclocks : (act s (.init true true)).db.clockRows = s.db.clockRows := by simp [act]
  refine ⟨hrows ▸ htidy.values, hrows ▸ htidy.named, ?_, Bounded.step s _ htidy.bounded,
    hclocks ▸ htidy.calls⟩
  exact (integrity_step s _ htidy.bounded).mpr ⟨htidy.integrity, trivial⟩

lemma created_init (s : Logtime) : Created (act s (.init true true)).db := ⟨rfl, rfl⟩

lemma tidy_lifetimes (hcard : names.card < 2 ^ 31) (ps : List (List Call))
    (hlen : ∀ calls ∈ ps, ∀ c ∈ calls, c.name.length < 256) (htidy : Tidy s.db h)
    (hsub : ∀ n, h n ++ history ps n ≠ [] → n ∈ names) :
    Tidy (machine.exec s (lifetimes ps)).db fun n => h n ++ history ps n := by
  induction ps generalizing s h with
  | nil => simpa [history, lifetimes] using htidy
  | cons calls ps ih =>
      have hnext : ∀ n, h n ++ history (calls :: ps) n
          = (h n ++ intervals n (departure [] n) calls) ++ history ps n := fun n => by
        rw [history, List.flatMap_cons, List.append_assoc]
        rfl
      simp only [hnext] at hsub ⊢
      have hcalls := tidy_calls (s := act s (.init true true)) hcard calls
        (hlen calls List.mem_cons_self) htidy.init (created_init s)
        fun n hn => hsub n (List.append_ne_nil_of_left_ne_nil hn _)
      rw [lifetimes, List.flatMap_cons, Machine.exec_append]
      exact ih (fun calls' h' => hlen calls' (List.mem_cons_of_mem _ h')) hcalls hsub

end Runs

/-! ### The names that are too many -/

lemma intervals_eq_nil {name : Text} {calls : List Call} (h : ∀ c ∈ calls, c.name ≠ name)
    (last : Option Reading) : intervals name last calls = [] := by
  induction calls generalizing last with
  | nil => rfl
  | cons c calls ih =>
      obtain ⟨hname, hcalls⟩ := List.forall_mem_cons.mp h
      cases c with
      | start n now => rw [intervals, ih hcalls]
      | record n now =>
          have hn : n ≠ name := hname
          rw [intervals, if_neg hn, ih hcalls, List.append_nil]

lemma mem_recordedNames {ps : List (List Call)} {name : Text} :
    name ∈ recordedNames ps ↔ history ps name ≠ [] := by
  rw [recordedNames, Finset.mem_filter, and_iff_right_iff_imp]
  intro hne
  by_contra hmem
  refine hne (List.flatMap_eq_nil_iff.mpr fun calls hcalls =>
    intervals_eq_nil (fun c hc heq => hmem ?_) none)
  exact List.mem_toFinset.mpr
    (List.mem_map.mpr ⟨c, List.mem_flatten.mpr ⟨calls, hcalls, hc⟩, heq⟩)

lemma getTargetId_lt (db : Database) (name : Text) (ok : Bool) :
    db.getTargetId name ok < 2 ^ 31 := by
  rw [Database.getTargetId]
  split
  · norm_num
  · split_ifs
    · split
      · norm_num
      · exact toInt_lt _
    · norm_num

/-- An id in `clocks` is an `int`. -/
lemma target_lt (es : List Event) :
    ∀ row ∈ (machine.exec start es).db.clockRows, row.target < 2 ^ 31 := by
  refine Machine.exec_induction (P := fun s : Logtime => ∀ row ∈ s.db.clockRows,
    row.target < 2 ^ 31) (fun s e h => ?_) (by simp [start, Database.clockRows]) es
  cases e with
  | init targets clocks => simpa [machine, act] using h
  | setStart name now => exact h
  | setRecord name now o =>
      simp only [machine, act]
      split
      · exact h
      · intro row hrow
        rw [executeInsertQuery_clockRows] at hrow
        rcases List.mem_append.mp hrow with hold | hnew
        · exact h row hold
        · split_ifs at hnew
          · rw [List.mem_singleton] at hnew
            rw [hnew, Database.resolve]
            split_ifs <;> exact getTargetId_lt _ _ _
          · cases hnew

section Lost

variable {db : Database} {h : Text → List Timespec}

lemma Faithful.nodup_values (hfaith : Faithful db h) :
    (db.targetRows.map Row.value).Nodup := by
  refine List.nodup_iff_count_le_one.mpr fun name => ?_
  rw [hfaith.names]
  split_ifs <;> norm_num

/-- Every row of `targets` has an interval, and a row of `clocks` with its id. -/
lemma Faithful.exists_clockRow (hfaith : Faithful db h) {r : Row Text} (hr : r ∈ db.targetRows) :
    ∃ row ∈ db.clockRows, row.target = r.id := by
  have hinterval : h r.value ≠ [] := fun hnil => by
    have hcount := hfaith.names r.value
    rw [if_pos hnil, List.count_eq_zero] at hcount
    exact hcount (List.mem_map_of_mem hr)
  have hjoined : db.joined r.value ≠ [] := fun hnil => by
    have hrows := hfaith.joined r.value
    rw [hnil, List.map_nil, eq_comm, List.map_eq_nil_iff] at hrows
    exact hinterval hrows
  obtain ⟨row, hjoin⟩ := List.exists_mem_of_ne_nil _ hjoined
  obtain ⟨hrow, hany⟩ := List.mem_filter.mp hjoin
  simp only [List.any_eq_true, Bool.and_eq_true, decide_eq_true_eq] at hany
  obtain ⟨r', hr', hid, hvalue⟩ := hany
  obtain rfl := List.inj_on_of_nodup_map hfaith.nodup_values hr' hr hvalue
  exact ⟨row, hrow, hid.symm⟩

/-- The names with an interval have rows of their own. -/
lemma Faithful.card_le {ps : List (List Call)} (hfaith : Faithful db (history ps)) :
    (recordedNames ps).card ≤ db.targetRows.length := by
  have hsub : recordedNames ps ⊆ (db.targetRows.map Row.value).toFinset := fun name hname => by
    rw [List.mem_toFinset, ← List.count_pos_iff, hfaith.names,
      if_neg (mem_recordedNames.mp hname)]
    norm_num
  calc (recordedNames ps).card
      ≤ (db.targetRows.map Row.value).toFinset.card := Finset.card_le_card hsub
    _ = db.targetRows.length := by
        rw [List.toFinset_card_of_nodup hfaith.nodup_values, List.length_map]

/-- Where every name with an interval has one row and is joined to its intervals, no
row has an id that is not an `int`. -/
lemma Faithful.card_lt {ps : List (List Call)} (hfaith : Faithful db (history ps))
    (hlt : ∀ row ∈ db.clockRows, row.target < 2 ^ 31) : (recordedNames ps).card < 2 ^ 31 := by
  by_contra hmany
  have hcard := hfaith.card_le
  -- the row with the first id that is no `int`
  obtain ⟨r, hr, hid⟩ : ∃ r ∈ db.targetRows, r.id = 2 ^ 31 := by
    cases ht : db.targets with
    | none =>
        simp only [Database.targetRows, ht, Option.elim_none, List.length_nil] at hcard
        omega
    | some t =>
        simp only [Database.targetRows, ht, Option.elim_some] at hcard ⊢
        exact Table.exists_id (by norm_num) (by push_cast; omega)
  obtain ⟨row, hrow, htarget⟩ := hfaith.exists_clockRow hr
  have hsmall := hlt row hrow
  omega

end Lost

lemma tidy_start : Tidy start.db fun _ => [] := by
  refine ⟨?_, fun name => ?_, ?_, ?_, fun name => ?_⟩ <;>
    simp [start, Database.targetRows, Integrity, Bounded, Database.clockRows]

/-- After any number of processes, the database holds the history of every name
exactly if fewer than 2^31 names have an interval. -/
theorem faithful_iff (ps : List (List Call))
    (hlen : ∀ calls ∈ ps, ∀ c ∈ calls, c.name.length < 256) :
    Faithful (machine.exec start (lifetimes ps)).db (history ps) ↔
      (recordedNames ps).card < 2 ^ 31 := by
  constructor
  · exact fun h => h.card_lt (target_lt _)
  · intro hcard
    have htidy := tidy_lifetimes hcard ps hlen tidy_start
      fun n hn => mem_recordedNames.mpr (by simpa using hn)
    simpa only [List.nil_append] using htidy.faithful

/-- Two processes, the second of which records a clock it did not start. -/
def restarted : List (List Call) :=
  [[.start (bytes "pi") .epoch, .record (bytes "pi") (.ofNanos 1000)],
    [.record (bytes "pi") (.ofNanos 2000)]]

theorem faithful_restarted :
    Faithful (machine.exec start (lifetimes restarted)).db (history restarted) :=
  (faithful_iff restarted (by decide)).mpr (by decide)

/-- So many processes, each of which records an interval for another name. -/
def manyNames (n : ℕ) : List (List Call) :=
  (List.range n).map fun k => [.start (decimal k) .epoch, .record (decimal k) (.ofNanos 1000)]

lemma short_manyNames {n : ℕ} (hn : n ≤ 2 ^ 31) :
    ∀ calls ∈ manyNames n, ∀ c ∈ calls, c.name.length < 256 := by
  intro calls hcalls c hc
  obtain ⟨k, hk, rfl⟩ := List.mem_map.mp hcalls
  have hlen : (decimal k).length ≤ 10 := by
    rw [List.mem_range] at hk
    rw [decimal, List.length_map, Nat.length_toDigits_le_iff (by norm_num) (by norm_num)]
    omega
  have hname : c.name = decimal k := by
    simp only [List.mem_cons, List.not_mem_nil, or_false] at hc
    rcases hc with rfl | rfl <;> rfl
  rw [hname]
  omega

lemma le_card_manyNames (n : ℕ) : n ≤ (recordedNames (manyNames n)).card := by
  have hsub : (Finset.range n).image decimal ⊆ recordedNames (manyNames n) := fun name hname => by
    obtain ⟨k, hk, rfl⟩ := Finset.mem_image.mp hname
    refine mem_recordedNames.mpr fun hnil => ?_
    have hcalls := List.flatMap_eq_nil_iff.mp hnil _
      (List.mem_map.mpr ⟨k, List.mem_range.mpr (Finset.mem_range.mp hk), rfl⟩)
    simp [intervals] at hcalls
  have hle := Finset.card_le_card hsub
  rwa [Finset.card_image_of_injective _ decimal_injective, Finset.card_range] at hle

theorem too_many_names :
    (∀ calls ∈ manyNames (2 ^ 31), ∀ c ∈ calls, c.name.length < 256) ∧
      ¬ Faithful (machine.exec start (lifetimes (manyNames (2 ^ 31)))).db
        (history (manyNames (2 ^ 31))) := by
  refine ⟨short_manyNames le_rfl, fun h => ?_⟩
  exact absurd (h.card_lt (target_lt _)) (le_card_manyNames (2 ^ 31)).not_gt

end Logtime

end Hearthbeat
