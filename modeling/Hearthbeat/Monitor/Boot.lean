import Hearthbeat.Telegram.Leak
import Hearthbeat.Monitor.Entries
import Hearthbeat.Monitor.Loop

/-!
`monitor.c`, `main` up to the event loop, from the bytes of the two configuration files.

* `Environment`: what `main` meets on the way: the socket, libcurl, and the allocator.
* `main`: `init` with its session and the loop over the values of `target`, `telegram_init`
  with its session and its call of the API, the timers, and the message that the monitor is
  starting. It gives none where the program dies or faults before the event loop.
* `Says f cfg`: what the reader takes from the file `f` is the configuration `cfg`.
* `boot_iff`: a monitor boots exactly if every target that is read has two colons, it gets its
  socket, and its calls of the API return; and then into the first state of the configuration
  that the file says.
* `boot_file`: the file that `Config.file` writes says its configuration.
-/

namespace Hearthbeat

open Argparse (Registration WellRegistered pointers taken declaration)
open Telegram (ApiCall Curl Returns runCalls userid token)
open CJson (Floats)

namespace Monitor

/-- The values that the reader takes from a file for a key, in order. -/
def readFor (f : List Byte) (key : Text) : List Text :=
  (completeLines newline f).filterMap (taken key)

/-- What `init` leaves in the variables that it has registered. -/
def initSession (monitor : Option (List Byte)) : Argparse :=
  (Argparse.start Telegram.globals).runSession ⟨registrations, monitor⟩

/-- What `main` meets on the way to its event loop: whether it gets the socket and can bind it,
what libcurl does for `telegram_init` and for the first message, how the text of this is
printed, and the allocator of their blocks. -/
structure Environment where
  socket : Bool
  bind : Bool
  validate : Curl
  start : Curl
  growths : ℕ
  complete : Bool
  answers : ℕ → Bool
  memory : Pool

/-- The targets that `init` makes, none where it dies or leaves a buffer. -/
def madeTargets (monitor : Option (List Byte)) (env : Environment) : Option (List Target) :=
  match targetLoop [] ((initSession monitor).vars.lsts 0) with
  | some targets => if env.socket && env.bind then some targets else none
  | none => none

/-- The monitor with its timers; the intervals are those of `init`, and the name is that behind
`telegram_init`. -/
def booted (s s' : Argparse) (targets : List Target) (t₀ : ℤ) : Monitor :=
  let m : Monitor :=
    { now := t₀
      myname := (s'.vars.strs 0).getD (bytes "(null)")
      pollTv := seconds (s.vars.ints 0)
      errTv := seconds (s.vars.ints 1)
      targets := targets
      clocks := []
      hist := [] }
  { m with targets := m.targets.map m.addTimers }

/-- The message of `main`. -/
def startText (m : Monitor) : Text := snprintf 256 (bytes "Starting monitor on " ++ m.myname)

/-- The calls of the API by `telegram_init`: the token is looked at if there is an id, too. -/
def initCalls (s : Argparse) (env : Environment) : List ApiCall :=
  if userid s ≠ 0 ∧ token s ≠ none then [.validateToken env.validate] else []

/-- The call of the API for a first message. -/
def startCall (s : Argparse) (text : Text) (env : Environment) : ApiCall :=
  .sendMessage (userid s) (Str.of text) env.growths env.complete env.start

section Main

variable {D : Type} (ofInt : ℤ → D) (F : Floats D) (env : Environment)

/-- The event loop that `main` enters, with the message that it sends before; this takes
its time, and datagrams arrive meanwhile. None where the program has ended. -/
def main (monitor telegram : Option (List Byte)) (t₀ : ℤ) (took : ℕ)
    (arrivals : List (SockAddr × ℕ)) : Option (Text × Loop) := do
  let targets ← madeTargets monitor env
  let s ← Telegram.launch monitor telegram
  let (_, p) ← (runCalls ofInt F env.answers (initCalls s env) env.memory).result
  let m := booted (initSession monitor) s targets t₀
  let _ ← ((startCall s m.startText env).run ofInt F env.answers p).result
  some (m.startText, ⟨{ m with now := m.now + took }, arrivals.map fun x => ⟨x.1, t₀ + x.2⟩, []⟩)

/-- The calls of the API on the way, for a monitor with a file. -/
def bootCalls (f : List Byte) (telegram : Option (List Byte)) : List ApiCall :=
  let s := Telegram.startup (some f) telegram
  let myname := ((readFor f (bytes "myname")).getLast?).getD (bytes "myself")
  initCalls s env ++ [startCall s (snprintf 256 (bytes "Starting monitor on " ++ myname)) env]

/-- The environment lets the monitor start. -/
structure Environment.Works : Prop where
  socket : env.socket = true
  bind : env.bind = true
  validate : Returns F env.validate
  start : Returns F env.start

end Main

/-- What the reader takes from a file, as a configuration. -/
structure Says (f : List Byte) (cfg : Config) : Prop where
  targets : readFor f (bytes "target") = cfg.targets.map Entry.text
  readable : ∀ x ∈ cfg.targets, Readable x
  myname : cfg.myname = ((readFor f (bytes "myname")).getLast?).getD (bytes "myself")
  pollInterval : cfg.pollInterval = ((readFor f (bytes "poll_interval")).getLast?.map atoi).getD 0
  errInterval : cfg.errInterval = ((readFor f (bytes "err_interval")).getLast?.map atoi).getD 0

/-! ### What `init` reads -/

section Init

variable (f : List Byte)

lemma wellRegistered : WellRegistered registrations :=
  ⟨by decide, by decide, by decide, by decide⟩

/-- What `init` leaves in a variable. -/
lemma get_initSession {p : RegisteredPointer} (hp : p ∈ pointers registrations) :
    (initSession (some f)).vars.get p.t p.ptr
      = (readFor f p.key).foldl Value.assign
          ((registrations.foldl Argparse.register (Argparse.start Telegram.globals)).vars.get
            p.t p.ptr) :=
  Argparse.get_runSession wellRegistered rfl rfl f hp

lemma initSession_targets :
    (initSession (some f)).vars.lsts 0 = readFor f (bytes "target") := by
  have hget := get_initSession f (p := ⟨bytes "target", .lst, 0⟩) (by decide)
  simp only [Variables.get, foldl_assign_lst] at hget
  exact Value.lst.inj hget

lemma initSession_myname :
    (initSession (some f)).vars.strs 0
      = some ((readFor f (bytes "myname")).getLast?.getD (bytes "myself")) := by
  have hget := get_initSession f (p := ⟨bytes "myname", .str, 0⟩) (by decide)
  simp only [Variables.get, foldl_assign_str] at hget
  rw [Value.str.inj hget]
  cases (readFor f (bytes "myname")).getLast? <;> rfl

lemma initSession_interval (key : Text) (p : ℕ)
    (hp : ⟨key, .int, p⟩ ∈ pointers registrations) :
    (initSession (some f)).vars.ints p = ((readFor f key).getLast?.map atoi).getD 0 := by
  have hget := get_initSession f hp
  simp only [Variables.get, foldl_assign_int] at hget
  have hzero : (registrations.foldl Argparse.register
      (Argparse.start Telegram.globals)).vars.ints p = 0 := rfl
  rw [Value.int.inj hget, hzero]

/-- The session of `telegram_init` leaves the name alone. -/
lemma myname_kept (telegram : Option (List Byte)) :
    ((initSession (some f)).runSession ⟨Telegram.registrations, telegram⟩).vars.strs 0
      = (initSession (some f)).vars.strs 0 := by
  have hempty : (initSession (some f)).registeredPointers = [] := rfl
  have hother : ∀ p ∈ pointers Telegram.registrations, ¬ (p.t = .str ∧ p.ptr = 0) := by decide
  have hget : ((initSession (some f)).runSession ⟨Telegram.registrations, telegram⟩).vars.get .str 0
      = (initSession (some f)).vars.get .str 0 :=
    Argparse.get_runSession_of_not_mem (initSession (some f)) (by rwa [hempty, List.nil_append])
  exact Value.str.inj hget

variable {f}

/-- A value that was read has no NUL. -/
lemma nul_of_read {key value : Text} (h : value ∈ readFor f key) : 0 ∉ value := by
  obtain ⟨l, hl, htaken⟩ := List.mem_filterMap.mp h
  obtain ⟨⟨key', value'⟩, hparse, hkey⟩ := Option.bind_eq_some_iff.mp htaken
  have hline : newline ∉ lineTail 255 l :=
    fun hmem => not_mem_of_completeLines newline hl (List.mem_of_mem_drop hmem)
  split_ifs at hkey
  obtain rfl := Option.some.inj hkey
  obtain ⟨hsplit, -, hnul, -⟩ := (parseLine_eq_some hline).mp hparse
  exact fun hmem => hnul (by rw [hsplit]; simp [hmem])

end Init

/-! ### Which targets the loop reads -/

section Targets

variable {value : Text} {values : List Text}

/-- A value with fewer than two colons makes no target. -/
lemma newTarget_none (hnul : 0 ∉ value) (hcount : value.count (byte ':') < 2) :
    (cut value).bind Cut.newTarget = none := by
  rcases value_cases value with hnone | ⟨a, p, rfl, ha, hp⟩ | ⟨x, rfl, -, -⟩
  · rw [cut_none hnul hnone, Option.bind_none]
  · obtain ⟨c, hc, hhost⟩ := cut_one ha hp hnul
    have hbuffer : c.host.buffer = none := by
      rw [Copy.buffer, hhost, strncpyTo, if_neg (by norm_num)]
    rw [hc, Option.bind_some, Cut.newTarget, hbuffer]
    cases c.name.buffer <;> rfl
  · rw [Entry.text, List.count_append, List.count_cons_self, List.count_append,
      List.count_cons_self] at hcount
    omega

/-- The loop gets to its end exactly if every value has two colons. -/
lemma targetLoop_iff (hnul : ∀ value ∈ values, 0 ∉ value) :
    (∃ xs : List Entry, (∀ x ∈ xs, Readable x) ∧ values = xs.map Entry.text ∧
        targetLoop [] values = some (xs.map Entry.newTarget)) ∨
      (∃ value ∈ values, value.count (byte ':') < 2) ∧ targetLoop [] values = none := by
  have hgeneral : ∀ targets, (∃ xs : List Entry, (∀ x ∈ xs, Readable x) ∧
      values = xs.map Entry.text ∧
        targetLoop targets values = some (targets ++ xs.map Entry.newTarget)) ∨
      (∃ value ∈ values, value.count (byte ':') < 2) ∧ targetLoop targets values = none := by
    induction values with
    | nil => exact fun targets => .inl ⟨[], by simp, rfl, by simp [targetLoop]⟩
    | cons value values ih =>
        intro targets
        obtain ⟨hvalue, hvalues⟩ := List.forall_mem_cons.mp hnul
        rcases Nat.lt_or_ge (value.count (byte ':')) 2 with hlt | hge
        · refine .inr ⟨⟨value, List.mem_cons_self, hlt⟩, ?_⟩
          rw [targetLoop, newTarget_none hvalue hlt]
        · obtain ⟨x, hx, rfl⟩ := readable_of_count hge hvalue
          have hround : targetLoop targets (x.text :: values)
              = targetLoop (targets ++ [x.newTarget]) values := by
            rw [targetLoop, newTarget_text hx]
          rw [hround]
          rcases ih hvalues (targets ++ [x.newTarget]) with ⟨xs, hxs, rfl, hloop⟩ | ⟨hbad, hloop⟩
          · refine .inl ⟨x :: xs, List.forall_mem_cons.mpr ⟨hx, hxs⟩, rfl, ?_⟩
            rw [hloop, List.append_assoc, List.singleton_append, List.map_cons]
          · exact .inr ⟨hbad.imp fun v hv => ⟨List.mem_cons_of_mem _ hv.1, hv.2⟩, hloop⟩
  simpa using hgeneral []

end Targets

/-! ### Booting -/

section Boot

variable {D : Type} (ofInt : ℤ → D) (F : Floats D) (env : Environment) (f : List Byte)
  (telegram : Option (List Byte)) (t₀ : ℤ)

/-- A file that says a configuration makes its first state, behind both sessions. -/
lemma booted_configured {f : List Byte} {cfg : Config} (h : Says f cfg) :
    booted (initSession (some f)) (Telegram.startup (some f) telegram)
      (cfg.targets.map Entry.newTarget) t₀ = start cfg t₀ := by
  have hpoll := initSession_interval f (bytes "poll_interval") 0 (by decide)
  have herr := initSession_interval f (bytes "err_interval") 1 (by decide)
  have hmyname : (Telegram.startup (some f) telegram).vars.strs 0
      = (initSession (some f)).vars.strs 0 := myname_kept f telegram
  simp only [booted, hmyname, initSession_myname, hpoll, herr, Option.getD_some, ← h.myname,
    ← h.pollInterval, ← h.errInterval]
  rfl

/-- What `main` makes of a file that says a configuration. -/
lemma main_configured {f : List Byte} {cfg : Config} (h : Says f cfg) (hsocket : env.socket = true)
    (hbind : env.bind = true) (took : ℕ) (arrivals : List (SockAddr × ℕ)) :
    main ofInt F env (some f) telegram t₀ took arrivals
      = (runCalls ofInt F env.answers (bootCalls env f telegram) env.memory).result.map fun _ =>
          (snprintf 256 (bytes "Starting monitor on " ++ cfg.myname),
            Loop.start cfg t₀ took arrivals) := by
  have htargets : madeTargets (some f) env = some (cfg.targets.map Entry.newTarget) := by
    have hloop : targetLoop [] ((initSession (some f)).vars.lsts 0)
        = some (cfg.targets.map Entry.newTarget) := by
      rw [initSession_targets, h.targets, targetLoop_map h.readable, List.nil_append]
    simp only [madeTargets, hloop, hsocket, hbind, Bool.and_self, if_true]
  have hlaunch := Telegram.launch_some f telegram
  set s := Telegram.startup (some f) telegram with hs
  have hcalls : bootCalls env f telegram
      = initCalls s env ++ [startCall s (snprintf 256 (bytes "Starting monitor on " ++ cfg.myname))
          env] := by
    rw [bootCalls, h.myname]
  have htext : (start cfg t₀).startText = snprintf 256 (bytes "Starting monitor on " ++ cfg.myname) :=
    rfl
  rw [hcalls, Telegram.runCalls_append]
  simp only [main, htargets, hlaunch, Option.bind_eq_bind, Option.bind_some, hs,
    booted_configured telegram t₀ h, htext]
  rw [← hs]
  cases runCalls ofInt F env.answers (initCalls s env) env.memory with
  | fail => rfl
  | fault => rfl
  | ok r =>
      simp only [Access.ok_bind, Access.result, Option.bind_some, runCalls]
      cases (startCall s (snprintf 256 (bytes "Starting monitor on " ++ cfg.myname)) env).run ofInt F
        env.answers r.2 <;> rfl

/-- A monitor boots exactly if every target that is read has two colons, it gets its socket and
its calls of the API return, and then into the first state of the configuration that the file
says. -/
theorem boot_iff (took : ℕ) (arrivals : List (SockAddr × ℕ)) :
    ((main ofInt F env (some f) telegram t₀ took arrivals).isSome ↔
      (∀ value ∈ readFor f (bytes "target"), 2 ≤ value.count (byte ':')) ∧
        env.socket = true ∧ env.bind = true ∧
        ∃ r, runCalls ofInt F env.answers (bootCalls env f telegram) env.memory = .ok r) ∧
    ∀ text s, main ofInt F env (some f) telegram t₀ took arrivals = some (text, s) →
      ∃ cfg, Says f cfg ∧ text = snprintf 256 (bytes "Starting monitor on " ++ cfg.myname) ∧
        s = Loop.start cfg t₀ took arrivals := by
  -- without targets or a socket there is no loop
  have hnone : madeTargets (some f) env = none →
      main ofInt F env (some f) telegram t₀ took arrivals = none := by
    intro h
    simp only [main, h, Option.bind_eq_bind, Option.bind_none]
  by_cases hsocket : env.socket = true ∧ env.bind = true
  swap
  · have hmain := hnone (by
      simp only [madeTargets, Bool.and_eq_true, if_neg hsocket]
      cases targetLoop [] ((initSession (some f)).vars.lsts 0) <;> rfl)
    rw [hmain]
    exact ⟨iff_of_false (by simp) fun h => hsocket ⟨h.2.1, h.2.2.1⟩, by simp⟩
  rcases targetLoop_iff fun value (h : value ∈ readFor f (bytes "target")) => nul_of_read h with
    ⟨xs, hxs, hvalues, -⟩ | ⟨⟨value, hmem, hlt⟩, hloop⟩
  swap
  · have hmain := hnone (by simp only [madeTargets, initSession_targets, hloop])
    rw [hmain]
    refine ⟨iff_of_false (by simp) fun h => ?_, by simp⟩
    have := h.1 value hmem
    omega
  set cfg : Config :=
    { myname := ((readFor f (bytes "myname")).getLast?).getD (bytes "myself")
      pollInterval := ((readFor f (bytes "poll_interval")).getLast?.map atoi).getD 0
      errInterval := ((readFor f (bytes "err_interval")).getLast?.map atoi).getD 0
      targets := xs }
  have hsays : Says f cfg := ⟨hvalues, hxs, rfl, rfl, rfl⟩
  have hcolons : ∀ value ∈ readFor f (bytes "target"), 2 ≤ value.count (byte ':') := by
    intro value hvalue
    rw [hvalues] at hvalue
    obtain ⟨x, -, rfl⟩ := List.mem_map.mp hvalue
    rw [Entry.text, List.count_append, List.count_cons_self, List.count_append,
      List.count_cons_self]
    omega
  rw [main_configured ofInt F env telegram t₀ hsays hsocket.1 hsocket.2]
  constructor
  · rw [Option.isSome_map, Option.isSome_iff_exists]
    simp only [Access.result_eq_some]
    exact ⟨fun h => ⟨hcolons, hsocket.1, hsocket.2, h⟩, fun h => h.2.2.2⟩
  · intro text s h
    obtain ⟨r, -, heq⟩ := Option.map_eq_some_iff.mp h
    obtain ⟨rfl, rfl⟩ := Prod.mk.inj heq
    exact ⟨cfg, hsays, rfl, rfl⟩

end Boot

end Monitor

/-! ### Writing a configuration -/

/-- What a configuration sets. -/
def Config.settings (cfg : Config) : List (Text × Text) :=
  [(bytes "myname", cfg.myname), (bytes "poll_interval", signedDecimal cfg.pollInterval),
      (bytes "err_interval", signedDecimal cfg.errInterval)]
    ++ cfg.targets.map fun x => (bytes "target", x.text)

/-- A configuration as a file, one setting a line. -/
def Config.file (cfg : Config) : List Byte :=
  cfg.settings.flatMap fun kv => declaration kv ++ [newline]

namespace Monitor

/-- A text that fits behind the key of a setting: the line has room in the buffer, with its
newline and a NUL. -/
structure Fits (key t : Text) : Prop where
  line : newline ∉ t
  nul : 0 ∉ t
  short : (declaration (key, t)).length + 2 ≤ 256

/-- A configuration that can be written: its texts fit, its intervals are `int`s, and its
targets have no other colons than they need. -/
structure Writable (cfg : Config) : Prop where
  myname : Fits (bytes "myname") cfg.myname
  pollInterval : -2 ^ 31 ≤ cfg.pollInterval ∧ cfg.pollInterval < 2 ^ 31
  errInterval : -2 ^ 31 ≤ cfg.errInterval ∧ cfg.errInterval < 2 ^ 31
  targets : ∀ x ∈ cfg.targets, Readable x ∧ Fits (bytes "target") x.text

/-- A setting whose line is read. -/
structure Setting (kv : Text × Text) : Prop where
  key : equals ∉ kv.1
  line : newline ∉ declaration kv
  nul : 0 ∉ declaration kv
  hash : (declaration kv).head? ≠ some hash
  short : (declaration kv).length < 255

section Settings

variable {kv : Text × Text} {kvs : List (Text × Text)}

/-- What is taken from the line of a setting. -/
lemma Setting.taken (h : Setting kv) (key : Text) :
    taken key (declaration kv) = if kv.1 = key then some kv.2 else none := by
  have hparse := (parseLine_eq_some h.line).mpr ⟨rfl, h.key, h.nul, h.hash⟩
  rw [Argparse.taken, lineTail_of_lt 255 h.short, hparse, Option.bind_some]

lemma completeLines_settings (h : ∀ kv ∈ kvs, Setting kv) :
    completeLines newline (kvs.flatMap fun kv => declaration kv ++ [newline])
      = kvs.map declaration := by
  induction kvs with
  | nil => exact completeLines_of_not_mem newline (by simp)
  | cons kv kvs ih =>
      obtain ⟨hkv, hkvs⟩ := List.forall_mem_cons.mp h
      rw [List.flatMap_cons, List.append_assoc, List.singleton_append,
        completeLines_append newline hkv.line, ih hkvs, List.map_cons]

/-- What is read for a key is what the settings of the key say. -/
lemma readFor_settings (h : ∀ kv ∈ kvs, Setting kv) (key : Text) :
    readFor (kvs.flatMap fun kv => declaration kv ++ [newline]) key
      = kvs.filterMap fun kv => if kv.1 = key then some kv.2 else none := by
  rw [readFor, completeLines_settings h, List.filterMap_map]
  exact List.filterMap_congr fun kv hkv => (h kv hkv).taken key

/-- The setting of a key that begins with a letter. -/
lemma setting_of_fits {key t : Text} {b : Byte} (hb : key.head? = some b) (hne : b ≠ hash)
    (hkey : equals ∉ key) (hline : newline ∉ key) (hnul : 0 ∉ key) (ht : Fits key t) :
    Setting (key, t) := by
  have hmem : ∀ c ∈ declaration (key, t), c ∈ key ∨ c = equals ∨ c ∈ t := by
    intro c hc
    simpa [declaration] using hc
  refine ⟨hkey, fun h => ?_, fun h => ?_, ?_, ?_⟩
  · rcases hmem _ h with h | h | h
    · exact hline h
    · exact absurd h (by decide)
    · exact ht.line h
  · rcases hmem _ h with h | h | h
    · exact hnul h
    · exact absurd h (by decide)
    · exact ht.nul h
  · cases key with
    | nil => cases hb
    | cons c key =>
        obtain rfl : c = b := Option.some.inj hb
        simpa [declaration] using hne
  · have hshort := ht.short
    omega

lemma fits_signedDecimal {key : Text} (hkey : key.length < 100) {n : ℤ}
    (hn : -2 ^ 31 ≤ n ∧ n < 2 ^ 31) : Fits key (signedDecimal n) := by
  have hbytes : ∀ b ∈ signedDecimal n, b ≠ newline ∧ b ≠ 0 := by
    intro b hb
    rcases mem_signedDecimal n hb with rfl | hdigit
    · decide
    · constructor <;> (rintro rfl; revert hdigit; decide)
  have hlen := length_signedDecimal n (k := 10) (by norm_num) (by omega)
  refine ⟨fun h => (hbytes _ h).1 rfl, fun h => (hbytes _ h).2 rfl, ?_⟩
  simp only [declaration, List.length_append, List.length_cons]
  omega

lemma Writable.settings {cfg : Config} (h : Writable cfg) : ∀ kv ∈ cfg.settings, Setting kv := by
  intro kv hkv
  simp only [Config.settings, List.mem_append, List.mem_cons, List.not_mem_nil, or_false,
    List.mem_map] at hkv
  rcases hkv with (rfl | rfl | rfl) | ⟨x, hx, rfl⟩
  · exact setting_of_fits rfl (by decide) (by decide) (by decide) (by decide) h.myname
  · exact setting_of_fits rfl (by decide) (by decide) (by decide) (by decide)
      (fits_signedDecimal (by decide) h.pollInterval)
  · exact setting_of_fits rfl (by decide) (by decide) (by decide) (by decide)
      (fits_signedDecimal (by decide) h.errInterval)
  · exact setting_of_fits rfl (by decide) (by decide) (by decide) (by decide) (h.targets x hx).2

/-- The file that is written says its configuration. -/
lemma says_file {cfg : Config} (h : Writable cfg) : Says cfg.file cfg := by
  have hread := fun key => readFor_settings h.settings key
  have htargets : ∀ key, key ≠ bytes "target" →
      (cfg.targets.map fun x => (bytes "target", x.text)).filterMap
        (fun kv : Text × Text => if kv.1 = key then some kv.2 else none) = [] := by
    intro key hkey
    refine List.filterMap_eq_nil_iff.mpr fun kv hkv => ?_
    obtain ⟨x, -, rfl⟩ := List.mem_map.mp hkv
    exact if_neg (Ne.symm hkey)
  have hpoll := (atoi_signedDecimal_iff (n := cfg.pollInterval) (by linarith [h.pollInterval.1])
    (by linarith [h.pollInterval.2])).mpr h.pollInterval
  have herr := (atoi_signedDecimal_iff (n := cfg.errInterval) (by linarith [h.errInterval.1])
    (by linarith [h.errInterval.2])).mpr h.errInterval
  refine ⟨?_, fun x hx => (h.targets x hx).1, ?_, ?_, ?_⟩
  all_goals rw [Config.file, hread, Config.settings, List.filterMap_append]
  · have hskip : ([(bytes "myname", cfg.myname),
        (bytes "poll_interval", signedDecimal cfg.pollInterval),
        (bytes "err_interval", signedDecimal cfg.errInterval)] : List (Text × Text)).filterMap
        (fun kv => if kv.1 = bytes "target" then some kv.2 else none) = [] := rfl
    rw [hskip, List.nil_append, List.filterMap_map]
    simp
  · rw [htargets _ (by decide)]
    rfl
  · rw [htargets _ (by decide)]
    exact hpoll.symm
  · rw [htargets _ (by decide)]
    exact herr.symm

end Settings

/-- A configuration that is written to a file boots into its first state, whatever
`telegram_init` reads, where the environment lets it. -/
theorem boot_file {D : Type} (ofInt : ℤ → D) {F : Floats D} (hF : F.Bounded) {cfg : Config}
    (h : Writable cfg) {env : Environment} (henv : env.Works F) (telegram : Option (List Byte))
    (t₀ : ℤ) (took : ℕ) (arrivals : List (SockAddr × ℕ)) :
    main ofInt F env (some cfg.file) telegram t₀ took arrivals
      = some (snprintf 256 (bytes "Starting monitor on " ++ cfg.myname),
        Loop.start cfg t₀ took arrivals) := by
  have hcalls : ∀ c ∈ bootCalls env cfg.file telegram, Returns F c.curl := by
    intro c hc
    rcases List.mem_append.mp hc with hc | hc
    · rw [initCalls] at hc
      split_ifs at hc
      · rw [List.mem_singleton.mp hc]
        exact henv.validate
      · cases hc
    · rw [List.mem_singleton.mp hc]
      exact henv.start
  obtain ⟨r, hr⟩ := Telegram.runCalls_returns ofInt env.answers hF hcalls env.memory
  rw [main_configured ofInt F env telegram t₀ (says_file h) henv.socket henv.bind, hr]
  rfl

/-- A host whose calls of the API get no handle. -/
def offline : Environment :=
  ⟨true, true, ⟨true, false, []⟩, ⟨true, false, []⟩, 0, true, fun _ => true, Pool.start⟩

theorem boot_file_pi :
    main id CJson.integers offline
        (some (Config.file ⟨bytes "local", 20, 15, [⟨bytes "pi", bytes "::1", bytes "48807"⟩]⟩))
        none 0 0 []
      = some (snprintf 256 (bytes "Starting monitor on " ++ bytes "local"),
        Loop.start ⟨bytes "local", 20, 15, [⟨bytes "pi", bytes "::1", bytes "48807"⟩]⟩ 0 0 []) := by
  have hreturns : Returns CJson.integers ⟨true, false, []⟩ := ⟨rfl, by simp⟩
  refine boot_file id CJson.integers_bounded ⟨⟨by decide, by decide, by decide⟩, by decide,
    by decide, ?_⟩ ⟨rfl, rfl, hreturns, hreturns⟩ none 0 0 []
  exact List.forall_mem_singleton.mpr ⟨⟨by decide, by decide, by decide⟩,
    ⟨by decide, by decide, by decide⟩⟩

end Monitor

end Hearthbeat
