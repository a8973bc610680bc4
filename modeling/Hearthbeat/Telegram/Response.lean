import Hearthbeat.Machine.Run
import Hearthbeat.Memory.Alloc
import Hearthbeat.Text.Buffer

/-!
`telegram.c`, the response of the API. libcurl hands it over in chunks, and each is
appended to a string that grows.

* `initString`, `writeToString`: the functions of the source, none where they store a
  byte outside the block that was allocated.
* `machine`: the calls of libcurl, which go on as long as all bytes were taken.
* `Going` and `Failed`: the two kinds of states, and `assembled`: every run leaves the
  whole body in a block of its size, or no block if an allocation has failed in it.
-/

namespace Hearthbeat

namespace Telegram

/-- A value of `size_t`. -/
def sizeT (n : ℕ) : ℕ := n % 2 ^ 64

lemma sizeT_of_lt {n : ℕ} (h : n < 2 ^ 64) : sizeT n = n := Nat.mod_eq_of_lt h

/-- The source's `struct string`: the block that was allocated, none for a null pointer,
and the length of the string in it. -/
structure StringStruct where
  ptr : Option (List Byte)
  len : ℕ
  deriving DecidableEq, Repr

/-- The source's `init_string`. -/
def initString (a : Alloc Byte) : Option StringStruct :=
  match malloc a 1 with
  | none => some ⟨none, 0⟩
  | some block => (store block 0 [0]).map fun ended => ⟨some ended, 0⟩

/-- A call of libcurl: a chunk, and what the allocator answers in it. -/
structure Write where
  size : ℕ
  nmemb : ℕ
  data : List Byte
  alloc : Alloc Byte
  length_data : data.length = size * nmemb

/-- The source's `write_to_string`, with the value that it returns. -/
def writeToString (s : StringStruct) (w : Write) : Option (StringStruct × ℕ) :=
  let newLength := sizeT (s.len + sizeT (w.size * w.nmemb))
  match realloc w.alloc s.ptr (sizeT (newLength + 1)) with
  | none => some (⟨none, s.len⟩, 2 ^ 64 - 1)
  | some block =>
      (store block s.len (w.data.take (sizeT (w.size * w.nmemb)))).bind fun copied =>
        (store copied newLength [0]).map fun ended =>
          (⟨some ended, newLength⟩, sizeT (w.size * w.nmemb))

/-! ### One call -/

/-- The string holds `b`, with a block of its size; an empty one may have no block. -/
structure Holds (s : StringStruct) (b : List Byte) : Prop where
  len : s.len = b.length
  ptr : s.ptr = some (b ++ [0]) ∨ s.ptr = none ∧ b = []

lemma holds_initString (a : Alloc Byte) :
    ∃ s, initString a = some s ∧ Holds s [] ∧ (s.ptr = none → a = none) := by
  cases a with
  | none => exact ⟨⟨none, 0⟩, rfl, ⟨rfl, .inr ⟨rfl, rfl⟩⟩, fun _ => rfl⟩
  | some fresh => exact ⟨⟨some [0], 0⟩, rfl, ⟨rfl, .inl rfl⟩, by simp⟩

section Call

variable {s : StringStruct} {b : List Byte} {w : Write}

/-- The block of a string that grows by `k` bytes. -/
lemma Holds.realloc (h : Holds s b) (fresh : ℕ → Byte) (k : ℕ) :
    ∃ tail, Hearthbeat.realloc (some fresh) s.ptr (b.length + k + 1) = some (b ++ tail) ∧
      tail.length = k + 1 := by
  rcases h.ptr with hptr | ⟨hptr, rfl⟩
  · obtain ⟨rest, hrest, hlen⟩ := realloc_grow fresh (b ++ [0]) k
    have hsize : b.length + k + 1 = (b ++ [0]).length + k := by
      rw [List.length_append, List.length_singleton]
      omega
    refine ⟨0 :: rest, ?_, by rw [List.length_cons, hlen]⟩
    calc Hearthbeat.realloc (some fresh) s.ptr (b.length + k + 1)
        = Hearthbeat.realloc (some fresh) (some (b ++ [0])) ((b ++ [0]).length + k) := by
          rw [hptr, hsize]
      _ = some (b ++ [0] ++ rest) := hrest
      _ = some (b ++ 0 :: rest) := by rw [List.append_assoc, List.singleton_append]
  · obtain ⟨block, hblock, hlen⟩ := malloc_some fresh (k + 1)
    refine ⟨block, ?_, hlen⟩
    calc Hearthbeat.realloc (some fresh) s.ptr (0 + k + 1)
        = malloc (some fresh) (k + 1) := by rw [hptr, realloc_none, Nat.zero_add]
      _ = some ([] ++ block) := hblock

/-- A call that allocates appends its chunk, and takes it whole. -/
lemma Holds.append (h : Holds s b) (halloc : w.alloc.isSome)
    (hsize : (b ++ w.data).length + 1 < 2 ^ 64) :
    writeToString s w = some (⟨some (b ++ w.data ++ [0]), (b ++ w.data).length⟩,
      w.size * w.nmemb) := by
  obtain ⟨fresh, hfresh⟩ := Option.isSome_iff_exists.mp halloc
  obtain ⟨tail, htail, hlen⟩ := h.realloc fresh w.data.length
  rw [List.length_append] at hsize ⊢
  -- the tail has room for the chunk and one more byte
  obtain ⟨old, last, rfl⟩ : ∃ old last, tail = old ++ [last] :=
    ⟨_, _, (List.dropLast_append_getLast (List.ne_nil_of_length_eq_add_one hlen)).symm⟩
  have hold : old.length = w.data.length := by simpa using hlen
  have hcopy : store (b ++ (old ++ [last])) b.length w.data = some (b ++ (w.data ++ [last])) :=
    store_append hold
  have hend : store (b ++ (w.data ++ [last])) ((b.length + w.data.length : ℕ) : ℤ) [0]
      = some (b ++ w.data ++ [0]) :=
    calc store (b ++ (w.data ++ [last])) ((b.length + w.data.length : ℕ) : ℤ) [0]
        = store (b ++ w.data ++ ([last] ++ [])) (b ++ w.data).length [0] := by
          rw [List.append_nil, List.append_assoc, List.length_append]
      _ = some (b ++ w.data ++ ([0] ++ [])) := store_append rfl
      _ = some (b ++ w.data ++ [0]) := by rw [List.append_nil]
  simp only [writeToString, ← w.length_data, h.len, hfresh,
    sizeT_of_lt (show w.data.length < 2 ^ 64 by omega),
    sizeT_of_lt (show b.length + w.data.length < 2 ^ 64 by omega),
    sizeT_of_lt (show b.length + w.data.length + 1 < 2 ^ 64 by omega), htail,
    List.take_length, hcopy, Option.bind_some, hend, Option.map_some]

/-- A call that does not allocate loses the block. -/
lemma writeToString_fail (halloc : w.alloc = none) :
    writeToString s w = some (⟨none, s.len⟩, 2 ^ 64 - 1) := by
  simp only [writeToString, halloc, realloc_fail]

end Call

/-! ### Transfers -/

/-- A transfer: the string, and the calls with the values that they returned; none where
a byte was stored outside the block. -/
structure Transfer where
  out : Option StringStruct
  calls : List (Write × Option ℕ)

/-- The call has returned that all bytes were taken. -/
def Taken (c : Write × Option ℕ) : Prop := c.2 = some (c.1.size * c.1.nmemb)

instance (c : Write × Option ℕ) : Decidable (Taken c) := inferInstanceAs (Decidable (_ = _))

/-- libcurl goes on until a call has not taken all bytes. -/
def machine : Machine Transfer Write where
  guard t _ := ∀ c ∈ t.calls, Taken c
  act t w :=
    let result := t.out.bind (writeToString · w)
    ⟨result.map Prod.fst, t.calls ++ [(w, result.map Prod.snd)]⟩

instance (t : Transfer) (w : Write) : Decidable (machine.guard t w) :=
  inferInstanceAs (Decidable (∀ c ∈ t.calls, Taken c))

/-- `call_telegram_api` before the transfer. -/
def start (a : Alloc Byte) : Transfer := ⟨initString a, []⟩

/-- What `call_telegram_api` passes to `cJSON_Parse` after the transfer. -/
def passed (t : Transfer) : Option Text := t.out.bind fun s => s.ptr.map cstr

/-- The body that was handed over. -/
def body (ws : List Write) : List Byte := ws.flatMap Write.data

/-- The chunks, with what the allocator answered. -/
def Transfer.writes (t : Transfer) : List Write := t.calls.map Prod.fst

lemma body_concat (ws : List Write) (w : Write) : body (ws ++ [w]) = body ws ++ w.data := by
  rw [body, List.flatMap_append, List.flatMap_singleton, body]

lemma writes_act (t : Transfer) (w : Write) : (machine.act t w).writes = t.writes ++ [w] := by
  rw [Transfer.writes, Transfer.writes, machine, List.map_append, List.map_singleton]

lemma writes_exec (t : Transfer) (ws : List Write) :
    (machine.exec t ws).writes = t.writes ++ ws := by
  induction ws generalizing t with
  | nil => rw [Machine.exec_nil, List.append_nil]
  | cons w ws ih => rw [Machine.exec_cons, ih, writes_act, List.append_assoc, List.singleton_append]

/-- All calls have allocated and taken their chunks. There is no block only if
`init_string` got none and nothing was called. -/
structure Going (a : Alloc Byte) (t : Transfer) (s : StringStruct) : Prop where
  out : t.out = some s
  holds : Holds s (body t.writes)
  taken : ∀ c ∈ t.calls, c.1.alloc.isSome ∧ Taken c
  null : s.ptr = none → a = none ∧ t.calls = []

/-- The last call has not allocated, has said so, and has lost the block. -/
structure Failed (t : Transfer) (s : StringStruct) : Prop where
  out : t.out = some s
  null : s.ptr = none
  last : ∃ before w n, t.calls = before ++ [(w, some n)] ∧ w.alloc = none ∧
    n ≠ w.size * w.nmemb ∧ ∀ c ∈ before, c.1.alloc.isSome ∧ Taken c

section Transfer

variable {a : Alloc Byte} {t : Transfer} {s : StringStruct}

lemma going_start (a : Alloc Byte) : ∃ s, Going a (start a) s := by
  obtain ⟨s, hs, hholds, hnull⟩ := holds_initString a
  exact ⟨s, hs, hholds, by simp [start], fun h => ⟨hnull h, rfl⟩⟩

/-- A call that allocates. -/
lemma Going.act_some (h : Going a t s) {w : Write} (halloc : w.alloc.isSome)
    (hsize : (body (t.writes ++ [w])).length + 1 < 2 ^ 64) :
    ∃ s', Going a (machine.act t w) s' := by
  rw [body_concat] at hsize
  have hcall := h.holds.append halloc hsize
  set s' : StringStruct :=
    ⟨some (body t.writes ++ w.data ++ [0]), (body t.writes ++ w.data).length⟩ with hs'
  have hact : machine.act t w = ⟨some s', t.calls ++ [(w, some (w.size * w.nmemb))]⟩ := by
    simp only [machine, h.out, Option.bind_some, hcall, Option.map_some]
  refine ⟨s', by rw [hact], ?_, ?_, by simp [hs']⟩
  · rw [writes_act, body_concat]
    exact ⟨rfl, .inl rfl⟩
  · intro c hc
    rw [hact] at hc
    rcases List.mem_append.mp hc with hc | hc
    · exact h.taken c hc
    · rw [List.mem_singleton.mp hc]
      exact ⟨halloc, rfl⟩

/-- A call that does not allocate: the value that it returns is larger than every chunk. -/
lemma Going.act_none (h : Going a t s) {w : Write} (halloc : w.alloc = none)
    (hsize : (body (t.writes ++ [w])).length + 1 < 2 ^ 64) :
    ∃ s', Failed (machine.act t w) s' := by
  have hact : machine.act t w
      = ⟨some ⟨none, s.len⟩, t.calls ++ [(w, some (2 ^ 64 - 1))]⟩ := by
    simp only [machine, h.out, Option.bind_some, writeToString_fail halloc, Option.map_some]
  have hne : 2 ^ 64 - 1 ≠ w.size * w.nmemb := by
    rw [body_concat, List.length_append, w.length_data] at hsize
    omega
  exact ⟨⟨none, s.len⟩, by rw [hact], rfl, t.calls, w, _, by rw [hact], halloc, hne, h.taken⟩

/-- After a call that did not allocate there is no other. -/
lemma Failed.not_guard (h : Failed t s) (w : Write) : ¬ machine.guard t w := by
  intro hguard
  obtain ⟨before, w', n, hcalls, -, hne, -⟩ := h.last
  have htaken := hguard (w', some n) (by rw [hcalls]; simp)
  exact hne (Option.some.inj htaken)

/-- Every run goes on or has failed. -/
lemma going_or_failed (a : Alloc Byte) {ws : List Write} (hrun : machine.Allowed (start a) ws)
    (hsize : (body ws).length + 1 < 2 ^ 64) :
    ∃ s, Going a (machine.exec (start a) ws) s ∨ Failed (machine.exec (start a) ws) s := by
  have hwrites : (machine.exec (start a) ws).writes = ws := writes_exec (start a) ws
  suffices h : (body (machine.exec (start a) ws).writes).length + 1 < 2 ^ 64 →
      ∃ s, Going a (machine.exec (start a) ws) s ∨ Failed (machine.exec (start a) ws) s by
    rw [hwrites] at h
    exact h hsize
  refine hrun.induction (P := fun t => (body t.writes).length + 1 < 2 ^ 64 →
    ∃ s, Going a t s ∨ Failed t s) ?_ ?_
  · intro t w ih hguard hact
    rw [writes_act] at hact
    have hbefore : (body t.writes).length + 1 < 2 ^ 64 := by
      rw [body_concat, List.length_append] at hact
      omega
    obtain ⟨s, hgoing | hfailed⟩ := ih hbefore
    · cases halloc : w.alloc with
      | none => exact (hgoing.act_none halloc hact).imp fun _ => Or.inr
      | some _ => exact (hgoing.act_some (by rw [halloc]; rfl) hact).imp fun _ => Or.inl
    · exact absurd hguard (hfailed.not_guard w)
  · exact fun _ => (going_start a).imp fun _ => Or.inl

/-- What was allocated holds the body. -/
lemma Going.whole (h : Going a t s) (hany : a.isSome ∨ ∃ w ∈ t.writes, w.alloc.isSome) :
    s.ptr = some (body t.writes ++ [0]) := by
  rcases h.holds.ptr with hptr | ⟨hptr, -⟩
  · exact hptr
  · obtain ⟨rfl, hcalls⟩ := h.null hptr
    simp [Transfer.writes, hcalls] at hany

lemma Going.alloc_ne_none (h : Going a t s) {c : Write × Option ℕ} (hc : c ∈ t.calls) :
    c.1.alloc ≠ none := Option.isSome_iff_ne_none.mp (h.taken c hc).1

lemma Failed.exists_none (h : Failed t s) : ∃ w ∈ t.writes, w.alloc = none := by
  obtain ⟨before, w, n, hcalls, halloc, -, -⟩ := h.last
  exact ⟨w, by simp [Transfer.writes, hcalls], halloc⟩

/-- The call that has not allocated. -/
lemma Failed.eq_last (h : Failed t s) {c : Write × Option ℕ} (hc : c ∈ t.calls)
    (halloc : c.1.alloc = none) :
    t.calls.getLast? = some c ∧ ∃ n, c.2 = some n ∧ n ≠ c.1.size * c.1.nmemb := by
  obtain ⟨before, w, n, hcalls, -, hne, hbefore⟩ := h.last
  rw [hcalls] at hc ⊢
  rcases List.mem_append.mp hc with hc | hc
  · exact absurd halloc (Option.isSome_iff_ne_none.mp (hbefore c hc).1)
  · obtain rfl := List.mem_singleton.mp hc
    exact ⟨List.getLast?_concat, n, rfl, hne⟩

lemma Failed.inside (h : Failed t s) : ∀ c ∈ t.calls, c.2.isSome := by
  obtain ⟨before, w, n, hcalls, -, -, hbefore⟩ := h.last
  intro c hc
  rw [hcalls] at hc
  rcases List.mem_append.mp hc with hc | hc
  · exact Option.isSome_of_eq_some (hbefore c hc).2
  · rw [List.mem_singleton.mp hc, Option.isSome_some]

end Transfer

/-- The string `s` that the calls `ws` have left. -/
structure Assembled (a : Alloc Byte) (ws : List Write) (t : Transfer) (s : StringStruct) :
    Prop where
  out : t.out = some s
  writes : t.writes = ws
  inside : ∀ c ∈ t.calls, c.2.isSome
  whole : (∀ w ∈ ws, w.alloc.isSome) → (a.isSome ∨ ∃ w ∈ ws, w.alloc.isSome) →
    s.len = (body ws).length ∧ s.ptr = some (body ws ++ [0])
  failed : ∀ c ∈ t.calls, c.1.alloc = none →
    (t.calls.getLast? = some c ∧ ∃ n, c.2 = some n ∧ n ≠ c.1.size * c.1.nmemb) ∧
      s.ptr = none ∧ passed t = none

/-- The response does not depend on its chunks: if all calls have allocated, and anything
was allocated, the string is the body. A call that has not allocated is the last one, and
nothing is parsed. No byte is stored outside the block. -/
theorem assembled (a : Alloc Byte) {ws : List Write} (hrun : machine.Allowed (start a) ws)
    (hsize : (body ws).length + 1 < 2 ^ 64) :
    ∃ s, Assembled a ws (machine.exec (start a) ws) s := by
  have hwrites : (machine.exec (start a) ws).writes = ws := writes_exec (start a) ws
  obtain ⟨s, h⟩ := going_or_failed a hrun hsize
  generalize machine.exec (start a) ws = t at h hwrites
  subst hwrites
  refine ⟨s, ?_⟩
  rcases h with h | h
  · refine ⟨h.out, rfl, ?_, fun _ hany => ⟨h.holds.len, h.whole hany⟩, ?_⟩
    · exact fun c hc => Option.isSome_of_eq_some (h.taken c hc).2
    · exact fun c hc halloc => absurd halloc (h.alloc_ne_none hc)
  · have hpassed : passed t = none := by
      rw [passed, h.out, Option.bind_some, h.null, Option.map_none]
    refine ⟨h.out, rfl, h.inside, ?_, fun c hc halloc => ⟨h.eq_last hc halloc, h.null, hpassed⟩⟩
    intro hall
    obtain ⟨w, hw, halloc⟩ := h.exists_none
    exact absurd halloc (Option.isSome_iff_ne_none.mp (hall w hw))

/-- A response of two chunks and an empty one, where `init_string` got no block, and one
where the second chunk gets none. -/
theorem assembled_chunks :
    (∃ s, Assembled none
      [⟨1, 1, bytes "[", some fun _ => 7, rfl⟩, ⟨1, 0, [], some fun _ => 8, rfl⟩,
        ⟨2, 1, bytes "1]", some fun _ => 9, rfl⟩]
      (machine.exec (start none)
        [⟨1, 1, bytes "[", some fun _ => 7, rfl⟩, ⟨1, 0, [], some fun _ => 8, rfl⟩,
          ⟨2, 1, bytes "1]", some fun _ => 9, rfl⟩]) s) ∧
    ∃ s, Assembled (some fun _ => 7)
      [⟨1, 1, bytes "[", some fun _ => 7, rfl⟩, ⟨2, 1, bytes "1]", none, rfl⟩]
      (machine.exec (start (some fun _ => 7))
        [⟨1, 1, bytes "[", some fun _ => 7, rfl⟩, ⟨2, 1, bytes "1]", none, rfl⟩]) s :=
  ⟨assembled none (by decide) (by decide), assembled (some fun _ => 7) (by decide) (by decide)⟩

end Telegram

end Hearthbeat
