import Hearthbeat.Telegram.Api

/-!
`telegram.c`, the blocks of its calls of the API.

* `callTelegramApi`: the text that is posted, the block that libcurl has filled, and the
  parsed response. The program ends where libcurl cannot be set up, and nothing is called
  where it gives no handle. The block of libcurl is not freed (`callTelegramApi_spec`).
* `ApiCall.run`: `validate_token` and `send_message`, which delete what they have built and
  parsed, whatever was refused (`run_leaks`).
* `calls_leak`: a program loses the blocks of its responses, one for every call that gets a
  handle, and no other block; and it frees none twice.
-/

namespace Hearthbeat

namespace Telegram

open CJson CJson.Owned Pool

/-! ### The calls of the API -/

/-- What libcurl does in a call: whether it can be set up, whether it gives a handle, and the
chunks of the response. -/
structure Curl where
  global : Bool
  handle : Bool
  chunks : List (List Byte)

/-- A call of the API. The text of an object outgrows its buffer some times, and is complete or
not. -/
inductive ApiCall where
  | validateToken (curl : Curl)
  | sendMessage (userid : ℤ) (message : Str) (growths : ℕ) (complete : Bool) (curl : Curl)

/-- What libcurl does in the call. -/
def ApiCall.curl : ApiCall → Curl
  | validateToken curl => curl
  | sendMessage _ _ _ _ curl => curl

variable {D : Type} (ofInt : ℤ → D) (F : Floats D) (answers : ℕ → Bool)

/-- The pointer to the response while libcurl calls `write_to_string`, and the last block that
it has pointed to. libcurl stops where a call fails: the pointer is null then, and nothing
points to the block. -/
def writeChunks : List (List Byte) → Option ℕ → Pool → Access (Option ℕ × Option ℕ × Pool)
  | [], ptr, p => .ok (ptr, ptr, p)
  | _ :: chunks, ptr, p => do
      let (r, p) ← p.realloc answers ptr
      match r with
      | none => .ok (none, ptr, p)
      | some new => writeChunks chunks (some new) p

/-- The block of `jsondata`, if there is an object to print. -/
def jsondataBlock (data : Node D) (growths : ℕ) (complete : Bool) (p : Pool) :
    Access (Option ℕ × Pool) :=
  match data with
  | .null => .ok (none, p)
  | .item _ _ _ _ _ _ => printBlock answers growths complete p

/-- The source's `call_telegram_api`, with its blocks; a failure is its `exit`. With the response
comes the block that libcurl has filled, which the function does not free. -/
def callTelegramApi (data : Node D) (growths : ℕ) (complete : Bool) (curl : Curl) (p : Pool) :
    Access (Node D × Option ℕ × Pool) :=
  if curl.global = false then .fail
  else if curl.handle = false then .ok (.null, none, p)
  else do
    let (jsondata, p) ← jsondataBlock answers data growths complete p
    let (ptr, p) := p.malloc answers
    let (ptr, out, p) ← writeChunks answers curl.chunks ptr p
    let p ← p.freeAny jsondata
    match ptr with
    | none => .ok (.null, out, p)
    | some _ => do
        let (response, p) ← Owned.parse F answers (cstr curl.chunks.flatten) p
        .ok (response, out, p)

/-- The source's `validate_token` and `send_message`, with their blocks: what they return, and
the block of the response. -/
def ApiCall.run : ApiCall → Pool → Access (Bool × Option ℕ × Pool)
  | validateToken curl, p => do
      let (response, out, p) ← callTelegramApi F answers .null 0 true curl p
      let (valid, p) ← tokenValid response p
      .ok (valid, out, p)
  | sendMessage userid message growths complete curl, p => do
      let (data, p) ← messageObject ofInt answers userid message p
      let (response, out, p) ← callTelegramApi F answers data growths complete curl p
      let p ← data.delete p
      let (ret, p) ← messageSent response p
      .ok (ret, out, p)

/-- The calls of a program, one after the other, and the blocks of their responses. -/
def runCalls : List ApiCall → Pool → Access (List ℕ × Pool)
  | [], p => .ok ([], p)
  | c :: cs, p => do
      let (_, out, p) ← c.run ofInt F answers p
      let (outs, p) ← runCalls cs p
      .ok (out.toList ++ outs, p)

/-- The calls that get a handle. -/
def handles (cs : List ApiCall) : ℕ := cs.countP fun c => c.curl.handle

/-- The blocks `outs` are live in addition to those that were, at most `n` and just `n` if none
was refused. -/
structure Leaks (n : ℕ) (base : Multiset ℕ) (outs : List ℕ) (p : Pool) : Prop where
  live : p.live.val = ↑outs + base
  le : outs.length ≤ n
  all : (∀ i, answers i = true) → outs.length = n

/-- The call does not end the program: libcurl can be set up, and its response is no array with
an element. -/
structure Returns (curl : Curl) : Prop where
  global : curl.global = true
  response : curl.handle = true →
    ∀ x next, CJson.parse F (cstr curl.chunks.flatten) ≠ .ok (.array (.cons x next))

variable {ofInt F answers}

lemma coe_toList (ptr : Option ℕ) : (↑ptr.toList : Multiset ℕ) = block ptr := by
  cases ptr <;> rfl

lemma writeChunks_spec (chunks : List (List Byte)) {ptr : Option ℕ} {p : Pool}
    {base : Multiset ℕ} (h : p.live.val = block ptr + base)
    (hptr : (∀ i, answers i = true) → ptr.isSome = true) :
    (writeChunks answers chunks ptr p).Spec False fun r =>
      r.2.2.live.val = block r.2.1 + base ∧ ((∀ i, answers i = true) → r.2.1.isSome = true) := by
  induction chunks generalizing ptr p with
  | nil => exact ⟨h, hptr⟩
  | cons chunk chunks ih =>
      rw [writeChunks]
      refine (realloc_spec h).bind fun r hr => ?_
      obtain ⟨r, p₁⟩ := r
      rcases hr with ⟨new, rfl, h₁⟩ | ⟨rfl, h₁, -⟩
      · have hnew : p₁.live.val = block (some new) + base := h₁
        exact ih hnew fun _ => rfl
      · exact ⟨h₁, hptr⟩

lemma jsondataBlock_spec (data : Node D) (growths : ℕ) (complete : Bool) (p : Pool) :
    (jsondataBlock answers data growths complete p).Spec False fun r =>
      r.2.live.val = block r.1 + p.live.val := by
  cases data with
  | null => exact (zero_add _).symm
  | item _ _ _ _ _ _ => exact printBlock_spec growths complete p

/-- A pointer is null, or to what is parsed of the response. -/
def Responds (F : Floats D) (curl : Curl) (response : Node D) : Prop :=
  response = .null ∨ curl.handle = true ∧
    ∃ x, CJson.parse F (cstr curl.chunks.flatten) = .ok x ∧ response.items = some [(none, x)]

variable (answers) in
/-- The block of the response is all that a call leaves behind. -/
lemma callTelegramApi_spec (hF : F.Bounded) (data : Node D) (growths : ℕ) (complete : Bool)
    (curl : Curl) (p : Pool) :
    (callTelegramApi F answers data growths complete curl p).Spec (curl.global = false) fun r =>
      Responds F curl r.1 ∧ r.2.2.live.val = r.1.blocks + (block r.2.1 + p.live.val) ∧
        r.2.1.toList.length ≤ curl.handle.toNat ∧
        ((∀ i, answers i = true) → r.2.1.toList.length = curl.handle.toNat) := by
  rw [callTelegramApi]
  split_ifs with hglobal hhandle
  · exact hglobal
  · exact ⟨.inl rfl, by simp [Node.blocks, block], by simp, by simp [hhandle]⟩
  replace hhandle : curl.handle = true := by simpa using hhandle
  have hnever : ∀ {α : Type} {P : α → Prop} {r : Access α}, r.Spec False P →
      r.Spec (curl.global = false) P := fun h => by
    obtain ⟨a, rfl, ha⟩ := h.exists_ok
    exact ha
  -- the text that is posted
  refine (hnever (jsondataBlock_spec data growths complete p)).bind fun r h₁ => ?_
  obtain ⟨jsondata, p₁⟩ := r
  simp only at h₁ ⊢
  -- the block of `init_string`, and what it becomes
  obtain ⟨hinit, hgranted⟩ : (p₁.malloc answers).2.live.val
      = block (p₁.malloc answers).1 + (block jsondata + p.live.val) ∧
      ((∀ i, answers i = true) → (p₁.malloc answers).1.isSome = true) := by
    rcases p₁.malloc_cases answers with ⟨i, p₂, hmalloc, h₂⟩ | ⟨p₂, hmalloc, h₂, -⟩ <;> rw [hmalloc]
    · exact ⟨h₂.live.trans (by rw [h₁]; rfl), fun _ => rfl⟩
    · exact ⟨(h₂.trans h₁).trans (zero_add _).symm, fun hall => absurd hall (not_granted hmalloc)⟩
  refine (hnever (writeChunks_spec curl.chunks hinit hgranted)).bind fun r h₃ => ?_
  obtain ⟨ptr, out, p₃⟩ := r
  obtain ⟨hlive, hall⟩ := h₃
  simp only at hlive hall ⊢
  -- the text is freed, the block is not
  have hjsondata : p₃.live.val = block jsondata + (block out + p.live.val) := by
    rw [hlive]
    abel
  refine (hnever (freeAny_spec hjsondata)).bind fun p₄ h₄ => ?_
  have hout : out.toList.length ≤ curl.handle.toNat ∧
      ((∀ i, answers i = true) → out.toList.length = curl.handle.toNat) := by
    rw [hhandle]
    refine ⟨by cases out <;> simp, fun h => ?_⟩
    obtain ⟨i, rfl⟩ := Option.isSome_iff_exists.mp (hall h)
    rfl
  cases ptr with
  | none => exact ⟨.inl rfl, h₄.live.trans (zero_add _).symm, hout⟩
  | some i =>
      refine (hnever (Owned.parse_spec hF (cstr curl.chunks.flatten) p₄)).bind fun r hr => ?_
      rcases hr with ⟨hnull, h₅, -⟩ | ⟨x, hx, hitems, h₅⟩
      · refine ⟨.inl hnull, ?_, hout⟩
        simp only [hnull, h₅, h₄.live]
        exact (zero_add _).symm
      · exact ⟨.inr ⟨hhandle, x, hx, hitems⟩, h₅.live.trans (by rw [h₄.live]), hout⟩

/-- Only an array with an element has no member `ok` to look for. -/
lemma messageSent_cases {curl : Curl} {response : Node D} (h : Responds F curl response)
    {p : Pool} {base : Multiset ℕ} (hlive : p.live.val = response.blocks + base) :
    (∃ ret p', messageSent response p = .ok (ret, p') ∧ p'.live.val = base) ∨
      messageSent response p = .fault ∧ curl.handle = true ∧
        ∃ x next, CJson.parse F (cstr curl.chunks.flatten) = .ok (.array (.cons x next)) := by
  obtain ⟨p', hdelete, hleft⟩ := (Node.delete_spec hlive).exists_ok
  rcases h with rfl | ⟨hhandle, x, hx, hitems⟩
  · exact .inl ⟨false, p, rfl, hlive.trans (zero_add base)⟩
  have hok : okAt response = getObjectItem (bytes "ok") x := by rw [okAt, hitems]
  rw [messageSent, hok]
  rcases getObjectItem_cases (bytes "ok") x with
    ⟨child, rfl, hget⟩ | ⟨y, next, rfl, hget⟩ | ⟨-, -, hget⟩ <;> rw [hget]
  · exact .inl ⟨_, p', by rw [Access.ok_bind, hdelete, Access.ok_bind], hleft.live⟩
  · exact .inr ⟨rfl, hhandle, y, next, hx⟩
  · exact .inl ⟨_, p', by rw [Access.ok_bind, hdelete, Access.ok_bind], hleft.live⟩

variable (ofInt answers) in
/-- A call with a handle leaves the block of its response behind, unless it ends the program. -/
lemma run_leaks (hF : F.Bounded) (c : ApiCall) (p : Pool) :
    (∃ ret out p', c.run ofInt F answers p = .ok (ret, out, p') ∧
        Leaks answers (handles [c]) p.live.val out.toList p') ∨
      c.run ofInt F answers p = .fail ∧ c.curl.global = false ∨
      c.run ofInt F answers p = .fault ∧ c.curl.handle = true ∧
        ∃ x next, CJson.parse F (cstr c.curl.chunks.flatten) = .ok (.array (.cons x next)) := by
  have hhandles : handles [c] = c.curl.handle.toNat := by
    cases hc : c.curl.handle <;> simp [handles, hc]
  rw [hhandles]
  cases c with
  | validateToken curl =>
      -- `validate_token` posts nothing, so the response is all that it owns
      rw [ApiCall.run]
      obtain ⟨⟨response, out, p₁⟩, hcall, hresponds, hlive, hle, hall⟩ | ⟨hcall, hglobal⟩ :=
        (callTelegramApi_spec answers hF .null 0 true curl p).cases
      swap
      · exact .inr (.inl ⟨by rw [hcall, Access.fail_bind], hglobal⟩)
      simp only [hcall, Access.ok_bind, tokenValid_eq]
      rcases messageSent_cases hresponds hlive with ⟨ret, p₂, hend, h₂⟩ | ⟨hend, harray⟩
      · exact .inl ⟨ret, out, p₂, by simp only [hend, Access.ok_bind],
          ⟨h₂.trans (by rw [coe_toList]), hle, hall⟩⟩
      · exact .inr (.inr ⟨by rw [hend, Access.fault_bind], harray⟩)
  | sendMessage userid message growths complete curl =>
      -- `send_message` owns the object it posts as well
      obtain ⟨⟨data, p₁⟩, hobject, hfilled⟩ := (messageObject_filled ofInt answers none userid
        message p).exists_ok
      rw [ApiCall.run, hobject, Access.ok_bind]
      obtain ⟨⟨response, out, p₂⟩, hcall, hresponds, hlive, hle, hall⟩ | ⟨hcall, hglobal⟩ :=
        (callTelegramApi_spec answers hF data growths complete curl p₁).cases
      swap
      · exact .inr (.inl ⟨by simp only [hcall, Access.fail_bind], hglobal⟩)
      -- the object is deleted before the response is looked at
      have hdata : p₂.live.val
          = data.blocks + (response.blocks + (block out + p.live.val)) := by
        have hfill := hfilled.live
        simp only at hlive hfill
        rw [hlive, hfill]
        abel
      obtain ⟨p₃, hdelete, h₃⟩ := (Node.delete_spec hdata).exists_ok
      simp only [hcall, Access.ok_bind, hdelete]
      rcases messageSent_cases hresponds h₃.live with ⟨ret, p₄, hend, h₄⟩ | ⟨hend, harray⟩
      · exact .inl ⟨ret, out, p₄, by simp only [hend, Access.ok_bind],
          ⟨h₄.trans (by rw [coe_toList]), hle, hall⟩⟩
      · exact .inr (.inr ⟨by rw [hend, Access.fault_bind], harray⟩)

variable (ofInt answers) in
/-- Calls that do not end the program return. -/
lemma runCalls_returns (hF : F.Bounded) {cs : List ApiCall} (h : ∀ c ∈ cs, Returns F c.curl)
    (p : Pool) : ∃ r, runCalls ofInt F answers cs p = .ok r := by
  induction cs generalizing p with
  | nil => exact ⟨_, rfl⟩
  | cons c cs ih =>
      obtain ⟨hc, hcs⟩ := List.forall_mem_cons.mp h
      rw [runCalls]
      rcases run_leaks ofInt answers hF c p with
        ⟨ret, out, p₁, hrun, -⟩ | ⟨-, hglobal⟩ | ⟨-, hhandle, x, next, hparse⟩
      · obtain ⟨r, hrest⟩ := ih hcs p₁
        exact ⟨(out.toList ++ r.1, r.2), by simp only [hrun, hrest, Access.ok_bind]⟩
      · rw [hc.global] at hglobal
        cases hglobal
      · exact absurd hparse (hc.response hhandle x next)

variable (ofInt F answers) in
/-- Some calls and then others. -/
lemma runCalls_append (cs cs' : List ApiCall) (p : Pool) :
    runCalls ofInt F answers (cs ++ cs') p
      = runCalls ofInt F answers cs p >>= fun r =>
          runCalls ofInt F answers cs' r.2 >>= fun r' => .ok (r.1 ++ r'.1, r'.2) := by
  induction cs generalizing p with
  | nil =>
      rw [List.nil_append, runCalls, Access.ok_bind]
      cases runCalls ofInt F answers cs' p <;> rfl
  | cons c cs ih =>
      rw [List.cons_append, runCalls, runCalls]
      cases c.run ofInt F answers p with
      | fail => rfl
      | fault => rfl
      | ok r =>
          simp only [Access.ok_bind, ih]
          cases runCalls ofInt F answers cs r.2.2 with
          | fail => rfl
          | fault => rfl
          | ok outs =>
              simp only [Access.ok_bind]
              cases runCalls ofInt F answers cs' outs.2 with
              | fail => rfl
              | fault => rfl
              | ok outs' => simp only [Access.ok_bind, List.append_assoc]

/-- Whatever the calls and the answers of the allocator: no block is freed twice, and the blocks
of the responses are all that the calls leave behind, one for every call that gets a handle, or
none where one was refused. The program ends early only if libcurl cannot be set up, and faults
only at an array with an element. -/
theorem calls_leak (hF : F.Bounded) (cs : List ApiCall) (p : Pool) :
    (∃ outs p', runCalls ofInt F answers cs p = .ok (outs, p') ∧
        Leaks answers (handles cs) p.live.val outs p') ∨
      (runCalls ofInt F answers cs p = .fail ∧ ∃ c ∈ cs, c.curl.global = false) ∨
      runCalls ofInt F answers cs p = .fault ∧ ∃ c ∈ cs, c.curl.handle = true ∧ ∃ x next,
        CJson.parse F (cstr c.curl.chunks.flatten) = .ok (.array (.cons x next)) := by
  induction cs generalizing p with
  | nil => exact .inl ⟨[], p, rfl, (zero_add _).symm, le_rfl, fun _ => rfl⟩
  | cons c cs ih =>
      have hhandles : handles (c :: cs) = handles [c] + handles cs := by
        rw [handles, handles, handles, ← List.countP_append, List.singleton_append]
      rw [runCalls]
      rcases run_leaks ofInt answers hF c p with
        ⟨ret, out, p₁, hrun, hleaks⟩ | ⟨hrun, hglobal⟩ | ⟨hrun, harray⟩ <;> rw [hrun]
      · simp only [Access.ok_bind]
        rcases ih p₁ with ⟨outs, p₂, hrest, hleaks'⟩ | ⟨hrest, c', hc', h⟩ | ⟨hrest, c', hc', h⟩ <;>
          rw [hrest]
        · refine .inl ⟨out.toList ++ outs, p₂, rfl, ?_, ?_, fun hgranted => ?_⟩
          · rw [hleaks'.live, hleaks.live, ← Multiset.coe_add]
            abel
          · rw [List.length_append, hhandles]
            exact Nat.add_le_add hleaks.le hleaks'.le
          · rw [List.length_append, hhandles, hleaks.all hgranted, hleaks'.all hgranted]
        · exact .inr (.inl ⟨rfl, c', List.mem_cons_of_mem c hc', h⟩)
        · exact .inr (.inr ⟨rfl, c', List.mem_cons_of_mem c hc', h⟩)
      · exact .inr (.inl ⟨rfl, c, List.mem_cons_self, hglobal⟩)
      · exact .inr (.inr ⟨rfl, c, List.mem_cons_self, harray⟩)

/-- Two calls, the second of which gets no handle. -/
def twoCalls : List ApiCall :=
  [.validateToken ⟨true, true, [bytes "[", bytes "]"]⟩,
    .sendMessage 7 (Str.of (bytes "up")) 0 true ⟨true, false, []⟩]

theorem calls_leak_twoCalls :
    (∃ outs p', runCalls id integers (fun _ => true) twoCalls Pool.start = .ok (outs, p') ∧
        Leaks (fun _ => true) (handles twoCalls) Pool.start.live.val outs p') ∨
      (runCalls id integers (fun _ => true) twoCalls Pool.start = .fail ∧
        ∃ c ∈ twoCalls, c.curl.global = false) ∨
      runCalls id integers (fun _ => true) twoCalls Pool.start = .fault ∧
        ∃ c ∈ twoCalls, c.curl.handle = true ∧ ∃ x next,
          CJson.parse integers (cstr c.curl.chunks.flatten) = .ok (.array (.cons x next)) :=
  calls_leak integers_bounded _ _

end Telegram

end Hearthbeat
