import Hearthbeat.CJson.Build
import Hearthbeat.CJson.RoundTrip
import Hearthbeat.Telegram.Config
import Hearthbeat.Telegram.Response

/-!
`telegram.c`, what is posted to the API and what its response means, where any block may be
refused.

* `messageObject`, `jsondata`: the object that `send_message` fills, and its text, as
  `cJSON_Print` makes it.
* `response`, `validateToken`, `sendMessage`: what is parsed of the chunks that libcurl has
  handed over, and the member `ok` of it.
* `message_arrives`: whatever the message, the object that is posted has the members of the
  request and no others. A refused block may cost it a member.
* `token_accepted`: however the response is cut into chunks, it is accepted exactly if its
  blocks were granted and the first member `ok` of it is true. An array that is not empty
  makes the program fault.
-/

namespace Hearthbeat

namespace CJson

section Objects

variable {D : Type}

/-- The loop of `get_object_item` for a name in its case. -/
def Members.find (name : Text) : Members D → Option (Item D)
  | .nil => none
  | .cons s x next => if name = s.1 then some x else next.find name

/-- The source's `cJSON_GetObjectItemCaseSensitive`. The elements of an array have no names,
so that `strcmp` gets a null pointer there. -/
def getObjectItem (name : Text) : Item D → Access (Option (Item D))
  | .object child => .ok (child.find name)
  | .array (.cons _ _) => .fault
  | _ => .ok none

/-- The source's `cJSON_IsTrue`. -/
def isTrue : Option (Item D) → Bool
  | some (.bool b) => b
  | _ => false

/-- The source's `cJSON_IsBool`. -/
def isBool : Option (Item D) → Bool
  | some (.bool _) => true
  | _ => false

end Objects

end CJson

namespace Telegram

open CJson

/-! ### What is posted -/

section Posted

variable {D : Type} (ofInt : ℤ → D)

/-- An item for a value; `ofInt` makes a double of an `int`. -/
def Json.item : Json → Item D
  | .number x => .number (ofInt x)
  | .string s => .string (Str.of s)

/-- The members of the object that a request posts. -/
def Request.members (r : Request) : List (Str × Item D) :=
  (r.data.getD []).map fun f => (Str.of f.1, f.2.item ofInt)

/-- The object of `send_message`, filled. The results of the two functions that add to it are
not looked at. -/
def messageObject (answers : ℕ → Bool) (userid : ℤ) (message : Str) (p : Pool) :
    Access (Node D × Pool) := do
  let (data, p) := Owned.createObject answers p
  let (data, p) ← Owned.addNumberToObject answers data (Str.of (bytes "chat_id")) (ofInt userid) p
  Owned.addStringToObject answers data (Str.of (bytes "text")) message p

variable (F : Floats D)

/-- The `jsondata` of `call_telegram_api`; a null pointer is a failure. -/
def jsondata [DecidableEq D] (data : Node D) (allocs : ℕ → Alloc Byte) : Access (List Byte) :=
  match data.items with
  | some [(_, x)] => print F true x allocs
  | _ => .fail

/-- The object has the members of the request, unless a block was refused. -/
lemma messageObject_filled (answers : ℕ → Bool) (token : Option Text) (userid : ℤ) (message : Str)
    (p : Pool) : (messageObject ofInt answers userid message p).Spec False
      (Owned.Filled ((sendMessageRequest token userid message.1).members ofInt) p.live.val) := by
  have hmembers : (sendMessageRequest token userid message.1).members ofInt
      = [] ++ [(Str.of (bytes "chat_id"), .number (ofInt userid))]
        ++ [(Str.of (bytes "text"), .string message)] := by
    simp [Request.members, sendMessageRequest, Json.item, str_of]
  rw [hmembers]
  exact (Owned.addNumberToObject_filled answers _ _ (Owned.createObject_filled answers p)).bind
    fun r hr => Owned.addStringToObject_filled answers _ _ hr

variable {ofInt F}

variable [DecidableEq D]

/-- Every byte takes up at most six. -/
lemma length_escape_le (b : Byte) : (escape b).length ≤ 6 := by
  rw [length_escape, escapeCharacters]
  split_ifs <;> omega

lemma length_renderString_le (s : Str) : (renderString s).length ≤ 6 * s.1.length + 2 := by
  have hescapes : ∀ l : List Byte, (l.flatMap escape).length ≤ 6 * l.length := by
    intro l
    induction l with
    | nil => simp
    | cons b l ih =>
        have hb := length_escape_le b
        rw [List.flatMap_cons, List.length_append, List.length_cons]
        omega
  have hs := hescapes s.1
  rw [renderString, List.length_cons, List.length_append, List.length_singleton]
  omega

/-- An item that can be printed and read again. -/
structure Sendable (F : Floats D) (x : Item D) : Prop where
  short : (render F true 0 x).length + 2 ≤ intMax
  depth : x.depth ≤ 1000
  kept : x.kept F = x

/-- The names, the chat and the layout take up at most 54 bytes. -/
lemma sendable_message (hF : F.Exact) (token : Option Text) {userid : ℤ}
    (hid : F.finite (ofInt userid) = true) {message : Str}
    (hshort : 6 * message.1.length + 56 ≤ intMax) {kept : List (Str × Item D)}
    (hkept : kept.Sublist ((sendMessageRequest token userid message.1).members ofInt)) :
    Sendable F (.object (Members.list kept)) := by
  have htext := length_renderString_le message
  have hnumber : (renderNumber F (ofInt userid)).length ≤ 25 := by
    obtain ⟨n, hn, heq⟩ := renderNumber_eq hid
    exact heq ▸ hF.short hid hn
  have hchat : (renderString (Str.of (bytes "chat_id"))).length = 9 := rfl
  have hname : (renderString (Str.of (bytes "text"))).length = 6 := rfl
  -- each of the two members may be missing
  have hcases : kept = [] ∨ kept = [(Str.of (bytes "text"), .string message)] ∨
      kept = [(Str.of (bytes "chat_id"), .number (ofInt userid))] ∨
      kept = [(Str.of (bytes "chat_id"), .number (ofInt userid)),
        (Str.of (bytes "text"), .string message)] := by
    simp only [Request.members, sendMessageRequest, Json.item, str_of, Option.getD_some,
      List.map_cons, List.map_nil, List.sublist_cons_iff, List.sublist_nil] at hkept
    rcases hkept with (h | ⟨r, h, rfl⟩) | ⟨r, h, hr | ⟨r', rfl, rfl⟩⟩
    · exact .inl h
    · exact .inr (.inl h)
    · exact .inr (.inr (.inl (hr ▸ h)))
    · exact .inr (.inr (.inr h))
  refine ⟨?_, ?_, ?_⟩
  · rcases hcases with rfl | rfl | rfl | rfl <;>
      simp only [Members.list, render, renderMembers, Members.separator, lineBreak, tabs, nameEnd,
        if_true, List.length_cons, List.length_append, List.length_nil, List.length_replicate,
        hchat, hname] <;>
      omega
  · rcases hcases with rfl | rfl | rfl | rfl <;> simp [Members.list, Item.depth, Members.depth]
  · rcases hcases with rfl | rfl | rfl | rfl <;>
      simp [Members.list, Item.kept, Members.kept, hid]

/-- What is printed is read again; it fails only if an allocation has failed. -/
lemma Sendable.print (hF : F.Exact) {x : Item D} (h : Sendable F x) (allocs : ℕ → Alloc Byte) :
    (CJson.print F true x allocs = .fail ∧ ∃ i, allocs i = none) ∨
      ∃ body : Str, CJson.print F true x allocs = .ok (body.1 ++ [0]) ∧
        parse F body.1 = .ok x := by
  have hspec := print_spec (E := ∃ i, allocs i = none) hF true x (fun i hi => ⟨i, hi⟩)
    fun hlt => absurd h.short (by omega)
  obtain ⟨out, hprint, rfl, -⟩ | ⟨hprint, hnone⟩ := hspec.cases
  · refine .inr ⟨⟨_, Item.nul_not_mem hF 0 x⟩, hprint, ?_⟩
    have hparse := parse_text true hF x h.depth
    rwa [h.kept] at hparse
  · exact .inl ⟨hprint, hnone⟩

/-- What is posted for a message is a C string, and who parses it finds the members of the
request in it, and nothing else. One may be missing, or nothing be posted, only if a block was
refused. -/
theorem message_arrives (hF : F.Exact) (token : Option Text) {userid : ℤ}
    (hid : F.finite (ofInt userid) = true) (message : Str)
    (hshort : 6 * message.1.length + 56 ≤ intMax) (answers : ℕ → Bool) (p : Pool)
    (allocs : ℕ → Alloc Byte) :
    ∃ data p', messageObject ofInt answers userid message p = .ok (data, p') ∧
      ((jsondata F data allocs = .fail ∧ (p'.refused = true ∨ ∃ i, allocs i = none)) ∨
        ∃ (body : Str) (kept : List (Str × Item D)),
          jsondata F data allocs = .ok (body.1 ++ [0]) ∧
          parse F body.1 = .ok (.object (Members.list kept)) ∧
          kept.Sublist ((sendMessageRequest token userid message.1).members ofInt) ∧
          (p'.refused = false →
            kept = (sendMessageRequest token userid message.1).members ofInt)) := by
  obtain ⟨⟨data, p'⟩, hobject, hfilled⟩ :=
    (messageObject_filled ofInt answers token userid message p).exists_ok
  refine ⟨data, p', hobject, ?_⟩
  rcases hfilled.object with ⟨rfl, hfailed⟩ | ⟨kept, hkept, hmembers, hall⟩
  · exact .inl ⟨rfl, .inl hfailed⟩
  · have hjson : jsondata F data allocs
        = CJson.print F true (.object (Members.list kept)) allocs := by
      rw [jsondata, hmembers.items]
    rw [hjson]
    rcases (sendable_message hF token hid hshort hkept).print hF allocs with
      ⟨hprint, hnone⟩ | ⟨body, hprint, hparse⟩
    · exact .inl ⟨hprint, .inr hnone⟩
    · exact .inr ⟨body, kept, hprint, hparse, hkept, hall⟩

/-- The fourth block, for the string of `text`, is not given. -/
theorem message_arrives_quoted :
    ∃ data p', messageObject id (fun i => i != 3) (-12)
        (Str.of [quote, comma, lineFeed, backslash]) Pool.start = .ok (data, p') ∧
      ((jsondata integers data (fun _ => some fun _ => 7) = .fail ∧
          (p'.refused = true ∨ ∃ i : ℕ, (fun _ => some fun _ => 7 : ℕ → Alloc Byte) i = none)) ∨
        ∃ (body : Str) (kept : List (Str × Item ℤ)),
          jsondata integers data (fun _ => some fun _ => 7) = .ok (body.1 ++ [0]) ∧
          parse integers body.1 = .ok (.object (Members.list kept)) ∧
          kept.Sublist ((sendMessageRequest none (-12)
            (Str.of [quote, comma, lineFeed, backslash]).1).members id) ∧
          (p'.refused = false → kept = (sendMessageRequest none (-12)
            (Str.of [quote, comma, lineFeed, backslash]).1).members id)) :=
  message_arrives integers_exact none (by decide) _ (by decide) _ _ _

end Posted

/-! ### What the response means -/

section Response

variable {D : Type}

/-- The member `ok` of the response at a pointer. -/
def okAt (response : Node D) : Access (Option (Item D)) :=
  match response.items with
  | some [(_, x)] => getObjectItem (bytes "ok") x
  | _ => .ok none

/-- The end of `validate_token`, which has the response. -/
def tokenValid (response : Node D) (p : Pool) : Access (Bool × Pool) := do
  let ok ← okAt response
  let p ← response.delete p
  .ok (isBool ok && isTrue ok, p)

/-- The end of `send_message`, which has the response. -/
def messageSent (response : Node D) (p : Pool) : Access (Bool × Pool) := do
  let ok ← okAt response
  let p ← response.delete p
  .ok (isTrue ok, p)

variable (F : Floats D) (answers : ℕ → Bool)

/-- What `call_telegram_api` returns after the transfer. -/
def response (t : Transfer) (p : Pool) : Access (Node D × Pool) :=
  match passed t with
  | none => .ok (.null, p)
  | some text => Owned.parse F answers text p

/-- What `validate_token` does after the transfer. -/
def validateToken (t : Transfer) (p : Pool) : Access (Bool × Pool) := do
  let (r, p) ← response F answers t p
  tokenValid r p

/-- What `send_message` does after the transfer, but for its object. -/
def sendMessage (t : Transfer) (p : Pool) : Access (Bool × Pool) := do
  let (r, p) ← response F answers t p
  messageSent r p

/-- No allocation for the response has failed, except that `init_string` may get nothing
where a chunk follows. -/
def Received (a : Alloc Byte) (ws : List Write) : Prop :=
  (∀ w ∈ ws, w.alloc.isSome) ∧ (a.isSome ∨ ws ≠ [])

/-- `cJSON_Parse` is given every block that it asks for. -/
def Granted (text : Text) (p : Pool) : Prop :=
  ∃ r, Owned.parse F answers text p = .ok r ∧ r.2.refused = false

variable {F answers} {a : Alloc Byte} {ws : List Write}

/-- What is parsed does not depend on the chunks. -/
lemma passed_eq (hrun : machine.Allowed (start a) ws) (hsize : (body ws).length + 1 < 2 ^ 64) :
    Received a ws ∧ passed (machine.exec (start a) ws) = some (cstr (body ws)) ∨
      ¬ Received a ws ∧ passed (machine.exec (start a) ws) = none := by
  have hwrites : (machine.exec (start a) ws).writes = ws := writes_exec (start a) ws
  by_cases hany : a.isSome ∨ ws ≠ []
  · obtain ⟨s, h | h⟩ := going_or_failed a hrun hsize
    · have halloc : ∀ w ∈ ws, w.alloc.isSome := fun w hw => by
        rw [← hwrites] at hw
        obtain ⟨c, hc, rfl⟩ := List.mem_map.mp hw
        exact (h.taken c hc).1
      have hsome : a.isSome ∨ ∃ w ∈ (machine.exec (start a) ws).writes, w.alloc.isSome := by
        rw [hwrites]
        refine hany.imp_right fun hne => ?_
        obtain ⟨w, hw⟩ := List.exists_mem_of_ne_nil ws hne
        exact ⟨w, hw, halloc w hw⟩
      refine .inl ⟨⟨halloc, hany⟩, ?_⟩
      rw [passed, h.out, Option.bind_some, h.whole hsome, Option.map_some, cstr_append_zero, hwrites]
    · obtain ⟨w, hw, hnone⟩ := h.exists_none
      rw [hwrites] at hw
      refine .inr ⟨fun hreceived => ?_, ?_⟩
      · exact absurd hnone (Option.isSome_iff_ne_none.mp (hreceived.1 w hw))
      · rw [passed, h.out, Option.bind_some, h.null, Option.map_none]
  · refine .inr ⟨fun hreceived => hany hreceived.2, ?_⟩
    simp only [not_or, Option.not_isSome_iff_eq_none, not_not] at hany
    obtain ⟨rfl, rfl⟩ := hany
    rfl

/-- The three kinds of responses. -/
lemma getObjectItem_cases (name : Text) (x : Item D) :
    (∃ child, x = .object child ∧ getObjectItem name x = .ok (child.find name)) ∨
      (∃ y next, x = .array (.cons y next) ∧ getObjectItem name x = .fault) ∨
      ((∀ child, x ≠ .object child) ∧ (∀ y next, x ≠ .array (.cons y next)) ∧
        getObjectItem name x = .ok none) := by
  cases x with
  | object child => exact .inl ⟨child, rfl, rfl⟩
  | array child =>
      cases child with
      | nil => exact .inr (.inr ⟨by simp, by simp, rfl⟩)
      | cons y next => exact .inr (.inl ⟨y, next, rfl, rfl⟩)
  | null => exact .inr (.inr ⟨by simp, by simp, rfl⟩)
  | bool b => exact .inr (.inr ⟨by simp, by simp, rfl⟩)
  | number d => exact .inr (.inr ⟨by simp, by simp, rfl⟩)
  | string s => exact .inr (.inr ⟨by simp, by simp, rfl⟩)

lemma isTrue_iff {ok : Option (Item D)} : isTrue ok = true ↔ ok = some (.bool true) := by
  rcases ok with - | x
  · simp [CJson.isTrue]
  · cases x <;> simp [CJson.isTrue]

/-- Only a value of the two is true. -/
lemma isBool_and_isTrue (ok : Option (Item D)) : (isBool ok && isTrue ok) = isTrue ok := by
  rcases ok with - | x
  · rfl
  · cases x <;> rfl

lemma tokenValid_eq (response : Node D) (p : Pool) :
    tokenValid response p = messageSent response p := by
  simp only [tokenValid, messageSent, isBool_and_isTrue]

/-- What the end of the two functions makes of a response. -/
lemma messageSent_iff {n : Node D} {x : Item D} {p : Pool} {base : Multiset ℕ}
    (hitems : n.items = some [(none, x)]) (hlive : p.live.val = n.blocks + base) :
    ((∃ p', messageSent n p = .ok (true, p')) ↔
        ∃ child, x = .object child ∧ child.find (bytes "ok") = some (.bool true)) ∧
      (messageSent n p = .fault ↔ ∃ y next, x = .array (.cons y next)) := by
  have hok : okAt n = getObjectItem (bytes "ok") x := by rw [okAt, hitems]
  obtain ⟨p', hdelete, -⟩ := (Node.delete_spec hlive).exists_ok
  rw [messageSent, hok]
  rcases getObjectItem_cases (bytes "ok") x with
    ⟨child, rfl, hget⟩ | ⟨y, next, rfl, hget⟩ | ⟨hobject, harray, hget⟩ <;> rw [hget]
  · simp [hdelete, isTrue_iff]
  · simp
  · simp [hdelete, CJson.isTrue, hobject, harray]

/-- A response is accepted exactly if it has arrived, no block for it was refused, and it is
an object whose first member `ok` is true, and the two functions agree on it. Its chunks do not
matter. The program faults exactly if the response is an array with an element. -/
theorem token_accepted (hF : F.Bounded) (hrun : machine.Allowed (start a) ws)
    (hsize : (body ws).length + 1 < 2 ^ 64) {p : Pool} (hp : p.refused = false) :
    ((∃ p', validateToken F answers (machine.exec (start a) ws) p = .ok (true, p')) ↔
        Received a ws ∧ Granted F answers (cstr (body ws)) p ∧
        ∃ child, parse F (cstr (body ws)) = .ok (.object child) ∧
          child.find (bytes "ok") = some (.bool true)) ∧
      (validateToken F answers (machine.exec (start a) ws) p = .fault ↔
        Received a ws ∧ Granted F answers (cstr (body ws)) p ∧
        ∃ x next, parse F (cstr (body ws)) = .ok (.array (.cons x next))) ∧
      sendMessage F answers (machine.exec (start a) ws) p
        = validateToken F answers (machine.exec (start a) ws) p := by
  have hsame : sendMessage F answers (machine.exec (start a) ws) p
      = validateToken F answers (machine.exec (start a) ws) p := by
    simp only [sendMessage, validateToken, tokenValid_eq]
  rw [← and_assoc]
  refine ⟨?_, hsame⟩
  rw [← hsame, sendMessage, response]
  rcases passed_eq hrun hsize with ⟨hreceived, hpassed⟩ | ⟨hnot, hpassed⟩ <;> rw [hpassed]
  swap
  · simp [messageSent, okAt, Node.items, Node.delete, CJson.isTrue, hnot]
  obtain ⟨⟨n, p'⟩, hparse, hcases⟩ : ∃ r, Owned.parse F answers (cstr (body ws)) p = .ok r ∧ _ :=
    (Owned.parse_spec hF (cstr (body ws)) p).exists_ok
  simp only [hparse, Access.ok_bind, hreceived, true_and]
  have hgranted : Granted F answers (cstr (body ws)) p ↔ p'.refused = false := by
    rw [Granted, hparse]
    simp
  rw [hgranted]
  rcases hcases with ⟨rfl, -, hfailed⟩ | ⟨x, hx, hitems, hleft⟩
  · -- without a response the text is no item, or a block was refused
    have hnone : ∀ y, p'.refused = false → parse F (cstr (body ws)) ≠ .ok y := by
      intro y hrefused hok
      rcases hfailed with hfail | hfailed
      · rw [hok] at hfail
        cases hfail
      · rw [hrefused] at hfailed
        cases hfailed
    constructor
    · refine iff_of_false (by simp [messageSent, okAt, Node.items, Node.delete, CJson.isTrue]) ?_
      rintro ⟨hrefused, child, hok, -⟩
      exact hnone _ hrefused hok
    · refine iff_of_false (by simp [messageSent, okAt, Node.items, Node.delete]) ?_
      rintro ⟨hrefused, y, next, hok⟩
      exact hnone _ hrefused hok
  -- a response is what `ok` is looked up in
  · obtain ⟨htrue, hfault⟩ := messageSent_iff hitems hleft.live
    have hrefused : p'.refused = false := hleft.refused.trans hp
    rw [htrue, hfault, hx]
    simp only [hrefused, true_and, Access.ok.injEq, and_self]

/-- The answer to a good token, in two chunks. -/
def goodAnswer : List Write :=
  [⟨1, 9, openBrace :: bytes "\"ok\": tr", some fun _ => 7, rfl⟩,
    ⟨3, 1, bytes "ue" ++ [closeBrace], some fun _ => 8, rfl⟩]

theorem token_accepted_chunks :
    ((∃ p', validateToken integers (fun _ => true) (machine.exec (start none) goodAnswer)
          Pool.start = .ok (true, p')) ↔
        Received none goodAnswer ∧
        Granted integers (fun _ => true) (cstr (body goodAnswer)) Pool.start ∧
        ∃ child, parse integers (cstr (body goodAnswer)) = .ok (.object child) ∧
          child.find (bytes "ok") = some (.bool true)) ∧
      (validateToken integers (fun _ => true) (machine.exec (start none) goodAnswer) Pool.start
          = .fault ↔
        Received none goodAnswer ∧
        Granted integers (fun _ => true) (cstr (body goodAnswer)) Pool.start ∧
        ∃ x next, parse integers (cstr (body goodAnswer)) = .ok (.array (.cons x next))) ∧
      sendMessage integers (fun _ => true) (machine.exec (start none) goodAnswer) Pool.start
        = validateToken integers (fun _ => true) (machine.exec (start none) goodAnswer)
            Pool.start :=
  token_accepted integers_bounded (by decide) (by decide) rfl

end Response

end Telegram

end Hearthbeat
