import Hearthbeat.Text.Buffer

/-!
The receive buffer, in `handle_answer` of `monitor.c` and in the UDP branch of `beat.c`:
128 bytes on the stack, into which `recvfrom` puts a datagram and the program a NUL at
the index that `recvfrom` has returned.

* `Reception`: one such call at one of the two places, with its stores to the buffer and
  what is printed of it.
* `safe_iff`: in a sequence of receptions all stores are inside the buffer, and the text
  printed is the one received, exactly if every `recvfrom` succeeds and leaves a byte
  free. Its error -1 and a full buffer are indices too (`full_buffer`).
-/

namespace Hearthbeat

/-- Where a datagram is received: in the monitor, with the name of the target that
`get_target` finds, or in `beat`. -/
inductive Site where
  | monitor (target : Option Text)
  | beat

/-- A call of `recvfrom`: what the buffer holds before, and the payload, none where the
call fails. -/
structure Reception where
  site : Site
  stack : List Byte
  length_stack : stack.length = 128
  payload : Option (List Byte)

namespace Reception

variable (r : Reception)

/-- What `recvfrom` puts into the buffer; it cuts off what does not fit. -/
def received : List Byte := (r.payload.getD []).take r.stack.length

/-- The result of `recvfrom`. -/
def count : ℤ := if r.payload.isSome then r.received.length else -1

/-- The indices of the stores to the buffer, those of `recvfrom` and that of the NUL. -/
def stores : List ℤ := (List.range r.received.length).map (fun i : ℕ => (i : ℤ)) ++ [r.count]

/-- The buffer after the stores, none where one of them falls outside. -/
def buffer : Option (List Byte) :=
  (store r.stack 0 r.received).bind fun b => store b r.count [0]

/-- What is printed of the buffer: in the monitor, if the datagram has a target. -/
def printed : Option Text :=
  match r.site, r.payload with
  | .monitor (some _), some _ => r.buffer.map cstr
  | _, _ => none

/-- What is asked of a reception: no store outside, and behind what is printed, the bytes
received, a NUL inside the buffer. -/
structure Safe : Prop where
  inside : ∀ i ∈ r.stores, 0 ≤ i ∧ i < 128
  printed : ∀ text ∈ r.printed, ∃ payload ∈ r.payload, ∃ rest,
    r.buffer = some (payload ++ 0 :: rest) ∧ text = cstr payload

/-- A payload has come that leaves a byte of the buffer free. -/
def Fits : Prop := ∃ payload ∈ r.payload, payload.length < 128

variable {r}

lemma buffer_of_lt {payload : List Byte} (h : r.payload = some payload)
    (hlt : payload.length < 128) :
    r.buffer = some (payload ++ 0 :: r.stack.drop (payload.length + 1)) := by
  have hlength := r.length_stack
  have hreceived : r.received = payload := by
    rw [received, h, Option.getD_some, List.take_of_length_le (by omega)]
  have hcount : r.count = payload.length := by rw [count, h, hreceived]; rfl
  rw [buffer, hreceived, hcount, store_zero (by omega), Option.bind_some, store_next 0 (by omega)]

/-- One reception is safe exactly if its payload fits. -/
lemma safe_iff_fits : r.Safe ↔ r.Fits := by
  have hcount : r.count ∈ r.stores := by simp [stores]
  constructor
  · intro h
    obtain ⟨hnonneg, hlt⟩ := h.inside r.count hcount
    cases hpayload : r.payload with
    | none => simp [count, hpayload] at hnonneg
    | some payload =>
        refine ⟨payload, hpayload, ?_⟩
        have hlength := r.length_stack
        simp only [count, hpayload, Option.isSome_some, if_true, received, Option.getD_some,
          List.length_take] at hlt
        omega
  · rintro ⟨payload, hmem, hlt⟩
    have hpayload : r.payload = some payload := hmem
    have hbuffer := buffer_of_lt hpayload hlt
    refine ⟨fun i hi => ?_, fun text htext => ⟨payload, hpayload, _, hbuffer, ?_⟩⟩
    · have hreceived : r.received.length ≤ payload.length := by
        rw [received, hpayload, Option.getD_some]
        exact List.length_take_le' _ _
      simp only [stores, count, hpayload, Option.isSome_some, if_true, List.mem_append,
        List.mem_map, List.mem_range, List.mem_singleton] at hi
      rcases hi with ⟨j, hj, rfl⟩ | rfl <;> omega
    · have htext' : text = cstr (payload ++ 0 :: r.stack.drop (payload.length + 1)) := by
        simp only [Reception.printed, hpayload, hbuffer] at htext
        split at htext
        · simpa using htext.symm
        · cases htext
      rw [htext', cstr_append_zero]

/-- A sequence of receptions, at both places, is safe exactly if every `recvfrom`
succeeds with at most 127 bytes. -/
theorem safe_iff (rs : List Reception) : (∀ r ∈ rs, r.Safe) ↔ ∀ r ∈ rs, r.Fits :=
  forall₂_congr fun _ _ => safe_iff_fits

/-- A datagram as large as the buffer. -/
def full : Reception where
  site := .beat
  stack := List.replicate 128 0
  length_stack := List.length_replicate
  payload := some (List.replicate 128 1)

/-- The NUL goes behind the buffer. -/
theorem full_buffer : full.stores.getLast? = some 128 ∧ ¬ ∀ r ∈ [full], r.Safe := by
  have hlast : full.stores.getLast? = some 128 := by simp [stores, full, count, received]
  refine ⟨hlast, fun h => ?_⟩
  obtain ⟨payload, hpayload, hlt⟩ := safe_iff_fits.mp (h full (List.mem_singleton_self _))
  obtain rfl := Option.some.inj hpayload
  rw [List.length_replicate] at hlt
  omega

end Reception

end Hearthbeat
