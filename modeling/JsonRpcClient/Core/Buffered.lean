import JsonRpcClient.Core.Wire

/-!
# The constructors that write into the caller's buffer (params.rs:73, protocol.rs:75, 132)

`params_to_raw_value` appends to the buffer and reads back all of it, also what was there before.
So a constructor's result depends on what the calls before it wrote. `readParams_eq_iff` is when
that makes no difference to one value, and `buffered_agrees_iff` when a whole run of calls on one
buffer gives what the constructors without a buffer give.
-/

namespace JsonRpc
open Json

/-! ## One value -/

/-- `buf` makes no difference to a value that is written behind it. -/
inductive Harmless (value : Serialized) (buf : Bytes) : Prop
  /-- nothing is read back -/
  | failed (h : value.failed = true)
  /-- an array or object, behind nothing but whitespace -/
  | structured (t : Text) (ht : Json.read (bytesOf value.written) = some t)
      (hs : t.value.isStructured = true) (hws : ∀ b ∈ buf, isWs b = true)
  /-- a text that is refused for its first character, behind one that would be too -/
  | refused (h : isObjectOrArray value.written = false) (held : String)
      (hbuf : utf8? buf = some held) (hheld : isObjectOrArray held = false)
  /-- a text that only starts like an array or object, which `serde_json` writes for no value of
  its own -/
  | malformed (h : isObjectOrArray value.written = true)
      (ht : Json.read (bytesOf value.written) = none) (held : String)
      (hbuf : utf8? buf = some held) (hheld : isObjectOrArray (held ++ value.written) = true)
      (hread : Json.read (buf ++ bytesOf value.written) = none)

theorem Harmless.isUtf8 {value : Serialized} {buf : Bytes} (h : Harmless value buf) :
    value.failed = true ∨ ∃ held, utf8? buf = some held := by
  cases h with
  | failed h => exact .inl h
  | structured t ht hs hws =>
    refine .inr (Option.isSome_iff_exists.1 (isUtf8_ascii fun b hb => ?_))
    have hb := hws b hb
    simp only [isWs, Bool.or_eq_true, beq_iff_eq] at hb
    rcases hb with ((rfl | rfl) | rfl) | rfl <;> decide
  | refused h held hbuf hheld => exact .inr ⟨held, hbuf⟩
  | malformed h ht held hbuf hheld hread => exact .inr ⟨held, hbuf⟩

/-- A blank text leaves the test on the first character to what follows it. -/
theorem isObjectOrArray_append (s t : String) : isObjectOrArray (s ++ t) =
    if trimStart s = [] then isObjectOrArray t else isObjectOrArray s := by
  cases hs : trimStart s with
  | nil =>
    have htrim : trimStart (s ++ t) = trimStart t := by
      rw [trimStart] at hs
      simp [trimStart, String.toList_append, List.dropWhile_append, hs]
    simp only [isObjectOrArray, htrim, ↓reduceIte]
  | cons c cs =>
    have htrim : trimStart (s ++ t) = c :: (cs ++ t.toList) := by
      rw [trimStart] at hs
      simp [trimStart, String.toList_append, List.dropWhile_append, hs]
    simp only [isObjectOrArray, htrim, hs, reduceCtorEq, ↓reduceIte]

theorem isObjectOrArray_append_eq_false {s t : String} (ht : isObjectOrArray t = false) :
    isObjectOrArray (s ++ t) = false ↔ isObjectOrArray s = false := by
  rw [isObjectOrArray_append]
  split
  · rename_i hs
    have : isObjectOrArray s = false := by simp [isObjectOrArray, hs]
    simp [ht, this]
  · rfl

theorem RawValue.fromString_of_read {s : String} {t : Text} (h : Json.read (bytesOf s) = some t) :
    ∃ r, RawValue.fromString s = some r ∧ r.json = t.value := by
  unfold RawValue.fromString
  split
  · rename_i t' ht
    rw [h] at ht
    cases ht; exact ⟨_, rfl, rfl⟩
  · rename_i ht; rw [h] at ht; cases ht

theorem RawValue.fromString_none {s : String} :
    RawValue.fromString s = none ↔ Json.read (bytesOf s) = none := by
  constructor
  · intro h
    cases ht : Json.read (bytesOf s) with
    | none => rfl
    | some t =>
      obtain ⟨r, hr, -⟩ := RawValue.fromString_of_read ht
      rw [h] at hr; cases hr
  · intro h
    cases hr : RawValue.fromString s with
    | none => rfl
    | some r =>
      obtain ⟨t, ht, -⟩ := RawValue.fromString_some hr
      rw [h] at ht; cases ht

theorem RawValue.json_inj {r r' : RawValue} : r.json = r'.json ↔ r = r' := by
  cases r; cases r'; simp

/-- The value is read back as if all the buffer held had been written for it. -/
theorem readParams_append {w held : String} {buf : Bytes} (hbuf : utf8? buf = some held) :
    readParams ⟨w, false⟩ (buf ++ bytesOf w) = serializeParams ⟨held ++ w, false⟩ := by
  have hall : utf8? (buf ++ bytesOf w) = some (held ++ w) := by
    rw [utf8?_eq_some_iff, bytesOf_append, utf8?_eq_some_iff.1 hbuf]
  simp only [readParams, Bool.false_eq_true, ↓reduceIte, hall, serializeParams_false]

/-- On an empty buffer the two kinds of constructors agree. -/
theorem bufferedParams_nil (params : Option Serialized) :
    (bufferedParams params []).1 = serializeOptParams params := by
  cases params with
  | none => rfl
  | some value =>
    obtain ⟨w, failed⟩ := value
    cases failed with
    | true => rfl
    | false =>
      simp only [bufferedParams, paramsToRawValue, serializeOptParams, List.nil_append]
      congr 1
      simp only [readParams, serializeParams_false, utf8?_bytesOf, Bool.false_eq_true, ↓reduceIte]

theorem serializeParams_ok_iff {s : String} {r : RawValue} :
    serializeParams ⟨s, false⟩ = .ok r ↔
      ∃ t, Json.read (bytesOf s) = some t ∧ t.value.isStructured = true ∧ r.json = t.value := by
  constructor
  · intro h
    have hr := serializeParams_ok h
    rw [serializeParams_false] at h
    split at h
    · cases h
    · obtain ⟨t, ht, hrt⟩ := RawValue.fromString_some (serdeOk_eq_ok.1 h)
      exact ⟨t, ht, hrt ▸ hr, hrt⟩
  · rintro ⟨t, ht, hs, hr⟩
    obtain ⟨r', hr', hrt⟩ := RawValue.fromString_of_read ht
    obtain rfl := RawValue.json_inj.1 (hr.trans hrt.symm)
    simp [serializeParams_false, isObjectOrArray_eq ht, hs, hr', serdeOk]

theorem serializeParams_invalid_iff {s : String} :
    serializeParams ⟨s, false⟩ = .error .InvalidParams ↔ isObjectOrArray s = false := by
  rw [serializeParams_false]
  cases isObjectOrArray s with
  | false => simp
  | true => cases RawValue.fromString s <;> simp [serdeOk]

theorem serializeParams_serde_iff {s : String} :
    serializeParams ⟨s, false⟩ = .error .SerdeError ↔
      isObjectOrArray s = true ∧ Json.read (bytesOf s) = none := by
  rw [serializeParams_false, ← RawValue.fromString_none]
  cases isObjectOrArray s with
  | false => simp
  | true => cases RawValue.fromString s <;> simp [serdeOk]

/-- **When a used buffer does no harm to one value.** -/
theorem readParams_eq_iff {value : Serialized} {buf : Bytes} :
    readParams value (buf ++ bytesOf value.written) = serializeParams value ↔
      Harmless value buf := by
  obtain ⟨w, failed⟩ := value
  cases failed with
  | true => exact iff_of_true rfl (.failed rfl)
  | false =>
    cases hbuf : utf8? buf with
    | none =>
      -- the bytes of `w` do not complete what `buf` ends with
      have hall : utf8? (buf ++ bytesOf w) = none := by
        rw [← Option.not_isSome_iff_eq_none]
        intro h
        have := isUtf8_of_append h (isUtf8_bytesOf w)
        simp [isUtf8, hbuf] at this
      refine iff_of_false ?_ ?_
      · simp only [readParams, Bool.false_eq_true, ↓reduceIte, hall, serializeParams_false]
        split
        · simp
        · cases RawValue.fromString w <;> simp [serdeOk]
      · intro h
        rcases h.isUtf8 with h | ⟨held, hheld⟩
        · cases h
        · rw [hbuf] at hheld; cases hheld
    | some held =>
      rw [readParams_append hbuf]
      have hbytes : bytesOf (held ++ w) = buf ++ bytesOf w := by
        rw [bytesOf_append, utf8?_eq_some_iff.1 hbuf]
      cases hw : isObjectOrArray w with
      | false =>
        rw [serializeParams_invalid_iff.2 hw, serializeParams_invalid_iff,
          isObjectOrArray_append_eq_false hw]
        constructor
        · exact fun h => .refused hw held hbuf h
        · intro h
          cases h with
          | failed h => cases h
          | structured t ht hs _ => rw [isObjectOrArray_eq ht, hs] at hw; cases hw
          | refused _ held' hbuf' hheld =>
            rw [hbuf] at hbuf'
            cases hbuf'; exact hheld
          | malformed h => rw [hw] at h; cases h
      | true =>
        cases ht : Json.read (bytesOf w) with
        | some t =>
          have hs : t.value.isStructured = true := by rw [← isObjectOrArray_eq ht, hw]
          obtain ⟨r, -, hr⟩ := RawValue.fromString_of_read ht
          rw [serializeParams_ok_iff.2 ⟨t, ht, hs, hr⟩, serializeParams_ok_iff, hbytes]
          constructor
          · rintro ⟨t', ht', -, hr'⟩
            refine .structured t ht hs (isWs_of_same_value hs ?_ (hr'.symm.trans hr))
            rw [read_eq_some_iff.1 ht, read_eq_some_iff.1 ht']
          · intro h
            cases h with
            | failed h => cases h
            | structured t' ht' _ hws =>
              obtain ⟨ws, rfl⟩ : ∃ ws : Ws, raw ws = buf :=
                ⟨buf.attach.map fun b => ⟨b.val, hws b.val b.property⟩, by simp [raw]⟩
              refine ⟨⟨ws ++ t.pre, t.value, t.post⟩, ?_, hs, hr⟩
              rw [read_eq_some_iff, ← read_eq_some_iff.1 ht]
              simp [Text.render, raw]
            | refused h => rw [hw] at h; cases h
            | malformed _ h => rw [ht] at h; cases h
        | none =>
          rw [serializeParams_serde_iff.2 ⟨hw, ht⟩, serializeParams_serde_iff, hbytes]
          constructor
          · exact fun h => .malformed hw ht held hbuf h.1 h.2
          · intro h
            cases h with
            | failed h => cases h
            | structured t' ht' => rw [ht] at ht'; cases ht'
            | refused h => rw [hw] at h; cases h
            | malformed _ _ held' hbuf' hheld hread =>
              rw [hbuf] at hbuf'
              cases hbuf'; exact ⟨hheld, hread⟩

/-! ## Runs of calls on one buffer -/

/-- The arguments of a constructor. -/
inductive Construct where
  | request (id : RequestId) (method : String) (params : Option Serialized)
  | notification (method : String) (params : Option Serialized)

namespace Construct

def params : Construct → Option Serialized
  | request _ _ params => params
  | notification _ params => params

/-- `try_new`, and the buffer after it. -/
def tryNew (buf : Bytes) : Construct → Result JsonRpcOutgoing × Bytes
  | request id method params =>
    ((JsonRpcRequest.tryNew id method params buf).1.map .Request,
      (JsonRpcRequest.tryNew id method params buf).2)
  | notification method params =>
    ((JsonRpcNotification.tryNew method params buf).1.map .Notification,
      (JsonRpcNotification.tryNew method params buf).2)

def tryNewOwned : Construct → Result JsonRpcOutgoing
  | request id method params => (JsonRpcRequest.tryNewOwned id method params).map .Request
  | notification method params => (JsonRpcNotification.tryNewOwned method params).map .Notification

/-- One call after the other on the same buffer. -/
def tryNewAll : Bytes → List Construct → List (Result JsonRpcOutgoing)
  | _, [] => []
  | buf, c :: calls => (c.tryNew buf).1 :: tryNewAll (c.tryNew buf).2 calls

/-- What a call adds to the buffer, whether or not it succeeds. -/
def written (c : Construct) : Bytes := c.params.elim [] fun value => bytesOf value.written

/-- The message that is made of the params. -/
def message : Construct → Option RawValue → JsonRpcOutgoing
  | request id method _, params => .Request ⟨{}, id, method, params⟩
  | notification method _, params => .Notification ⟨{}, method, params⟩

theorem tryNew_eq (c : Construct) (buf : Bytes) :
    c.tryNew buf = ((bufferedParams c.params buf).1.map c.message, buf ++ c.written) := by
  have hbuf : (bufferedParams c.params buf).2 = buf ++ c.written := by
    unfold bufferedParams written
    cases c.params <;> simp [paramsToRawValue]
  rw [← hbuf]
  cases c with
  | request id method params =>
    simp only [tryNew, JsonRpcRequest.tryNew, Construct.params]
    cases (bufferedParams params buf).1 <;> rfl
  | notification method params =>
    simp only [tryNew, JsonRpcNotification.tryNew, Construct.params]
    cases (bufferedParams params buf).1 <;> rfl

theorem tryNewOwned_eq (c : Construct) :
    c.tryNewOwned = (serializeOptParams c.params).map c.message := by
  cases c with
  | request id method params =>
    simp only [tryNewOwned, JsonRpcRequest.tryNewOwned, Construct.params]
    cases serializeOptParams params <;> rfl
  | notification method params =>
    simp only [tryNewOwned, JsonRpcNotification.tryNewOwned, Construct.params]
    cases serializeOptParams params <;> rfl

/-- The params can be told from the bytes of the message. -/
theorem message_injective (c : Construct) {o o' : Option RawValue}
    (h : (c.message o).toBytes = (c.message o').toBytes) : o = o' := by
  have hjson : (c.message o).json = (c.message o').json := by
    have hread := JsonRpcOutgoing.read_toBytes (c.message o)
    rw [h, JsonRpcOutgoing.read_toBytes] at hread
    simpa using hread.symm
  cases c <;> cases o <;> cases o' <;>
    simp [message, JsonRpcOutgoing.json, JsonRpcRequest.json, JsonRpcNotification.json,
      JsonRpcRequest.members, JsonRpcNotification.members, paramsMember, Value.compactObj,
      Members.compact] at hjson ⊢ <;>
    exact RawValue.json_inj.1 hjson

/-- Both constructors end in the same way: with the same error, or with the same bytes. -/
def Agree (buffered owned : Result JsonRpcOutgoing) : Prop :=
  buffered.map JsonRpcOutgoing.toBytes = owned.map JsonRpcOutgoing.toBytes

instance (r r' : Result JsonRpcOutgoing) : Decidable (Agree r r') :=
  inferInstanceAs (Decidable (_ = _))

/-- A step: the buffer decides by what it holds before the call. -/
theorem tryNew_agrees_iff (c : Construct) (buf : Bytes) :
    Agree (c.tryNew buf).1 c.tryNewOwned ↔ ∀ value ∈ c.params, Harmless value buf := by
  have hinj : ∀ r r' : Result (Option RawValue),
      Agree (r.map c.message) (r'.map c.message) ↔ r = r' := by
    intro r r'
    constructor
    · intro h
      cases r <;> cases r' <;> simp [Agree, Except.map] at h ⊢
      · exact h
      · exact c.message_injective h
    · rintro rfl; rfl
  rw [c.tryNew_eq buf, c.tryNewOwned_eq, hinj]
  cases c.params with
  | none => simp [bufferedParams, serializeOptParams]
  | some value =>
    have hmap : ∀ r r' : Result RawValue, r.map some = r'.map some ↔ r = r' := by
      intro r r'
      cases r <;> cases r' <;> simp [Except.map]
    simp only [bufferedParams, serializeOptParams, hmap, paramsToRawValue, readParams_eq_iff,
      Option.mem_def, Option.some.injEq, forall_eq']

/-- **When the constructors with a buffer do what the others do, call by call**: what the buffer
held at first and all that the earlier calls wrote to it is harmless to every value. -/
theorem buffered_agrees_iff (buf : Bytes) (calls : List Construct) :
    List.Forall₂ Agree (tryNewAll buf calls) (calls.map tryNewOwned) ↔
      ∀ before c after, calls = before ++ c :: after →
        ∀ value ∈ c.params, Harmless value (buf ++ before.flatMap written) := by
  induction calls generalizing buf with
  | nil => simp [tryNewAll]
  | cons c calls ih =>
    have hbuf : (c.tryNew buf).2 = buf ++ c.written := by rw [c.tryNew_eq]
    simp only [tryNewAll, List.map_cons, List.forall₂_cons, tryNew_agrees_iff, hbuf, ih]
    constructor
    · rintro ⟨hc, hcalls⟩ before c' after heq value hv
      cases before with
      | nil =>
        obtain ⟨rfl, rfl⟩ := List.cons.inj heq
        simpa using hc value hv
      | cons d before =>
        obtain ⟨rfl, rfl⟩ := List.cons.inj heq
        simpa using hcalls before c' after rfl value hv
    · intro h
      refine ⟨fun value hv => by simpa using h [] c calls rfl value hv, ?_⟩
      rintro before c' after rfl value hv
      simpa using h (c :: before) c' after rfl value hv

/-- **The second of two calls on a fresh buffer fails.** -/
theorem reused_buffer_refused :
    ¬ List.Forall₂ Agree (tryNewAll [] (List.replicate 2 (request ⟨0⟩ "m" (some ⟨"[1]", false⟩))))
      ((List.replicate 2 (request ⟨0⟩ "m" (some ⟨"[1]", false⟩))).map tryNewOwned) := by
  decide +kernel

end Construct

end JsonRpc
