import JsonRpcClient.Core.Buffered
import JsonRpcClient.Core.Soundness
import JsonRpcClient.Ws.HandleMessage

/-!
# Where `params` are checked, and where they are not

The crate promises that `params` are an array or an object, if there are any (protocol.rs:38,
params.rs:85). Every way to build a message checks it, and so does the decoder of a notification
on its own, but not the decoder of incoming messages, `process_probe` (decode.rs:209). So a
notification with scalar params is delivered to the subscribers: `params_structured_iff`.
-/

namespace JsonRpc.Ws
open Json

variable {R : ResponseTypes} {Tx : Type}

/-! ## The ways to a message with params -/

inductive Source (R : ResponseTypes) (Tx : Type) where
  /-- `try_new_owned` -/
  | owned (c : Construct)
  /-- `try_new`, on whatever the buffer holds -/
  | buffered (c : Construct) (buf : Bytes)
  /-- `BatchBuilder::add_*`, then `build` -/
  | batch (p : Profile) (calls : List (BatchBuilder.Call R)) (m : RequestIdManager)
  /-- `JsonRpcNotification`'s own `Deserialize` -/
  | deserialize (s : Bytes)
  /-- `JsonRpcIncoming::try_from` -/
  | tryFrom (input : Input)
  /-- `Notification::from` on what `try_from` returned -/
  | ofIncoming (input : Input)
  /-- what `handle_message` sends to the subscribers -/
  | subscribed (p : Profile) (msg : Message) (data : Bytes) (maps : PendingMaps Tx)

/-- The params of an outgoing message. -/
def outgoingParams : JsonRpcOutgoing → Option RawValue
  | .Request r => r.params
  | .Notification n => n.params

/-- The notification in a decoded message, if it is one. -/
def incomingNotification : Result JsonRpcIncoming → Option (JsonRpcNotification RawSpan)
  | .ok (.Notification n) => some n
  | _ => none

/-- The params of every message that comes out. -/
def Source.produces (J : SerdeJson) : Source R Tx → List (Option RawValue)
  | owned c => c.tryNewOwned.toOption.toList.map outgoingParams
  | buffered c buf => (c.tryNew buf).1.toOption.toList.map outgoingParams
  | batch p calls m =>
    match ((BatchBuilder.ofCalls calls).build p m).1 with
    | .ret (.ok (some built)) => built.items.map outgoingParams
    | _ => []
  | deserialize s =>
    (Serde.fromSlice JsonRpcNotification.deserialize s).toList.map fun n =>
      n.params.map RawSpan.raw
  | tryFrom input =>
    (incomingNotification (JsonRpcIncoming.tryFrom J input)).toList.map fun n =>
      n.params.map RawSpan.raw
  | ofIncoming input =>
    (incomingNotification (JsonRpcIncoming.tryFrom J input)).toList.map fun n =>
      (Notification.of n).params
  | subscribed p msg data maps =>
    match (handleMessage p J msg data maps).sent with
    | some (.notification n) => [n.params]
    | _ => []

/-- The text that the source gives to the decoder of incoming messages. -/
def Source.received : Source R Tx → Option Bytes
  | tryFrom input => some input.text
  | ofIncoming input => some input.text
  | subscribed _ _ data _ => some data
  | _ => none

/-! ## What is decoded to a notification -/

/-- The text of an object whose members, `params` apart, are those of a notification `method`. -/
structure NotificationText (s : Bytes) (f : String → Option Located) (method : String) : Prop where
  text : ∃ t, Json.read s = some t ∧ t.value.isObject = true ∧
    Serde.struct probeFields t.root = some f
  version : ∃ x, f "jsonrpc" = some x ∧ Serde.str x = some JSONRPC_VERSION
  method : ∃ x, f "method" = some x ∧ Serde.str x = some method
  id : f "id" = none
  result : f "result" = none
  error : ∀ x, f "error" = some x → x.value = .null

/-- A notification whose `params` is a string, a number or a boolean. -/
def NotifiesScalar (s : Bytes) : Prop :=
  ∃ f method x, NotificationText s f method ∧ f "params" = some x ∧ x.value ≠ .null ∧
    x.value.isStructured = false ∧ isUtf8 x.value.render = true

theorem decoded_notification_iff {J : SerdeJson} {s : Bytes} {n : JsonRpcNotification RawSpan} :
    JsonRpcIncoming.tryFromBytes J s = .ok (.Notification n) ↔
      ∃ f, NotificationText s f n.method ∧
        Serde.default none (Serde.option Serde.rawValue) (f "params") = some n.params := by
  rw [JsonRpcIncoming.tryFromBytes_eq_ok]
  constructor
  · rintro (⟨-, t, es, items, -, -, -, h⟩ | ⟨hbatch, t, probe, ht, hprobe, hmsg⟩)
    · cases h
    rcases processProbe_eq_ok.1 hmsg with ⟨item, -, hitem⟩ | ⟨hnone, method, hm, hid, heq⟩
    · cases item <;> cases hitem
    cases heq
    obtain ⟨herror, hresult⟩ := probeAsResponse_eq_none.1 hnone
    obtain ⟨f, hf, hj, hi, hmeth, hp, hr, he⟩ := Probe.deserialize_eq_some.1 hprobe
    rw [hid] at hi
    rw [hm] at hmeth
    rw [hresult] at hr
    rw [herror] at he
    have hobj : t.value.isObject = true := by
      rcases Serde.struct_isStructured hf with h | h
      · exact h
      · rw [← read_eq_some_iff.1 ht, isBatch_render] at hbatch
        rw [show t.value.isArray = true from h] at hbatch; cases hbatch
    refine ⟨f, ⟨⟨t, ht, hobj, hf⟩, ?_, ?_, ?_, ?_, ?_⟩, hp⟩
    · obtain ⟨x, hx, hv⟩ := Serde.required_eq_some.1 hj
      exact ⟨x, hx, JsonRpcVersion.deserialize_eq_some.1 hv⟩
    · obtain ⟨x, hx, -, hs⟩ := Serde.optional_eq_some.1 hmeth
      exact ⟨x, hx, hs⟩
    · rcases Serde.default_eq_some.1 hi with ⟨h, -⟩ | ⟨x, -, hx⟩
      · exact h
      · exact absurd rfl (deserializeProbeId_eq_some hx).1
    · rcases Serde.default_eq_some.1 hr with ⟨h, -⟩ | ⟨x, -, hx⟩
      · exact h
      · obtain ⟨r, -, hr⟩ := Option.map_eq_some_iff.1 hx
        cases hr
    · exact Serde.optional_eq_none.1 he
  · rintro ⟨f, ⟨⟨t, ht, hobj, hf⟩, ⟨x, hx, hv⟩, ⟨y, hy, hm⟩, hid, hres, herr⟩, hp⟩
    refine .inr ⟨?_, t, ⟨{}, .Absent, some n.method, n.params, none, none⟩, ht,
      Probe.deserialize_eq_some.2 ⟨f, hf, ?_, ?_, ?_, hp, ?_, ?_⟩, ?_⟩
    · rw [← read_eq_some_iff.1 ht, isBatch_render]
      exact Value.isArray_of_isObject hobj
    · exact Serde.required_eq_some.2 ⟨x, hx, JsonRpcVersion.deserialize_eq_some.2 hv⟩
    · rw [hid]; rfl
    · refine Serde.optional_eq_some.2 ⟨y, hy, ?_, hm⟩
      obtain ⟨z, hz, -⟩ := Serde.str_eq_some.1 hm
      rw [hz]; simp
    · rw [hres]; rfl
    · exact Serde.optional_eq_none.2 herr
    · exact processProbe_eq_ok.2 (.inr ⟨rfl, n.method, rfl, rfl, rfl⟩)

/-- Params of the texts that are decoded to notifications. -/
def decodedParams (J : SerdeJson) (s : Bytes) : List (Option RawValue) :=
  (incomingNotification (JsonRpcIncoming.tryFromBytes J s)).toList.map fun n =>
    n.params.map RawSpan.raw

theorem mem_decodedParams {J : SerdeJson} {s : Bytes} {params : Option RawValue} :
    params ∈ decodedParams J s ↔
      ∃ n, JsonRpcIncoming.tryFromBytes J s = .ok (.Notification n) ∧
        n.params.map RawSpan.raw = params := by
  have hmem : ∀ n, incomingNotification (JsonRpcIncoming.tryFromBytes J s) = some n ↔
      JsonRpcIncoming.tryFromBytes J s = .ok (.Notification n) := by
    intro n
    unfold incomingNotification
    split
    · rename_i m hm; simp [hm]
    · rename_i hno
      simp only [reduceCtorEq, false_iff]
      exact hno n
  simp only [decodedParams, List.mem_map, Option.mem_toList, hmem]

/-- Nothing in the decoder of incoming messages looks at the params. -/
theorem decodedParams_structured_iff (J : SerdeJson) (s : Bytes) :
    (∀ params ∈ decodedParams J s, ∀ r ∈ params, r.json.isStructured = true) ↔
      ¬ NotifiesScalar s := by
  constructor
  · rintro h ⟨f, method, x, htext, hx, hnull, hscalar, hutf8⟩
    obtain ⟨span, hspan⟩ : ∃ span, Serde.rawValue x = some span := by simp [Serde.rawValue, hutf8]
    have hdec : JsonRpcIncoming.tryFromBytes J s = .ok (.Notification ⟨{}, method, some span⟩) :=
      decoded_notification_iff.2 ⟨f, htext, Serde.optional_eq_some.2 ⟨x, hx, hnull, hspan⟩⟩
    have hs := h (some span.raw) (mem_decodedParams.2 ⟨_, hdec, rfl⟩) span.raw rfl
    rw [Serde.rawValue_json hspan, hscalar] at hs
    cases hs
  · intro hno params hparams r hr
    obtain ⟨n, hn, rfl⟩ := mem_decodedParams.1 hparams
    obtain ⟨f, htext, hp⟩ := decoded_notification_iff.1 hn
    obtain ⟨span, hspan, rfl⟩ := Option.map_eq_some_iff.1 hr
    rw [hspan] at hp
    obtain ⟨x, hx, hnull, hraw⟩ := Serde.optional_eq_some.1 hp
    by_contra hscalar
    rw [Serde.rawValue_json hraw] at hscalar
    exact hno ⟨f, n.method, x, htext, hx, hnull, by simpa using hscalar,
      Serde.rawValue_json hraw ▸ span.raw.utf8⟩

/-- The subscribers get what is decoded to a notification, and nothing else. -/
theorem subscribed_produces (p : Profile) (J : SerdeJson) (msg : Message) (data : Bytes)
    (maps : PendingMaps Tx) :
    (Source.subscribed p msg data maps : Source R Tx).produces J = decodedParams J data := by
  simp only [Source.produces]
  split
  · rename_i n hn
    obtain ⟨m, hm, rfl⟩ := sent_notification_iff.1 hn
    simp [decodedParams, incomingNotification, hm, Notification.of]
  · rename_i hno
    have hnone : incomingNotification (JsonRpcIncoming.tryFromBytes J data) = none := by
      unfold incomingNotification
      split
      · rename_i n hn
        exact absurd (sent_notification_iff.2 ⟨n, hn, rfl⟩) (hno _)
      · rfl
    simp [decodedParams, hnone]

/-! ## What is built by the crate -/

theorem construct_structured {c : Construct} {o : Option RawValue}
    (h : ∀ r ∈ o, r.json.isStructured = true) : ∀ r ∈ outgoingParams (c.message o),
    r.json.isStructured = true := by
  cases c <;> exact h

theorem built_structured {p : Profile} {b : BatchBuilder R} {m : RequestIdManager} {built : Batch R}
    (hb : b.Valid) (h : (b.build p m).1 = .ok (some built)) :
    ∀ item ∈ built.items, ∀ r ∈ outgoingParams item, r.json.isStructured = true := by
  unfold BatchBuilder.build at h
  split at h
  · cases h
  · rcases hres : m.reserveRange p (UInt64.ofNat b.requests.length) with ⟨_ | range, m'⟩
    · simp only [hres] at h; cases h
    · simp only [hres, hb.assemble_eq] at h
      cases h
      intro item hitem
      rcases List.mem_append.1 hitem with hitem | hitem
      · obtain ⟨x, hx, rfl⟩ := List.mem_map.1 hitem
        exact hb.requests x.1 (List.of_mem_zip hx).1
      · obtain ⟨q, hq, rfl⟩ := List.mem_map.1 hitem
        exact hb.notifications q hq

theorem deserialized_structured {s : Bytes} {n : JsonRpcNotification RawSpan}
    (h : Serde.fromSlice JsonRpcNotification.deserialize s = some n) :
    ∀ r ∈ n.params, r.raw.json.isStructured = true := by
  obtain ⟨t, -, h⟩ := Option.bind_eq_some_iff.1 h
  simp only [JsonRpcNotification.deserialize, Option.bind_eq_bind, Option.bind_eq_some_iff] at h
  obtain ⟨f, -, v, -, method, -, params, hp, h⟩ := h
  cases h
  obtain ⟨x, -, hx⟩ := Serde.required_eq_some.1 hp
  simp only [deserializeParamsWith, Option.bind_eq_bind, Option.bind_eq_some_iff] at hx
  obtain ⟨o, -, ho⟩ := hx
  intro r hr
  cases o with
  | none => cases ho; cases hr
  | some span =>
    simp only at ho
    split at ho
    · rename_i hstart
      cases ho
      cases hr
      rwa [isObjectOrArray_eq r.raw.read_get] at hstart
    · cases ho

/-- **Params are structured wherever a message comes from, just when no notification with scalar
params is received.** -/
theorem params_structured_iff (J : SerdeJson) (source : Source R Tx) :
    (∀ params ∈ source.produces J, ∀ r ∈ params, r.json.isStructured = true) ↔
      ∀ s ∈ source.received, ¬ NotifiesScalar s := by
  cases source with
  | owned c =>
    refine iff_of_true ?_ (by simp [Source.received])
    simp only [Source.produces, c.tryNewOwned_eq]
    cases ho : serializeOptParams c.params with
    | error e => simp [Except.map, Except.toOption]
    | ok o =>
      simpa [Except.map, Except.toOption] using construct_structured (serializeOptParams_ok ho)
  | buffered c buf =>
    refine iff_of_true ?_ (by simp [Source.received])
    simp only [Source.produces, c.tryNew_eq buf]
    cases ho : (bufferedParams c.params buf).1 with
    | error e => simp [Except.map, Except.toOption]
    | ok o =>
      simpa [Except.map, Except.toOption] using construct_structured (bufferedParams_ok ho).2
  | batch p calls m =>
    refine iff_of_true ?_ (by simp [Source.received])
    simp only [Source.produces]
    split
    · rename_i built hbuilt
      intro params hparams
      obtain ⟨item, hitem, rfl⟩ := List.mem_map.1 hparams
      exact built_structured (BatchBuilder.valid_ofCalls calls) hbuilt item hitem
    · simp
  | deserialize s =>
    refine iff_of_true ?_ (by simp [Source.received])
    intro params hparams r hr
    obtain ⟨n, hn, rfl⟩ := List.mem_map.1 hparams
    obtain ⟨span, hspan, rfl⟩ := Option.map_eq_some_iff.1 hr
    exact deserialized_structured (Option.mem_toList.1 hn) span hspan
  | tryFrom input =>
    simp only [Source.produces, Source.received, JsonRpcIncoming.tryFrom_text, Option.mem_def,
      Option.some.injEq, forall_eq']
    exact decodedParams_structured_iff J input.text
  | ofIncoming input =>
    simp only [Source.produces, Source.received, JsonRpcIncoming.tryFrom_text, Option.mem_def,
      Option.some.injEq, forall_eq']
    exact decodedParams_structured_iff J input.text
  | subscribed p msg data maps =>
    simp only [subscribed_produces, Source.received, Option.mem_def, Option.some.injEq, forall_eq']
    exact decodedParams_structured_iff J data

def scalarNotification : String := "\x7b\"jsonrpc\":\"2.0\",\"method\":\"m\",\"params\":1\x7d"

/-- **A notification with a number for its params is decoded and delivered.** -/
theorem scalar_params_delivered :
    ∃ r : RawValue, r.json.isStructured = false ∧
      some r ∈ (Source.tryFrom (.str scalarNotification) : Source basicTypes Unit).produces
        ⟨fun _ => true⟩ ∧
      (handleMessage .checked ⟨fun _ => true⟩ (.Text scalarNotification)
        (bytesOf scalarNotification)
        (⟨∅, ∅⟩ : PendingMaps Unit)).sent = some (.notification ⟨"m", some r⟩) :=
  ⟨⟨.num ⟨false, .pos ⟨0x31, rfl⟩ [], none, none⟩, rfl⟩, rfl, by decide +kernel, by decide +kernel⟩

/-- The decoder of a notification on its own refuses the same text. -/
example : Serde.fromSlice JsonRpcNotification.deserialize (bytesOf scalarNotification) = none := by
  decide +kernel

end JsonRpc.Ws
