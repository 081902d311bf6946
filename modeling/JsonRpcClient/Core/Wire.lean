import JsonRpcClient.Json.Write
import JsonRpcClient.Core.Batch

/-!
# Outgoing messages on the wire (protocol.rs, method_id.rs, version.rs)

| here | there |
| --- | --- |
| `JsonRpcRequest.json`, `JsonRpcNotification.json` | the derived `Serialize`s, protocol.rs:42, 115 |
| `JsonRpcOutgoing.json`, `JsonRpcOutgoing.toBytes`, `batchBytes` | the untagged `Serialize` (protocol.rs:16), by `serde_json` |
| `methodIdBuf` | `MethodIdBuf` in a `Cow` (method_id.rs:33), which is deserialized as a `String` |
| `deserializeParamsWith` | `deserialize_params_with` (params.rs:88) |
| `JsonRpcNotification.deserialize` | the derived `Deserialize`, protocol.rs:115 |

`params` is left out of a message that has none, while the derived decoder of a notification has no
default for it. `round_trips_iff` is what that comes to.
-/

namespace JsonRpc
open Json

/-! ## Writing -/

/-- `Serialize for JsonRpcVersion` (version.rs:13). -/
def JsonRpcVersion.json (_ : JsonRpcVersion) : Value := .str (.ofString JSONRPC_VERSION)

def RequestId.json (id : RequestId) : Value := .num (.ofU64 id.val)

def methodJson (method : String) : Value := .str (.ofString method)

/-- `skip_serializing_if = "Option::is_none"`; a `RawValue` is written as its own text. -/
def paramsMember (params : Option RawValue) : List (String × Value) :=
  (params.map fun r => ("params", r.json)).toList

def JsonRpcRequest.members (r : JsonRpcRequest) : List (String × Value) :=
  [("jsonrpc", r.jsonrpc.json), ("id", r.id.json), ("method", methodJson r.method)] ++
    paramsMember r.params

def JsonRpcRequest.json (r : JsonRpcRequest) : Value := .compactObj r.members

def JsonRpcNotification.members (n : JsonRpcNotification RawValue) : List (String × Value) :=
  [("jsonrpc", n.jsonrpc.json), ("method", methodJson n.method)] ++ paramsMember n.params

def JsonRpcNotification.json (n : JsonRpcNotification RawValue) : Value := .compactObj n.members

def JsonRpcOutgoing.json : JsonRpcOutgoing → Value
  | .Request r => r.json
  | .Notification n => n.json

def JsonRpcOutgoing.toBytes (m : JsonRpcOutgoing) : Bytes := m.json.render

/-- `try_from_string_omits_params_when_none` (protocol.rs:213). -/
example : JsonRpcOutgoing.toBytes (.Request ⟨{}, ⟨1⟩, "ping", none⟩) =
    bytesOf "\x7b\"jsonrpc\":\"2.0\",\"id\":1,\"method\":\"ping\"\x7d" := by decide +kernel

/-- What is written is one JSON text. -/
theorem JsonRpcOutgoing.read_toBytes (m : JsonRpcOutgoing) :
    Json.read m.toBytes = some ⟨[], m.json, []⟩ := by
  rw [read_eq_some_iff]
  simp [Text.render, toBytes]

/-- `serde_json::to_string(&items)`, for the items of a batch. -/
def batchBytes (items : List JsonRpcOutgoing) : Bytes :=
  (Value.compactArr (items.map JsonRpcOutgoing.json)).render

/-- **A batch is written as one array of just its items**, in their order. -/
theorem batch_written (items : List JsonRpcOutgoing) :
    ∃ t es, Json.read (batchBytes items) = some t ∧ t.root.elements = some es ∧
      es.map Located.value = items.map JsonRpcOutgoing.json := by
  obtain ⟨es, hes, hvalues⟩ := elements_compactArr 0 (items.map JsonRpcOutgoing.json)
  refine ⟨⟨[], .compactArr (items.map JsonRpcOutgoing.json), []⟩, es, ?_, hes, hvalues⟩
  rw [read_eq_some_iff]
  simp [Text.render, batchBytes]

theorem isString_ofString {x : Located} {s : String} (h : x.value = .str (.ofString s)) :
    x.IsString s := ⟨_, h, Str.decode_ofString s⟩

theorem isNat_json {x : Located} {id : RequestId} (h : x.value = id.json) : x.IsNat id.toNat :=
  ⟨_, h, Number.nat?_ofU64 id.val⟩

/-- A member that is written as a string, as a number, or as it is. -/
def stringMember (n s : String) : String × (Located → Prop) := (n, fun x => x.IsString s)
def idMember (id : RequestId) : String × (Located → Prop) := ("id", fun x => x.IsNat id.toNat)
def rawMember (n : String) (r : RawValue) : String × (Located → Prop) :=
  (n, fun x => x.value = r.json)

/-- The members of a message on the wire: a request has an id, and `params` is there when it has
some. -/
def JsonRpcOutgoing.wireMembers : JsonRpcOutgoing → List (String × (Located → Prop))
  | .Request r => [stringMember "jsonrpc" "2.0", idMember r.id, stringMember "method" r.method] ++
      (r.params.map (rawMember "params")).toList
  | .Notification n => [stringMember "jsonrpc" "2.0", stringMember "method" n.method] ++
      (n.params.map (rawMember "params")).toList

/-- A written message has just its own members, wherever it stands. -/
theorem JsonRpcOutgoing.hasMembers (m : JsonRpcOutgoing) (p : Nat) :
    Located.HasMembers ⟨p, m.json⟩ m.wireMembers := by
  cases m with
  | Request r =>
    apply (hasMembers_compactObj p r.members).imp
    refine .cons ⟨rfl, fun _ => isString_ofString⟩ (.cons ⟨rfl, fun _ => isNat_json⟩
      (.cons ⟨rfl, fun _ => isString_ofString⟩ ?_))
    cases r.params with
    | none => exact .nil
    | some q => exact .cons ⟨rfl, fun _ h => h⟩ .nil
  | Notification n =>
    apply (hasMembers_compactObj p n.members).imp
    refine .cons ⟨rfl, fun _ => isString_ofString⟩ (.cons ⟨rfl, fun _ => isString_ofString⟩ ?_)
    cases n.params with
    | none => exact .nil
    | some q => exact .cons ⟨rfl, fun _ h => h⟩ .nil

/-- **A message is written as one object with just its own members.** -/
theorem JsonRpcOutgoing.written (m : JsonRpcOutgoing) :
    ∃ t, Json.read m.toBytes = some t ∧ t.root.HasMembers m.wireMembers :=
  ⟨_, m.read_toBytes, m.hasMembers 0⟩

theorem nodup_paramsMember {names : List String} (params : Option RawValue) (hnd : names.Nodup)
    (hno : "params" ∉ names) : (names ++ (paramsMember params).map Prod.fst).Nodup := by
  cases params with
  | none => simpa [paramsMember] using hnd
  | some r => simpa [paramsMember, List.nodup_append] using ⟨hnd, fun a ha h => hno (h ▸ ha)⟩

theorem JsonRpcNotification.nodup_names (n : JsonRpcNotification RawValue) :
    (n.members.map Prod.fst).Nodup := by
  rw [JsonRpcNotification.members, List.map_append]
  exact nodup_paramsMember n.params (by simp) (by simp)

/-- Any struct is filled from a written object. -/
theorem struct_compactObj {ms : List (String × Value)} (p : Nat) (names : List String)
    (hnd : (ms.map Prod.fst).Nodup) :
    ∃ f, Serde.struct names ⟨p, .compactObj ms⟩ = some f ∧
      (∀ m ∈ ms, m.1 ∈ names → ∃ x, f m.1 = some x ∧ x.value = m.2) ∧
      ∀ n ∈ names, n ∉ ms.map Prod.fst → f n = none := by
  have hms := hasMembers_compactObj p ms
  have hfst : ((ms.map fun m => (m.1, fun x : Located => x.value = m.2)).map Prod.fst) =
      ms.map Prod.fst := by rw [List.map_map]; rfl
  obtain ⟨f, hf⟩ := struct_of_hasMembers hms (by rw [hfst]; exact hnd) names
  refine ⟨f, hf, fun m hm hn => ?_, fun n hn hno => ?_⟩
  · obtain ⟨x, hx, -, hxv⟩ := field_of_mem hms hf (List.mem_map_of_mem hm) hn
    exact ⟨x, hx, hxv⟩
  · exact field_absent hms hf hn (by rw [hfst]; exact hno)

/-! ## Reading a notification back -/

/-- An owned string, so the literal may contain escape sequences. -/
def methodIdBuf (l : Located) : Option String :=
  match l.value with
  | .str s => s.decode
  | _ => none

def deserializeParamsWith (l : Located) : Option (Option RawSpan) := do
  match ← Serde.option Serde.rawValue l with
  | some r => if isObjectOrArray r.raw.get then some (some r) else none
  | none => some none

namespace JsonRpcNotification

/-- A field with `deserialize_with` and no `default` has to be there. -/
def deserialize (l : Located) : Option (JsonRpcNotification RawSpan) := do
  let f ← Serde.struct ["jsonrpc", "method", "params"] l
  let jsonrpc ← Serde.required JsonRpcVersion.deserialize (f "jsonrpc")
  let method ← Serde.required methodIdBuf (f "method")
  let params ← Serde.required deserializeParamsWith (f "params")
  return ⟨jsonrpc, method, params⟩

/-- A received notification with its params copied out. -/
def owned (n : JsonRpcNotification RawSpan) : JsonRpcNotification RawValue :=
  ⟨n.jsonrpc, n.method, n.params.map RawSpan.raw⟩

theorem version_read {x : Located} {v : JsonRpcVersion} (h : x.value = v.json) :
    JsonRpcVersion.deserialize x = some v := by
  rw [JsonRpcVersion.deserialize_eq_some, Serde.str_eq_some]
  exact ⟨_, h, by decide +kernel, Str.decode_ofString _⟩

theorem methodIdBuf_read {x : Located} {method : String} (h : x.value = methodJson method) :
    methodIdBuf x = some method := by
  unfold methodIdBuf
  rw [h]; exact Str.decode_ofString method

/-- Structured params are read back as they are written. -/
theorem deserializeParamsWith_read {x : Located} {r : RawValue} (h : x.value = r.json)
    (hr : r.json.isStructured = true) :
    deserializeParamsWith x = some (some ⟨x.start, r⟩) := by
  have hutf8 : isUtf8 x.value.render = true := by rw [h]; exact r.utf8
  have hraw : Serde.rawValue x = some ⟨x.start, r⟩ := by
    obtain ⟨start, v⟩ := x
    cases h
    simp only [Serde.rawValue, hutf8, ↓reduceDIte]
  have hopt : Serde.option Serde.rawValue x = some (some ⟨x.start, r⟩) := by
    unfold Serde.option
    split
    · rename_i hn
      rw [← h, hn] at hr; cases hr
    · rw [hraw]; rfl
  have hstart : isObjectOrArray r.get = true := by rw [isObjectOrArray_eq r.read_get, hr]
  simp only [deserializeParamsWith, hopt, Option.bind_eq_bind, Option.bind_some, hstart, ↓reduceIte]

theorem deserialize_json (n : JsonRpcNotification RawValue)
    (hn : ∀ r ∈ n.params, r.json.isStructured = true) (p : Nat) :
    (deserialize ⟨p, n.json⟩).map owned = if n.params.isSome then some n else none := by
  obtain ⟨v, method, params⟩ := n
  obtain ⟨f, hf, hmem, habsent⟩ := struct_compactObj p ["jsonrpc", "method", "params"]
    (nodup_names ⟨v, method, params⟩)
  obtain ⟨x, hx, hxv⟩ := hmem ("jsonrpc", v.json) (by simp [members]) (by simp)
  obtain ⟨y, hy, hyv⟩ := hmem ("method", methodJson method) (by simp [members]) (by simp)
  simp only at hx hxv hy hyv
  have hl : deserialize ⟨p, JsonRpcNotification.json ⟨v, method, params⟩⟩ =
      (Serde.required deserializeParamsWith (f "params")).bind fun params =>
        some ⟨v, method, params⟩ := by
    simp only [deserialize, JsonRpcNotification.json, hf, hx, hy, Serde.required, version_read hxv,
      methodIdBuf_read hyv, Option.bind_eq_bind, Option.bind_some]
    rfl
  rw [hl]
  cases params with
  | none =>
    rw [habsent "params" (by simp) (by simp [members, paramsMember])]
    rfl
  | some r =>
    obtain ⟨z, hz, hzv⟩ := hmem ("params", r.json) (by simp [members, paramsMember]) (by simp)
    simp only at hz
    simp only [hz, Serde.required, Option.bind_some, deserializeParamsWith_read hzv (hn r rfl)]
    rfl

/-- `n` is what one of the two constructors makes of a method name and params. -/
def Built (method : String) (params : Option Serialized) (n : JsonRpcNotification RawValue) :
    Prop :=
  tryNewOwned method params = .ok n ∨ ∃ buf, (tryNew method params buf).1 = .ok n

/-- It has params when it was given some, and they are structured. -/
theorem Built.params {method : String} {params : Option Serialized}
    {n : JsonRpcNotification RawValue} (h : Built method params n) :
    n.params.isSome = params.isSome ∧ ∀ r ∈ n.params, r.json.isStructured = true := by
  rcases h with h | ⟨buf, h⟩
  · cases ho : serializeOptParams params with
    | error e => simp only [tryNewOwned, ho] at h; cases h
    | ok o =>
      simp only [tryNewOwned, ho] at h
      cases h
      exact ⟨serializeOptParams_isSome ho, serializeOptParams_ok ho⟩
  · cases ho : (bufferedParams params buf).1 with
    | error e => simp only [tryNew, ho] at h; cases h
    | ok o =>
      simp only [tryNew, ho] at h
      cases h
      exact bufferedParams_ok ho

/-- **A notification is read back from its own wire form just when it was given params.** -/
theorem round_trips_iff {method : String} {params : Option Serialized}
    {n : JsonRpcNotification RawValue} (h : Built method params n) :
    (Serde.fromSlice deserialize (JsonRpcOutgoing.toBytes (.Notification n))).map owned =
      some n ↔ params.isSome = true := by
  obtain ⟨hsome, hstruct⟩ := h.params
  have hback : Serde.fromSlice deserialize (JsonRpcOutgoing.toBytes (.Notification n)) =
      deserialize ⟨0, n.json⟩ := by
    rw [Serde.fromSlice, JsonRpcOutgoing.read_toBytes]; rfl
  rw [hback, deserialize_json n hstruct, hsome]
  cases params <;> simp

theorem round_trips_iff_one :
    (Serde.fromSlice deserialize
      (bytesOf "\x7b\"jsonrpc\":\"2.0\",\"method\":\"a\\\"b\",\"params\":[1]\x7d")).map owned =
      some ⟨{}, "a\"b", RawValue.fromString "[1]"⟩ :=
  (@round_trips_iff "a\"b" (some ⟨"[1]", false⟩) ⟨{}, "a\"b", RawValue.fromString "[1]"⟩
    (.inl (by decide +kernel))).2 rfl

/-- **A notification without params is not read back.** -/
theorem bare_notification_refused :
    ∃ n, Built "m" none n ∧
      ¬ (Serde.fromSlice deserialize (JsonRpcOutgoing.toBytes (.Notification n))).map owned =
        some n :=
  ⟨⟨{}, "m", none⟩, .inl rfl, by decide +kernel⟩

end JsonRpcNotification

end JsonRpc
