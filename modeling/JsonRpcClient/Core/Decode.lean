import JsonRpcClient.Core.Error
import JsonRpcClient.Data.Traverse

/-!
# The decoder: `JsonRpcIncoming::try_from` (decode.rs)

| here | there |
| --- | --- |
| `Probe`, `ProbeId`, `ProbeError` | decode.rs:73-162 |
| `deserializeProbeId`             | `deserialize_probe_id`, through an `Option` and an untagged enum (decode.rs:136) |
| `probeAsResponse`                | `probe_as_response` (decode.rs:167) |
| `processProbe`, `processBatch`   | decode.rs:209, decode.rs:240 |
| `tryFromBytes`                   | `TryFrom<&[u8]> for JsonRpcIncoming` (decode.rs:269) |

A member borrowed as `&'a RawValue` is a `RawSpan`: the value and its offset in the input.
-/

namespace JsonRpc
open Json

/-- The zero-sized `"2.0"` marker (version.rs:11). -/
structure JsonRpcVersion where
deriving DecidableEq, Repr

/-- `JSONRPC_VERSION` (version.rs:5). -/
def JSONRPC_VERSION : String := "2.0"

/-- `Deserialize for JsonRpcVersion` (version.rs:19). -/
def JsonRpcVersion.deserialize (l : Located) : Option JsonRpcVersion := do
  if (← Serde.str l) = JSONRPC_VERSION then some {} else none

/-! ## The decoded messages (protocol.rs, decode.rs:18-29) -/

structure JsonRpcResponse where
  jsonrpc : JsonRpcVersion
  id : RequestId
  result : RawSpan
deriving DecidableEq

structure JsonRpcError where
  code : Int
  message : String
  data : Option RawSpan
deriving DecidableEq

structure JsonRpcErrorResponse where
  jsonrpc : JsonRpcVersion
  id : Option RequestId
  error : JsonRpcError
deriving DecidableEq

/-- `JsonRpcNotification` (protocol.rs:116). `Raw` is `RawSpan` when it borrows from a received
message and `RawValue` when it is built to be sent. -/
structure JsonRpcNotification (Raw : Type) where
  jsonrpc : JsonRpcVersion
  method : String
  params : Option Raw
deriving DecidableEq

/-- The public, owned form of a notification (protocol.rs:172). -/
structure Notification where
  method : String
  params : Option RawValue
deriving DecidableEq

/-- `From<JsonRpcNotification> for Notification` (protocol.rs:181). -/
def Notification.of (n : JsonRpcNotification RawSpan) : Notification :=
  ⟨n.method, n.params.map RawSpan.raw⟩

/-- `From<JsonRpcErrorResponse> for Error` (error.rs:113). -/
def Error.ofResponse (e : JsonRpcErrorResponse) : Error :=
  .RpcError e.id (.ofI64 e.error.code) e.error.message (e.error.data.map RawSpan.raw)

/-- `JsonRpcBatchResponse` (decode.rs:26). -/
inductive JsonRpcBatchResponse where
  | Response (r : JsonRpcResponse)
  | ErrorResponse (e : JsonRpcErrorResponse)
deriving DecidableEq

/-- `JsonRpcIncoming` (decode.rs:18). -/
inductive JsonRpcIncoming where
  | Response (r : JsonRpcResponse)
  | ErrorResponse (e : JsonRpcErrorResponse)
  | Notification (n : JsonRpcNotification RawSpan)
  | BatchResponse (items : List JsonRpcBatchResponse)
deriving DecidableEq

/-- The id an item of a batch reply carries. -/
def JsonRpcBatchResponse.id? : JsonRpcBatchResponse → Option RequestId
  | .Response r => some r.id
  | .ErrorResponse e => e.id

/-! ## `Probe` -/

inductive ProbeId where
  | Absent
  | Null
  | Value (id : RequestId)
  | Other
deriving DecidableEq, Repr

namespace ProbeId

def isPresent : ProbeId → Bool
  | Absent => false
  | _ => true

def value : ProbeId → Option RequestId
  | Value id => some id
  | _ => none

end ProbeId

structure ProbeError where
  code : Int
  message : String
  data : Option RawSpan
deriving DecidableEq

structure Probe where
  jsonrpc : JsonRpcVersion
  id : ProbeId
  method : Option String
  params : Option RawSpan
  result : Option RawSpan
  error : Option ProbeError
deriving DecidableEq

/-- `deserialize_probe_id`: `null`, or else the value is buffered and matched against `RequestId`
first and anything second. -/
def deserializeProbeId (J : SerdeJson) (level : Nat) (l : Located) : Option ProbeId :=
  match l.value with
  | .null => some .Null
  | v =>
    if Serde.content J level v then
      match Serde.u64 v with
      | some id => some (.Value ⟨id⟩)
      | none => some .Other
    else none

/-- `deserialize_present_raw`: a present `null` is a value too. -/
def deserializePresentRaw (l : Located) : Option (Option RawSpan) := (Serde.rawValue l).map some

def ProbeError.deserialize (l : Located) : Option ProbeError := do
  let f ← Serde.struct ["code", "message", "data"] l
  let code ← Serde.required Serde.i64 (f "code")
  let message ← Serde.required Serde.str (f "message")
  let data ← Serde.default none (Serde.option Serde.rawValue) (f "data")
  return ⟨code, message, data⟩

/-- The six fields of a probe. -/
def probeFields : List String := ["jsonrpc", "id", "method", "params", "result", "error"]

@[simp] theorem mem_probeFields {n : String} : n ∈ probeFields ↔ n = "jsonrpc" ∨ n = "id" ∨
    n = "method" ∨ n = "params" ∨ n = "result" ∨ n = "error" := by
  simp [probeFields]

/-- The derived `Deserialize for Probe`; `level` counts the arrays and objects it is inside of,
itself included. -/
def Probe.deserialize (J : SerdeJson) (level : Nat) (l : Located) : Option Probe := do
  let f ← Serde.struct probeFields l
  let jsonrpc ← Serde.required JsonRpcVersion.deserialize (f "jsonrpc")
  let id ← Serde.default .Absent (deserializeProbeId J level) (f "id")
  let method ← Serde.default none (Serde.option Serde.str) (f "method")
  let params ← Serde.default none (Serde.option Serde.rawValue) (f "params")
  let result ← Serde.default none deserializePresentRaw (f "result")
  let error ← Serde.default none (Serde.option ProbeError.deserialize) (f "error")
  return ⟨jsonrpc, id, method, params, result, error⟩

/-! ## Classification -/

def probeAsResponse (probe : Probe) : Option (Result JsonRpcBatchResponse) :=
  let numericId := probe.id.value
  match probe.error with
  | some error => some (.ok (.ErrorResponse
      ⟨probe.jsonrpc, numericId, ⟨error.code, error.message, error.data⟩⟩))
  | none =>
    match probe.result with
    | some result =>
      match numericId with
      | some id => some (.ok (.Response ⟨probe.jsonrpc, id, result⟩))
      | none =>
        some (.error (.InvalidMessage
          (if !probe.id.isPresent then "a response is missing its `id`"
           else "a response `id` is not a value this client could have issued")))
    | none => none

def JsonRpcBatchResponse.toIncoming : JsonRpcBatchResponse → JsonRpcIncoming
  | .Response r => .Response r
  | .ErrorResponse e => .ErrorResponse e

def processProbe (probe : Probe) : Result JsonRpcIncoming :=
  match probeAsResponse probe with
  | some response => response.map JsonRpcBatchResponse.toIncoming
  | none =>
    match probe.method with
    | some method =>
      if probe.id.isPresent then
        .error (.InvalidMessage
          "received a method call with an id; this client does not handle inbound requests")
      else .ok (.Notification ⟨probe.jsonrpc, method, probe.params⟩)
    | none => .error (.InvalidMessage "message has no `result`, `error`, or `method` field")

/-- One item of a batch: shaped as neither response is an error. -/
def processBatchItem (probe : Probe) : Result JsonRpcBatchResponse :=
  (probeAsResponse probe).getD (.error (.InvalidMessage "batch item has no `result` or `error`"))

def processBatch (probes : List Probe) : Result JsonRpcIncoming := do
  let items ← probes.mapM processBatchItem
  return .BatchResponse items

/-- `u8::is_ascii_whitespace`: JSON's whitespace and the form feed. -/
def isAsciiWhitespace (b : UInt8) : Bool :=
  b == 0x20 || b == 0x09 || b == 0x0a || b == 0x0c || b == 0x0d

/-- `is_batch` (decode.rs:279). -/
def isBatch (bytes : Bytes) : Bool := (bytes.find? fun b => !isAsciiWhitespace b) == some 0x5b

def JsonRpcIncoming.tryFromBytes (J : SerdeJson) (bytes : Bytes) : Result JsonRpcIncoming :=
  if isBatch bytes then do
    let probes ← serdeOk (Serde.fromSlice (Serde.vec (Probe.deserialize J 2)) bytes)
    processBatch probes
  else do
    let probe ← serdeOk (Serde.fromSlice (Probe.deserialize J 1) bytes)
    processProbe probe

/-! ## Inversion -/

theorem JsonRpcVersion.deserialize_eq_some {l : Located} {v : JsonRpcVersion} :
    JsonRpcVersion.deserialize l = some v ↔ Serde.str l = some JSONRPC_VERSION := by
  simp only [JsonRpcVersion.deserialize, Option.bind_eq_bind, Option.bind_eq_some_iff]
  constructor
  · rintro ⟨s, hs, h⟩
    split at h
    · rename_i he; rw [hs, he]
    · cases h
  · intro h
    exact ⟨_, h, by simp⟩

theorem Serde.rawValue_json {l : Located} {r : RawSpan} (h : Serde.rawValue l = some r) :
    r.raw.json = l.value := by
  unfold Serde.rawValue at h
  split at h
  · cases h; rfl
  · cases h

theorem ProbeError.deserialize_eq_some {l : Located} {e : ProbeError} :
    ProbeError.deserialize l = some e ↔
      ∃ f, Serde.struct ["code", "message", "data"] l = some f ∧
        Serde.required Serde.i64 (f "code") = some e.code ∧
        Serde.required Serde.str (f "message") = some e.message ∧
        Serde.default none (Serde.option Serde.rawValue) (f "data") = some e.data := by
  simp only [ProbeError.deserialize, Option.bind_eq_bind, Option.bind_eq_some_iff]
  constructor
  · rintro ⟨f, hf, c, hc, m, hm, d, hd, h⟩
    cases h
    exact ⟨f, hf, hc, hm, hd⟩
  · rintro ⟨f, hf, hc, hm, hd⟩
    exact ⟨f, hf, _, hc, _, hm, _, hd, rfl⟩

theorem Probe.deserialize_eq_some {J : SerdeJson} {level : Nat} {l : Located} {probe : Probe} :
    Probe.deserialize J level l = some probe ↔
      ∃ f, Serde.struct probeFields l = some f ∧
        Serde.required JsonRpcVersion.deserialize (f "jsonrpc") = some probe.jsonrpc ∧
        Serde.default .Absent (deserializeProbeId J level) (f "id") = some probe.id ∧
        Serde.default none (Serde.option Serde.str) (f "method") = some probe.method ∧
        Serde.default none (Serde.option Serde.rawValue) (f "params") = some probe.params ∧
        Serde.default none deserializePresentRaw (f "result") = some probe.result ∧
        Serde.default none (Serde.option ProbeError.deserialize)
          (f "error") = some probe.error := by
  simp only [Probe.deserialize, Option.bind_eq_bind, Option.bind_eq_some_iff]
  constructor
  · rintro ⟨f, hf, j, hj, i, hi, m, hm, p, hp, r, hr, e, he, h⟩
    cases h
    exact ⟨f, hf, hj, hi, hm, hp, hr, he⟩
  · rintro ⟨f, hf, hj, hi, hm, hp, hr, he⟩
    exact ⟨f, hf, _, hj, _, hi, _, hm, _, hp, _, hr, _, he, rfl⟩

/-- A response is an `error`, or else a `result` under a numeric id. -/
theorem probeAsResponse_eq_ok {probe : Probe} {item : JsonRpcBatchResponse} :
    probeAsResponse probe = some (.ok item) ↔
      (∃ e, probe.error = some e ∧
        item = .ErrorResponse ⟨probe.jsonrpc, probe.id.value, ⟨e.code, e.message, e.data⟩⟩) ∨
      (probe.error = none ∧ ∃ r id, probe.result = some r ∧ probe.id = .Value id ∧
        item = .Response ⟨probe.jsonrpc, id, r⟩) := by
  obtain ⟨jsonrpc, id, method, params, result, error⟩ := probe
  cases error with
  | some e => simp [probeAsResponse, eq_comm]
  | none =>
    cases result with
    | none => simp [probeAsResponse]
    | some r => cases id <;> simp [probeAsResponse, ProbeId.value, ProbeId.isPresent, eq_comm]

theorem probeAsResponse_eq_none {probe : Probe} :
    probeAsResponse probe = none ↔ probe.error = none ∧ probe.result = none := by
  obtain ⟨jsonrpc, id, method, params, result, error⟩ := probe
  cases error with
  | some e => simp [probeAsResponse]
  | none =>
    cases result with
    | none => simp [probeAsResponse]
    | some r => cases id <;> simp [probeAsResponse, ProbeId.value, ProbeId.isPresent]

theorem processBatchItem_eq_ok {probe : Probe} {item : JsonRpcBatchResponse} :
    processBatchItem probe = .ok item ↔ probeAsResponse probe = some (.ok item) := by
  unfold processBatchItem
  cases probeAsResponse probe <;> simp

theorem processProbe_eq_ok {probe : Probe} {msg : JsonRpcIncoming} :
    processProbe probe = .ok msg ↔
      (∃ item, probeAsResponse probe = some (.ok item) ∧ msg = item.toIncoming) ∨
      (probeAsResponse probe = none ∧ ∃ method, probe.method = some method ∧ probe.id = .Absent ∧
        msg = .Notification ⟨probe.jsonrpc, method, probe.params⟩) := by
  unfold processProbe
  cases probeAsResponse probe with
  | some response => cases response <;> simp [Except.map, eq_comm]
  | none =>
    cases probe.method with
    | none => simp
    | some method => cases probe.id <;> simp [ProbeId.isPresent, eq_comm]

/-- One element of a batch, decoded. -/
def DecodesItem (J : SerdeJson) (l : Located) (item : JsonRpcBatchResponse) : Prop :=
  ∃ probe, Probe.deserialize J 2 l = some probe ∧ processBatchItem probe = .ok item

theorem forall₂_decodesItem {J : SerdeJson} {es : List Located}
    {items : List JsonRpcBatchResponse} :
    List.Forall₂ (DecodesItem J) es items ↔ ∃ probes : List Probe,
      List.Forall₂ (fun l probe => Probe.deserialize J 2 l = some probe) es probes ∧
      List.Forall₂ (fun probe item => processBatchItem probe = .ok item) probes items := by
  constructor
  · intro h
    induction h with
    | nil => exact ⟨[], .nil, .nil⟩
    | cons h _ ih =>
      obtain ⟨probe, h1, h2⟩ := h
      obtain ⟨probes, ih1, ih2⟩ := ih
      exact ⟨probe :: probes, .cons h1 ih1, .cons h2 ih2⟩
  · rintro ⟨probes, h1, h2⟩
    induction h1 generalizing items with
    | nil => cases h2; exact .nil
    | cons h _ ih =>
      cases h2 with
      | cons h' h2 => exact .cons ⟨_, h, h'⟩ (ih h2)

/-- What a successful decoding says about the bytes. -/
theorem JsonRpcIncoming.tryFromBytes_eq_ok {J : SerdeJson} {s : Bytes} {msg : JsonRpcIncoming} :
    tryFromBytes J s = .ok msg ↔
      (isBatch s = true ∧ ∃ t es items, Json.read s = some t ∧ t.root.elements = some es ∧
        List.Forall₂ (DecodesItem J) es items ∧ msg = .BatchResponse items) ∨
      (isBatch s = false ∧ ∃ t probe, Json.read s = some t ∧
        Probe.deserialize J 1 t.root = some probe ∧
        processProbe probe = .ok msg) := by
  unfold tryFromBytes
  cases isBatch s with
  | false =>
    simp only [Bool.false_eq_true, ↓reduceIte, false_and, true_and, false_or]
    constructor
    · intro h
      cases hp : Serde.fromSlice (Probe.deserialize J 1) s with
      | none => rw [hp] at h; cases h
      | some probe =>
        rw [hp] at h
        obtain ⟨t, ht, hprobe⟩ := Option.bind_eq_some_iff.1 hp
        exact ⟨t, probe, ht, hprobe, h⟩
    · rintro ⟨t, probe, ht, hprobe, h⟩
      have hp : Serde.fromSlice (Probe.deserialize J 1) s = some probe :=
        Option.bind_eq_some_iff.2 ⟨t, ht, hprobe⟩
      rw [hp]; exact h
  | true =>
    simp only [↓reduceIte, true_and, Bool.true_eq_false, false_and, or_false]
    have hvec : ∀ probes, Serde.fromSlice (Serde.vec (Probe.deserialize J 2)) s = some probes ↔
        ∃ t es, Json.read s = some t ∧ t.root.elements = some es ∧
          List.Forall₂ (fun l probe => Probe.deserialize J 2 l = some probe) es probes := by
      intro probes
      simp only [Serde.fromSlice, Serde.vec, Option.bind_eq_bind, Option.bind_eq_some_iff,
        Traverse.mapM_eq_some]
      exact ⟨fun ⟨t, ht, es, hes, h⟩ => ⟨t, es, ht, hes, h⟩,
        fun ⟨t, es, ht, hes, h⟩ => ⟨t, ht, es, hes, h⟩⟩
    constructor
    · intro h
      cases hp : Serde.fromSlice (Serde.vec (Probe.deserialize J 2)) s with
      | none => rw [hp] at h; cases h
      | some probes =>
        rw [hp] at h
        obtain ⟨t, es, ht, hes, hprobes⟩ := (hvec probes).1 hp
        have h' : processBatch probes = .ok msg := h
        unfold processBatch at h'
        cases hi : probes.mapM processBatchItem with
        | error e => rw [hi] at h'; cases h'
        | ok items =>
          rw [hi] at h'
          cases h'
          exact ⟨t, es, items, ht, hes,
            forall₂_decodesItem.2 ⟨probes, hprobes, Traverse.mapM_eq_ok.1 hi⟩, rfl⟩
    · rintro ⟨t, es, items, ht, hes, hitems, rfl⟩
      obtain ⟨probes, h1, h2⟩ := forall₂_decodesItem.1 hitems
      rw [(hvec probes).2 ⟨t, es, ht, hes, h1⟩]
      show processBatch probes = _
      unfold processBatch
      rw [Traverse.mapM_eq_ok.2 h2]
      rfl

/-! ## What a message is rejected with -/

/-- The decoder's errors: the text is no message, or a message of a kind that is not accepted. -/
inductive Error.Rejects : Error → Prop
  | serde : Rejects .SerdeError
  | invalid (text : String) : Rejects (.InvalidMessage text)

theorem probeAsResponse_eq_error {probe : Probe} {e : Error}
    (h : probeAsResponse probe = some (.error e)) : e.Rejects := by
  obtain ⟨jsonrpc, id, method, params, result, error⟩ := probe
  cases error with
  | some e' => cases h
  | none =>
    cases result with
    | none => cases h
    | some r =>
      cases id <;> cases h
      all_goals exact .invalid _

theorem processProbe_eq_error {probe : Probe} {e : Error} (h : processProbe probe = .error e) :
    e.Rejects := by
  unfold processProbe at h
  split at h
  · rename_i response hprobe
    cases response with
    | error e' => cases h; exact probeAsResponse_eq_error hprobe
    | ok item => cases h
  · split at h
    · split at h <;> cases h
      exact .invalid _
    · cases h
      exact .invalid _

theorem processBatchItem_eq_error {probe : Probe} {e : Error}
    (h : processBatchItem probe = .error e) : e.Rejects := by
  unfold processBatchItem at h
  cases hprobe : probeAsResponse probe with
  | none => rw [hprobe] at h; cases h; exact .invalid _
  | some response => rw [hprobe] at h; cases h; exact probeAsResponse_eq_error hprobe

theorem JsonRpcIncoming.tryFromBytes_eq_error {J : SerdeJson} {s : Bytes} {e : Error}
    (h : tryFromBytes J s = .error e) : e.Rejects := by
  unfold tryFromBytes at h
  split at h
  · cases hp : Serde.fromSlice (Serde.vec (Probe.deserialize J 2)) s with
    | none => rw [hp] at h; cases h; exact .serde
    | some probes =>
      rw [hp] at h
      have h' : processBatch probes = .error e := h
      unfold processBatch at h'
      cases hi : probes.mapM processBatchItem with
      | error e' =>
        rw [hi] at h'
        cases h'
        obtain ⟨probe, -, hprobe⟩ := Traverse.mapM_eq_error hi
        exact processBatchItem_eq_error hprobe
      | ok items => rw [hi] at h'; cases h'
  · cases hp : Serde.fromSlice (Probe.deserialize J 1) s with
    | none => rw [hp] at h; cases h; exact .serde
    | some probe =>
      rw [hp] at h
      exact processProbe_eq_error h

/-! ## Everything borrowed is where it says -/

/-- The parts of a decoded message that borrow from the input. -/
def JsonRpcBatchResponse.spans : JsonRpcBatchResponse → List RawSpan
  | .Response r => [r.result]
  | .ErrorResponse e => e.error.data.toList

def JsonRpcIncoming.spans : JsonRpcIncoming → List RawSpan
  | .Response r => [r.result]
  | .ErrorResponse e => e.error.data.toList
  | .Notification n => n.params.toList
  | .BatchResponse items => items.flatMap JsonRpcBatchResponse.spans

theorem Serde.struct_occurs {s : Bytes} {names : List String} {l x : Located} {n : String}
    {f : String → Option Located} (hl : Occurs s l) (hf : Serde.struct names l = some f)
    (hx : f n = some x) :
    Occurs s x := by
  unfold Serde.struct at hf
  split at hf
  · rename_i fs hfs
    split at hf
    · cases hf
      obtain ⟨fld, hfld, rfl⟩ := Option.map_eq_some_iff.1 hx
      exact hl.fields hfs _ (List.mem_of_find?_eq_some hfld)
    · cases hf
  · rename_i es _ hes
    split at hf
    · cases hf
      exact hl.elements hes _ (List.mem_of_getElem? hx)
    · cases hf
  · cases hf

theorem Serde.rawValue_borrowed {s : Bytes} {l : Located} {r : RawSpan} (hl : Occurs s l)
    (h : Serde.rawValue l = some r) : r.BorrowedFrom s := by
  unfold Serde.rawValue at h
  split at h
  · cases h; exact hl
  · cases h

/-- A borrowed field of a struct. -/
theorem Serde.option_rawValue_borrowed {s : Bytes} {x : Option Located} {o : Option RawSpan}
    (hx : ∀ l, x = some l → Occurs s l)
    (h : Serde.default none (Serde.option Serde.rawValue) x = some o) :
    ∀ r ∈ o, r.BorrowedFrom s := by
  cases x with
  | none => cases h; simp
  | some l =>
    simp only [Serde.default, Serde.option] at h
    split at h
    · cases h; simp
    · obtain ⟨r, hr, rfl⟩ := Option.map_eq_some_iff.1 h
      simpa using Serde.rawValue_borrowed (hx l rfl) hr

theorem deserializePresentRaw_borrowed {s : Bytes} {x : Option Located} {o : Option RawSpan}
    (hx : ∀ l, x = some l → Occurs s l) (h : Serde.default none deserializePresentRaw x = some o) :
    ∀ r ∈ o, r.BorrowedFrom s := by
  cases x with
  | none => cases h; simp
  | some l =>
    obtain ⟨r, hr, rfl⟩ := Option.map_eq_some_iff.1 h
    simpa using Serde.rawValue_borrowed (hx l rfl) hr

/-- The borrowed members of a probe. -/
structure Probe.Borrowed (s : Bytes) (probe : Probe) : Prop where
  params : ∀ r ∈ probe.params, r.BorrowedFrom s
  result : ∀ r ∈ probe.result, r.BorrowedFrom s
  data : ∀ e ∈ probe.error, ∀ r ∈ e.data, r.BorrowedFrom s

theorem Probe.deserialize_borrowed {J : SerdeJson} {level : Nat} {s : Bytes} {l : Located}
    {probe : Probe}
    (hl : Occurs s l) (h : Probe.deserialize J level l = some probe) : probe.Borrowed s := by
  obtain ⟨f, hf, -, -, -, hp, hr, he⟩ := Probe.deserialize_eq_some.1 h
  have hfield : ∀ n x, f n = some x → Occurs s x := fun _ _ hx => Serde.struct_occurs hl hf hx
  refine ⟨Serde.option_rawValue_borrowed (hfield _) hp,
    deserializePresentRaw_borrowed (hfield _) hr, ?_⟩
  intro e hpe r hrd
  rw [Option.mem_def.1 hpe] at he
  cases hx : f "error" with
  | none => rw [hx] at he; cases he
  | some x =>
    rw [hx] at he
    simp only [Serde.default, Serde.option] at he
    split at he
    · cases he
    · obtain ⟨e', he', heq⟩ := Option.map_eq_some_iff.1 he
      cases heq
      obtain ⟨g, hg, -, -, hd⟩ := ProbeError.deserialize_eq_some.1 he'
      exact Serde.option_rawValue_borrowed
        (fun y hy => Serde.struct_occurs (hfield _ _ hx) hg hy) hd r hrd

theorem probeAsResponse_borrowed {s : Bytes} {probe : Probe} {item : JsonRpcBatchResponse}
    (hp : probe.Borrowed s) (h : probeAsResponse probe = some (.ok item)) :
    ∀ r ∈ item.spans, r.BorrowedFrom s := by
  rcases probeAsResponse_eq_ok.1 h with ⟨e, he, rfl⟩ | ⟨-, result, id, hresult, -, rfl⟩
  · intro r hr
    exact hp.data e he r (by simpa [JsonRpcBatchResponse.spans] using hr)
  · intro r hr
    simp only [JsonRpcBatchResponse.spans, List.mem_singleton] at hr
    exact hp.result r (by rw [hresult, hr]; rfl)

theorem DecodesItem.borrowed {J : SerdeJson} {s : Bytes} {l : Located} {item : JsonRpcBatchResponse}
    (hl : Occurs s l) (h : DecodesItem J l item) : ∀ r ∈ item.spans, r.BorrowedFrom s := by
  obtain ⟨probe, hprobe, hitem⟩ := h
  exact probeAsResponse_borrowed (Probe.deserialize_borrowed hl hprobe)
    (processBatchItem_eq_ok.1 hitem)

theorem processProbe_borrowed {s : Bytes} {probe : Probe} {msg : JsonRpcIncoming}
    (hp : probe.Borrowed s)
    (h : processProbe probe = .ok msg) : ∀ r ∈ msg.spans, r.BorrowedFrom s := by
  rcases processProbe_eq_ok.1 h with ⟨item, hitem, rfl⟩ | ⟨-, method, -, -, rfl⟩
  · have hspans := probeAsResponse_borrowed hp hitem
    cases item <;> exact hspans
  · exact fun r hr => hp.params r (by simpa [JsonRpcIncoming.spans] using hr)

/-- **What a decoded message borrows is written in the input at the offset it claims.** -/
theorem JsonRpcIncoming.tryFromBytes_borrowed {J : SerdeJson} {s : Bytes} {msg : JsonRpcIncoming}
    (h : tryFromBytes J s = .ok msg) : ∀ r ∈ msg.spans, r.BorrowedFrom s := by
  have hroot : ∀ t, Json.read s = some t → Occurs s t.root := by
    intro t ht
    rw [← read_eq_some_iff.1 ht]; exact Occurs.root t
  rcases tryFromBytes_eq_ok.1 h with ⟨-, t, es, items, ht, hes, hitems, rfl⟩ |
    ⟨-, t, probe, ht, hprobe, hmsg⟩
  · intro r hr
    obtain ⟨item, hitem, hr⟩ := List.mem_flatMap.1 hr
    obtain ⟨l, hl, hdec⟩ := Traverse.mem_of_forall₂ hitems hitem
    exact hdec.borrowed ((hroot t ht).elements hes l hl) r hr
  · exact processProbe_borrowed (Probe.deserialize_borrowed (hroot t ht) hprobe) hmsg

/-- So is what the items of a batch borrow. -/
theorem JsonRpcIncoming.items_borrowed {J : SerdeJson} {s : Bytes}
    {items : List JsonRpcBatchResponse} (h : tryFromBytes J s = .ok (.BatchResponse items)) :
    ∀ item ∈ items, ∀ r ∈ item.spans, r.BorrowedFrom s := by
  intro item hitem r hr
  exact tryFromBytes_borrowed h r (List.mem_flatMap.2 ⟨item, hitem, hr⟩)

end JsonRpc
