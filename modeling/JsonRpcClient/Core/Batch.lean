import JsonRpcClient.Core.Params
import JsonRpcClient.Data.Arrange

/-!
# Outgoing messages and `BatchBuilder` (protocol.rs, batch.rs)

| here | there |
| --- | --- |
| `JsonRpcRequest.tryNew`, `tryNewOwned`      | protocol.rs:57-90 |
| `JsonRpcNotification.tryNew`, `tryNewOwned` | protocol.rs:131-161 |
| `BatchBuilder.addRequest`, `addNotification` | batch.rs:80-116 |
| `BatchBuilder.build`                        | batch.rs:122 |

The response types of a program are a parameter, `ResponseTypes`; `Box<dyn Any>` is a value together
with its type. The main result is `build_ok`: a builder's queue is laid out on the next ids, and
serializing the params a second time cannot fail, because `addRequest` and `addNotification` let
only structured params in (`BatchBuilder.Valid`).
-/

namespace JsonRpc
open Json

/-! ## Response types -/

/-- The `DeserializeOwned + 'static` types a program reads responses at, by their `TypeId`. -/
structure ResponseTypes where
  TypeId : Type
  decEq : DecidableEq TypeId
  Val : TypeId → Type
  /-- `serde_json::from_slice::<T>` -/
  fromSlice : (T : TypeId) → Bytes → Option (Val T)

instance (R : ResponseTypes) : DecidableEq R.TypeId := R.decEq

variable {R : ResponseTypes}

/-- `serde_json::from_str::<T>`: `from_slice` on the string's bytes. -/
def ResponseTypes.fromStr (R : ResponseTypes) (T : R.TypeId) (s : String) : Option (R.Val T) :=
  R.fromSlice T (bytesOf s)

/-- Two response types there always are: `Box<RawValue>` and `u64`. -/
inductive BasicType where
  | RawValue
  | U64
deriving DecidableEq

def basicTypes : ResponseTypes where
  TypeId := BasicType
  decEq := inferInstance
  Val
    | .RawValue => RawValue
    | .U64 => UInt64
  fromSlice
    | .RawValue => fun s => (Serde.fromSlice Serde.rawValue s).map RawSpan.raw
    | .U64 => Serde.fromSlice fun l => Serde.u64 l.value

/-- `Box<dyn Any + Send + Sync>`. -/
structure AnyBox (R : ResponseTypes) where
  type : R.TypeId
  val : R.Val type

/-- `BatchResponseItem` (batch.rs:19). -/
abbrev BatchResponseItem (R : ResponseTypes) := Result (AnyBox R)

/-- `ResponseParser` (batch.rs:15). -/
abbrev ResponseParser (R : ResponseTypes) := String → BatchResponseItem R

/-- The closure of `add_request::<T>` (batch.rs:109). -/
def parseAs (T : R.TypeId) : ResponseParser R := fun v => (serdeOk (R.fromStr T v)).map fun x =>
    ⟨T, x⟩

/-- `downcast_response::<T>` (batch.rs:45). -/
def AnyBox.downcastResponse (b : AnyBox R) (T : R.TypeId) : Result (R.Val T) :=
  if h : b.type = T then .ok (h ▸ b.val)
    else .error (.InvalidMessage "batch response type mismatch")

/-- A value parsed as `T` downcasts to `T`. -/
theorem downcastResponse_parseAs {T : R.TypeId} {v : String} {b : AnyBox R}
    (h : parseAs T v = .ok b) :
    ∃ x, b.downcastResponse T = .ok x ∧ R.fromStr T v = some x := by
  unfold parseAs at h
  cases hv : R.fromStr T v with
  | none => rw [hv] at h; cases h
  | some x =>
    rw [hv] at h
    cases h
    exact ⟨x, by simp [AnyBox.downcastResponse], rfl⟩

/-! ## Outgoing messages -/

structure JsonRpcRequest where
  jsonrpc : JsonRpcVersion
  id : RequestId
  method : String
  params : Option RawValue
deriving DecidableEq

def JsonRpcRequest.tryNewOwned (id : RequestId) (method : String) (params : Option Serialized) :
    Result JsonRpcRequest := do
  let params ← serializeOptParams params
  return ⟨{}, id, method, params⟩

/-- The params of the constructors that borrow from the caller's buffer. -/
def bufferedParams (params : Option Serialized) (buf : Bytes) : Result (Option RawValue) × Bytes :=
  match params with
  | none => (.ok none, buf)
  | some params => ((paramsToRawValue params buf).1.map some, (paramsToRawValue params buf).2)

theorem bufferedParams_ok {params : Option Serialized} {buf : Bytes} {o : Option RawValue}
    (h : (bufferedParams params buf).1 = .ok o) :
    o.isSome = params.isSome ∧ ∀ r ∈ o, r.json.isStructured = true := by
  cases params with
  | none => cases h; simp
  | some value =>
    simp only [bufferedParams, paramsToRawValue] at h
    cases hr : readParams value (buf ++ bytesOf value.written) with
    | error e => rw [hr] at h; cases h
    | ok r => rw [hr] at h; cases h; simpa using readParams_ok hr

def JsonRpcRequest.tryNew (id : RequestId) (method : String) (params : Option Serialized)
    (buf : Bytes) :
    Result JsonRpcRequest × Bytes :=
  ((bufferedParams params buf).1.map fun params => ⟨{}, id, method, params⟩,
    (bufferedParams params buf).2)

theorem JsonRpcRequest.tryNew_error {id : RequestId} {method : String} {params : Option Serialized}
    {buf : Bytes} {e : Error} (h : (tryNew id method params buf).1 = .error e) :
    e = .SerdeError ∨ e = .InvalidUTF8Str ∨ e = .InvalidParams := by
  cases params with
  | none => cases h
  | some value =>
    simp only [tryNew, bufferedParams, paramsToRawValue] at h
    cases hr : readParams value (buf ++ bytesOf value.written) with
    | error e' => rw [hr] at h; cases h; exact readParams_error hr
    | ok r => rw [hr] at h; cases h

/-- A request carries the id it is made with. -/
theorem JsonRpcRequest.tryNew_id {id : RequestId} {method : String} {params : Option Serialized}
    {buf : Bytes} {r : JsonRpcRequest} (h : (tryNew id method params buf).1 = .ok r) :
    r.id = id := by
  unfold tryNew at h
  cases hp : (bufferedParams params buf).1 with
  | error e => rw [hp] at h; cases h
  | ok o => rw [hp] at h; cases h; rfl

def JsonRpcNotification.tryNewOwned (method : String) (params : Option Serialized) :
    Result (JsonRpcNotification RawValue) := do
  let params ← serializeOptParams params
  return ⟨{}, method, params⟩

def JsonRpcNotification.tryNew (method : String) (params : Option Serialized) (buf : Bytes) :
    Result (JsonRpcNotification RawValue) × Bytes :=
  ((bufferedParams params buf).1.map fun params => ⟨{}, method, params⟩,
    (bufferedParams params buf).2)

/-- `JsonRpcOutgoing` (protocol.rs:19). -/
inductive JsonRpcOutgoing where
  | Request (r : JsonRpcRequest)
  | Notification (n : JsonRpcNotification RawValue)
deriving DecidableEq

/-! ## `BatchBuilder` -/

structure QueuedRequest (R : ResponseTypes) where
  method : String
  params : Option RawValue
  parser : ResponseParser R

structure QueuedNotification where
  method : String
  params : Option RawValue
deriving DecidableEq

/-- The wire form of a queued request. -/
def QueuedRequest.toOutgoing (q : QueuedRequest R) (id : RequestId) : JsonRpcOutgoing :=
  .Request ⟨{}, id, q.method, q.params⟩

def QueuedNotification.toOutgoing (q : QueuedNotification) : JsonRpcOutgoing :=
  .Notification ⟨{}, q.method, q.params⟩

structure Batch (R : ResponseTypes) where
  request_id_range : Option RangeInclusive
  parsers : List (ResponseParser R)
  items : List JsonRpcOutgoing

structure BatchBuilder (R : ResponseTypes) where
  requests : List (QueuedRequest R)
  notifications : List QueuedNotification

namespace BatchBuilder

/-- `BatchBuilder::new` (batch.rs:70). -/
def new : BatchBuilder R := ⟨[], []⟩

/-- What the call returns, and the builder after it. -/
def addNotification (b : BatchBuilder R) (method : String) (params : Option Serialized) :
    Result Unit × BatchBuilder R :=
  match serializeOptParams params with
  | .ok params => (.ok (), { b with notifications := b.notifications ++ [⟨method, params⟩] })
  | .error e => (.error e, b)

def addRequest (b : BatchBuilder R) (T : R.TypeId) (method : String) (params : Option Serialized) :
    Result Unit × BatchBuilder R :=
  match serializeOptParams params with
  | .ok params => (.ok (), { b with requests := b.requests ++ [⟨method, params, parseAs T⟩] })
  | .error e => (.error e, b)

/-- The loop over `self.requests.into_iter().zip(ids)` (batch.rs:133): both lists it fills. -/
def layOut : List (QueuedRequest R × RequestId) →
    Result (List JsonRpcOutgoing × List (ResponseParser R))
  | [] => .ok ([], [])
  | (q, id) :: rest => do
    let request ← JsonRpcRequest.tryNewOwned id q.method (q.params.map RawValue.serialized)
    let (items, parsers) ← layOut rest
    return (.Request request :: items, q.parser :: parsers)

/-- The loop over `self.notifications` (batch.rs:143). -/
def layOutNotifications : List QueuedNotification → Result (List JsonRpcOutgoing)
  | [] => .ok []
  | q :: rest => do
    let n ← JsonRpcNotification.tryNewOwned q.method (q.params.map RawValue.serialized)
    let items ← layOutNotifications rest
    return .Notification n :: items

/-- `build` after the ids are reserved (batch.rs:128-153). -/
def assemble (b : BatchBuilder R) (request_id_range : Option RangeInclusive) :
    Result (Batch R) := do
  let (items, parsers) ← match request_id_range with
    | some range => layOut (b.requests.zip range.ids)
    | none => .ok ([], [])
  let notifications ← layOutNotifications b.notifications
  return ⟨request_id_range, parsers, items ++ notifications⟩

/-- `build`, in a build of the given profile: its result, and the id manager after it. -/
def build (p : Profile) (b : BatchBuilder R) (idmgr : RequestIdManager) :
    Outcome (Option (Batch R)) × RequestIdManager :=
  if b.requests.isEmpty && b.notifications.isEmpty then (.ok none, idmgr)
  else
    match idmgr.reserveRange p (UInt64.ofNat b.requests.length) with
    | (none, idmgr) => (.panic, idmgr)
    | (some request_id_range, idmgr) => (.ret ((b.assemble request_id_range).map some), idmgr)

/-- Every queued `params` is an array or an object. -/
structure Valid (b : BatchBuilder R) : Prop where
  requests : ∀ q ∈ b.requests, ∀ r ∈ q.params, r.json.isStructured = true
  notifications : ∀ q ∈ b.notifications, ∀ r ∈ q.params, r.json.isStructured = true

theorem valid_new : (new : BatchBuilder R).Valid := ⟨by simp [new], by simp [new]⟩

theorem Valid.addNotification {b : BatchBuilder R} (h : b.Valid) (method : String)
    (params : Option Serialized) : (b.addNotification method params).2.Valid := by
  unfold BatchBuilder.addNotification
  split
  · rename_i o ho
    refine ⟨h.requests, fun q hq => ?_⟩
    rcases List.mem_append.1 hq with hq | hq
    · exact h.notifications q hq
    · rw [List.mem_singleton] at hq; subst hq; exact serializeOptParams_ok ho
  · exact h

theorem Valid.addRequest {b : BatchBuilder R} (h : b.Valid) (T : R.TypeId) (method : String)
    (params : Option Serialized) : (b.addRequest T method params).2.Valid := by
  unfold BatchBuilder.addRequest
  split
  · rename_i o ho
    refine ⟨fun q hq => ?_, h.notifications⟩
    rcases List.mem_append.1 hq with hq | hq
    · exact h.requests q hq
    · rw [List.mem_singleton] at hq; subst hq; exact serializeOptParams_ok ho
  · exact h

/-! ### What a builder's calls leave in it -/

/-- One call on a builder. -/
inductive Call (R : ResponseTypes) where
  | addRequest (T : R.TypeId) (method : String) (params : Option Serialized)
  | addNotification (method : String) (params : Option Serialized)

def apply (b : BatchBuilder R) : Call R → BatchBuilder R
  | .addRequest T method params => (b.addRequest T method params).2
  | .addNotification method params => (b.addNotification method params).2

/-- A new builder after a sequence of calls. -/
def ofCalls (calls : List (Call R)) : BatchBuilder R := calls.foldl apply new

/-- The type of a call that queued a request. -/
def Call.registers : Call R → Option R.TypeId
  | .addRequest T _ params => if (serializeOptParams params).toBool then some T else none
  | .addNotification .. => none

/-- The types registered by the `add_request` calls that succeeded, in order. -/
def registered (calls : List (Call R)) : List R.TypeId := calls.filterMap Call.registers

theorem Valid.apply {b : BatchBuilder R} (h : b.Valid) (call : Call R) : (b.apply call).Valid := by
  cases call with
  | addRequest T method params => exact h.addRequest T method params
  | addNotification method params => exact h.addNotification method params

theorem valid_ofCalls (calls : List (Call R)) : (ofCalls calls).Valid := by
  suffices h : ∀ b : BatchBuilder R, b.Valid →
    (calls.foldl BatchBuilder.apply b).Valid from h _ valid_new
  induction calls with
  | nil => exact fun _ h => h
  | cons call calls ih => exact fun b h => ih _ (h.apply call)

theorem parsers_apply (b : BatchBuilder R) (call : Call R) :
    (b.apply call).requests.map QueuedRequest.parser =
      b.requests.map QueuedRequest.parser ++ call.registers.toList.map parseAs := by
  cases call with
  | addRequest T method params =>
    simp only [BatchBuilder.apply, BatchBuilder.addRequest, Call.registers]
    cases serializeOptParams params <;> simp [Except.toBool]
  | addNotification method params =>
    simp only [BatchBuilder.apply, BatchBuilder.addNotification, Call.registers]
    cases serializeOptParams params <;> simp

/-- The `i`-th queued request parses its response at the `i`-th registered type. -/
theorem parsers_ofCalls (calls : List (Call R)) :
    (ofCalls calls).requests.map QueuedRequest.parser = (registered calls).map parseAs := by
  suffices h : ∀ b : BatchBuilder R,
      (calls.foldl BatchBuilder.apply b).requests.map QueuedRequest.parser =
        b.requests.map QueuedRequest.parser ++ (registered calls).map parseAs by
    simpa [ofCalls, new] using h new
  induction calls with
  | nil => simp [registered]
  | cons call calls ih =>
    intro b
    rw [List.foldl_cons, ih, parsers_apply]
    cases hc : call.registers <;> simp [registered, hc]

theorem parsers_getElem? {calls : List (Call R)} {i : Nat}
    (hi : i < (ofCalls calls).requests.length) :
    ∃ T, (registered calls)[i]? = some T ∧
      ((ofCalls calls).requests.map QueuedRequest.parser)[i]? = some (parseAs T) := by
  have hlen := congrArg List.length (parsers_ofCalls calls)
  rw [List.length_map, List.length_map] at hlen
  have hT := List.getElem?_eq_getElem (l := registered calls) (i := i) (by omega)
  exact ⟨_, hT, by rw [parsers_ofCalls, List.getElem?_map, hT]; rfl⟩

/-! ### `build` -/

theorem layOut_ok : ∀ {l : List (QueuedRequest R × RequestId)},
    (∀ x ∈ l, ∀ r ∈ x.1.params, r.json.isStructured = true) →
    layOut l = .ok (l.map fun x => x.1.toOutgoing x.2, l.map fun x => x.1.parser)
  | [], _ => rfl
  | (q, id) :: l, h => by
    have hq := serializeOptParams_raw (h (q, id) List.mem_cons_self)
    have hl := layOut_ok (l := l) fun x hx => h x (List.mem_cons_of_mem _ hx)
    simp only [layOut, JsonRpcRequest.tryNewOwned, hq, hl]
    rfl

theorem layOutNotifications_ok : ∀ {l : List QueuedNotification},
    (∀ q ∈ l, ∀ r ∈ q.params, r.json.isStructured = true) →
    layOutNotifications l = .ok (l.map QueuedNotification.toOutgoing)
  | [], _ => rfl
  | q :: l, h => by
    have hq := serializeOptParams_raw (h q List.mem_cons_self)
    have hl := layOutNotifications_ok (l := l) fun x hx => h x (List.mem_cons_of_mem _ hx)
    simp only [layOutNotifications, JsonRpcNotification.tryNewOwned, hq, hl]
    rfl

/-- With validated params only the reservation decides what `build` returns. -/
theorem Valid.assemble_eq {b : BatchBuilder R} (hb : b.Valid) (range : Option RangeInclusive) :
    b.assemble range = .ok ⟨range,
      (b.requests.zip (range.elim [] RangeInclusive.ids)).map (fun x => x.1.parser),
      (b.requests.zip (range.elim [] RangeInclusive.ids)).map (fun x => x.1.toOutgoing x.2) ++
        b.notifications.map QueuedNotification.toOutgoing⟩ := by
  have hn := layOutNotifications_ok hb.notifications
  cases range with
  | none => simp only [assemble, hn, Option.elim, List.zip_nil_right]; rfl
  | some range =>
    have hl := layOut_ok (l := b.requests.zip range.ids) fun x hx =>
      hb.requests x.1 (List.of_mem_zip hx).1
    simp only [assemble, hl, hn, Option.elim]
    rfl

/-- A built batch has one parser for each id of its range that a request is paired with. -/
theorem build_some {p : Profile} {b : BatchBuilder R} {m : RequestIdManager} {batch : Batch R}
    {range : RangeInclusive} (hb : b.Valid) (h : (b.build p m).1 = .ok (some batch))
    (hr : batch.request_id_range = some range) :
    (m.reserveRange p (UInt64.ofNat b.requests.length)).1 = some (some range) ∧
      batch.parsers = (b.requests.zip range.ids).map fun x => x.1.parser := by
  unfold build at h
  split at h
  · cases h
  · rcases hres : m.reserveRange p (UInt64.ofNat b.requests.length) with ⟨_ | o, m'⟩
    · simp only [hres] at h; cases h
    · simp only [hres, hb.assemble_eq] at h
      cases h
      simp only at hr
      subst hr
      exact ⟨rfl, rfl⟩

/-- A batch of notifications reserves nothing. -/
theorem build_notifications (p : Profile) {b : BatchBuilder R} (m : RequestIdManager)
    (hb : b.Valid) (hreq : b.requests = []) (hn : b.notifications ≠ []) :
    b.build p m =
      (.ok (some ⟨none, [], b.notifications.map QueuedNotification.toOutgoing⟩), m) := by
  have hne : b.notifications.isEmpty = false := by simpa using hn
  simp only [build, hreq, List.isEmpty_nil, hne, Bool.true_and, Bool.false_eq_true, ↓reduceIte,
    List.length_nil, show UInt64.ofNat 0 = 0 from rfl, RequestIdManager.reserveRange_zero,
    hb.assemble_eq]
  rfl

/-- A built batch with a request in it has a range. -/
theorem build_range {p : Profile} {b : BatchBuilder R} {m : RequestIdManager} {batch : Batch R}
    (hb : b.Valid) (hlen : b.requests.length < 2 ^ 64) (h : (b.build p m).1 = .ok (some batch))
    (hrange : batch.request_id_range = none) : b.requests = [] := by
  unfold build at h
  split at h
  · cases h
  · rcases hres : m.reserveRange p (UInt64.ofNat b.requests.length) with ⟨_ | o, m'⟩
    · simp only [hres] at h; cases h
    · simp only [hres, hb.assemble_eq] at h
      cases h
      simp only at hrange
      subst hrange
      -- only a reservation of nothing has no range
      unfold RequestIdManager.reserveRange at hres
      split at hres
      · rename_i hcount
        have hzero := congrArg UInt64.toNat hcount
        rw [UInt64.toNat_ofNat_of_lt' hlen] at hzero
        exact List.length_eq_zero_iff.1 hzero
      · simp only at hres
        split at hres <;> cases hres

/-- **`build` lays the queue out on the next ids**, whatever was queued, as long as the ids last. -/
theorem build_ok {p : Profile} {b : BatchBuilder R} {m : RequestIdManager} (hb : b.Valid)
    (h0 : 0 < b.requests.length) (hm : m.current_id.toNat + b.requests.length < 2 ^ 64) :
    ∃ range : RangeInclusive, range.start.toNat = m.current_id.toNat ∧
      range.last.toNat + 1 = m.current_id.toNat + b.requests.length ∧
      b.build p m = (.ok (some ⟨some range, b.requests.map QueuedRequest.parser,
        (b.requests.zip range.ids).map (fun x => x.1.toOutgoing x.2) ++
          b.notifications.map QueuedNotification.toOutgoing⟩),
        ⟨m.current_id + UInt64.ofNat b.requests.length⟩) := by
  have hcount : (UInt64.ofNat b.requests.length).toNat = b.requests.length :=
    UInt64.toNat_ofNat_of_lt' (show _ < 2 ^ 64 by omega)
  obtain ⟨range, hres, hstart, hlast⟩ :=
    @RequestIdManager.reserveRange_spec p m (UInt64.ofNat b.requests.length) (by omega) (by omega)
  rw [hcount] at hlast
  have hlen : range.ids.length = b.requests.length := by rw [RangeInclusive.length_ids]; omega
  have hparsers : (b.requests.zip range.ids).map (fun x => x.1.parser) =
      b.requests.map QueuedRequest.parser := by
    have hle : b.requests.length ≤ range.ids.length := by omega
    have hfst := List.map_fst_zip hle
    conv_rhs => rw [← hfst, List.map_map]
    rfl
  have hne : b.requests.isEmpty = false := by
    cases hreq : b.requests with
    | nil => rw [hreq] at h0; simp at h0
    | cons => rfl
  refine ⟨range, hstart, hlast, ?_⟩
  simp only [build, hne, Bool.false_and, Bool.false_eq_true, ↓reduceIte, hres, hb.assemble_eq,
    Option.elim, hparsers]
  rfl

/-- **While the ids last, `build` returns**, and gives a range to every batch with a request in it. -/
theorem build_returns {p : Profile} {b : BatchBuilder R} {m : RequestIdManager} (hb : b.Valid)
    (hm : m.current_id.toNat + b.requests.length < 2 ^ 64) :
    ∃ o, (b.build p m).1 = .ok o ∧ ((∀ batch ∈ o, batch.request_id_range = none) →
      b.requests = []) := by
  by_cases h0 : 0 < b.requests.length
  · obtain ⟨range, -, -, hbuild⟩ := build_ok (p := p) hb h0 hm
    refine ⟨_, congrArg Prod.fst hbuild, fun hnone => ?_⟩
    cases hnone _ rfl
  · have hreq : b.requests = [] := List.length_eq_zero_iff.1 (by omega)
    by_cases hn : b.notifications = []
    · exact ⟨none, by simp [build, hreq, hn], fun _ => hreq⟩
    · exact ⟨_, congrArg Prod.fst (build_notifications p m hb hreq hn), fun _ => hreq⟩

end BatchBuilder

/-! ## The items of a reply -/

/-- What a parser makes of the item that answers its request. -/
def resolveItem (parser : ResponseParser R) : JsonRpcBatchResponse → BatchResponseItem R
  | .Response r => parser r.result.raw.get
  | .ErrorResponse e => .error (.ofResponse e)

/-- The key an item is correlated by. -/
def idKey (item : JsonRpcBatchResponse) : Option Nat := item.id?.map RequestId.toNat

theorem idKey_eq_some {item : JsonRpcBatchResponse} {id : RequestId} (h : item.id? = some id) :
    idKey item = some id.toNat := by simp [idKey, h]

/-- The results `items` are the items of `wire` with the ids `ids`, in this order, each read at its
own one of `types`. -/
structure ReadOff (types : List R.TypeId) (ids : List RequestId) (wire : List JsonRpcBatchResponse)
    (items : List (BatchResponseItem R)) : Prop where
  length_eq : items.length = ids.length
  getElem : ∀ i (hi : i < ids.length), ∃ item ∈ wire, ∃ T, item.id? = some ids[i] ∧
    types[i]? = some T ∧ items[i]? = some (resolveItem (parseAs T) item)

/-- Items that are arranged by their ids are read off by running each parser on its item. -/
theorem ReadOff.of_arrangement {types : List R.TypeId} {ids : List RequestId} {c n : Nat}
    {wire v : List JsonRpcBatchResponse} {parsers : List (ResponseParser R)}
    (hids : ids.map RequestId.toNat = List.range' c n)
    (hv : Arrange.IsArrangement idKey c n wire v)
    (hp : ∀ i < n, ∃ T, types[i]? = some T ∧ parsers[i]? = some (parseAs T)) :
    ReadOff types ids wire (List.zipWith (fun item parser => resolveItem parser item) v parsers) := by
  have hlen : ids.length = n := by
    simpa using congrArg List.length hids
  have hle : n ≤ parsers.length := by
    by_contra hlt
    obtain ⟨T, -, hT⟩ := hp parsers.length (by omega)
    simp at hT
  refine ⟨?_, fun i hi => ?_⟩
  · rw [List.length_zipWith, hv.length_eq, hlen]
    omega
  · have hiv : i < v.length := by
      rw [hv.length_eq]
      omega
    have hvi := List.getElem?_eq_getElem hiv
    obtain ⟨T, hT, hparser⟩ := hp i (by omega)
    refine ⟨v[i], hv.perm.mem_iff.1 (List.mem_of_getElem? hvi), T, ?_, hT, ?_⟩
    · -- both have the `i`-th number from `c`
      obtain ⟨id, hid, hnat⟩ := Option.map_eq_some_iff.1 (hv.key_getElem hvi)
      have hget := congrArg (fun l => l[i]?) hids
      simp only [List.getElem?_map, List.getElem?_eq_getElem hi, Option.map_some] at hget
      rw [List.getElem?_range' (by omega), Option.some.injEq] at hget
      rw [hid, Option.some.injEq, ← RequestId.toNat_inj]
      omega
    · rw [List.getElem?_zipWith, hvi, hparser]

end JsonRpc
