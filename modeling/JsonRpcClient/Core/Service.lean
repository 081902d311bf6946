import JsonRpcClient.Core.Buffered
import JsonRpcClient.Core.Completeness
import JsonRpcClient.Core.Layout

/-!
# Calls of a remote service

What the clients are for. A `Service` answers a method and its params and knows nothing of ids,
texts and connections, and what a call returns should be what the service answers to it
(`Service.Says`).

On the wire a request asks under an id, and an answer refers to the id. Three facts connect the two:
a text this client writes asks for just the calls it was made for (`asks_message`, `asks_batch`) and
under each id once (`asksApart_assembled`), an object is one request at most (`requestMembers_inj`),
and an answer that is decoded is still what the service said (`Offers.said`), in a batch for each
request (`Offers.saysAll`). And nothing else is taken for an answer: a request is rejected, with the
batch it is in (`asks_rejected`), and requests and notifications answer nothing
(`Calls.items_eq_nil`).
-/

namespace JsonRpc
open Json

variable {R : ResponseTypes}

/-! ## Services -/

/-- What a service says to one call. -/
inductive ServiceAnswer where
  | result (v : Value)
  | error (code : Int64) (message : String) (data : Option Value)

/-- The answers there may be to a method with params, or without. -/
abbrev Service := String → Option Value → ServiceAnswer → Prop

/-- What the caller gets who reads results at `T`: a `null` `data` is as good as none. -/
inductive ServiceAnswer.Returned (T : R.TypeId) : ServiceAnswer → Result (R.Val T) → Prop
  | result (v : Value) : Returned T (.result v) (serdeOk (R.fromSlice T v.render))
  | error {code message data id} {d : Option RawValue}
      (hd : d.map RawValue.json = data.filter (· ≠ .null)) :
      Returned T (.error code message data) (.error (.RpcError id (.ofI64 code.toInt) message d))

/-- `out` is what the service answers to the call, read at `T`. -/
def Service.Says (service : Service) (method : String) (params : Option Value) (T : R.TypeId)
    (out : Result (R.Val T)) : Prop :=
  ∃ a, service method params a ∧ a.Returned T out

/-- The results of a batch are what the service answers to its requests, each at its type. -/
def Service.SaysAll (service : Service) (calls : List (BatchBuilder.Call R))
    (items : List (BatchResponseItem R)) : Prop :=
  List.Forall₂ (fun x item => ∃ r, item = r.map (AnyBox.mk x.2) ∧
      service.Says x.1.method (x.1.params.map RawValue.json) x.2 r)
    ((BatchBuilder.queuedRequests calls).zip (BatchBuilder.registered calls)) items

theorem length_registered (calls : List (BatchBuilder.Call R)) :
    (BatchBuilder.registered calls).length = (BatchBuilder.queuedRequests calls).length := by
  have hparsers := congrArg List.length (BatchBuilder.parsers_ofCalls calls)
  rw [BatchBuilder.ofCalls_eq, List.length_map, List.length_map] at hparsers
  exact hparsers.symm

theorem Service.saysAll_of_getElem? {service : Service} {calls : List (BatchBuilder.Call R)}
    {items : List (BatchResponseItem R)}
    (hlen : items.length = (BatchBuilder.queuedRequests calls).length)
    (h : ∀ (i : Nat) q T, (BatchBuilder.queuedRequests calls)[i]? = some q →
      (BatchBuilder.registered calls)[i]? = some T →
      ∃ r, items[i]? = some (r.map (AnyBox.mk T)) ∧
        service.Says q.method (q.params.map RawValue.json) T r) : service.SaysAll calls items := by
  have htypes := length_registered calls
  refine List.forall₂_iff_get.2 ⟨by rw [List.length_zip]; omega, fun i hi hi' => ?_⟩
  have hzip := List.getElem?_eq_getElem hi
  obtain ⟨hq, hT⟩ := List.getElem?_zip_eq_some.1 hzip
  obtain ⟨r, hr, hsays⟩ := h i _ _ hq hT
  rw [List.getElem?_eq_getElem hi', Option.some.injEq] at hr
  exact ⟨r, hr, hsays⟩

/-! ## Requests -/

def requestMembers (id : RequestId) (method : String) (params : Option Value) :
    List (String × (Located → Prop)) :=
  [versionMember, ("id", fun x => x.IsNat id.toNat), ("method", fun x => x.IsString method)] ++
    spelledMember "params" params

/-- The text is a request, or a batch with the request in it. -/
def Asks (t : Text) (id : RequestId) (method : String) (params : Option Value) : Prop :=
  ∃ l ∈ t.root.elements.getD [t.root], l.HasMembers (requestMembers id method params)

/-- The element is a request under the id. -/
def AsksUnder (l : Located) (id : RequestId) : Prop :=
  ∃ method params, l.HasMembers (requestMembers id method params)

/-- No two elements of the text are requests under one id. -/
def AsksApart (t : Text) : Prop :=
  (t.root.elements.getD [t.root]).Pairwise fun l l' => ∀ id, AsksUnder l id → ¬ AsksUnder l' id

theorem isNat_unique {l : Located} {k k' : Nat} (h : l.IsNat k) (h' : l.IsNat k') : k = k' := by
  obtain ⟨n, hn, hk⟩ := h
  obtain ⟨n', hn', hk'⟩ := h'
  obtain rfl : n = n' := Value.num.inj (hn.symm.trans hn')
  exact Option.some.inj (hk.symm.trans hk')

theorem isString_unique {l : Located} {s s' : String} (h : l.IsString s) (h' : l.IsString s') :
    s = s' := by
  obtain ⟨x, hx, hs⟩ := h
  obtain ⟨x', hx', hs'⟩ := h'
  obtain rfl : x = x' := Value.str.inj (hx.symm.trans hx')
  exact Option.some.inj (hs.symm.trans hs')

theorem nodup_requestMembers (id : RequestId) (method : String) (params : Option Value) :
    ((requestMembers id method params).map Prod.fst).Nodup := by
  cases params <;> simp [requestMembers, versionMember, spelledMember]

/-- What a request fills a struct with. -/
theorem request_fields {l : Located} {id : RequestId} {method : String} {params : Option Value}
    {f : String → Option Located} (h : l.HasMembers (requestMembers id method params))
    (hf : Serde.struct ["id", "method", "params"] l = some f) :
    (∃ x, f "id" = some x ∧ x.IsNat id.toNat) ∧ (∃ x, f "method" = some x ∧ x.IsString method) ∧
      (f "params").map Located.value = params := by
  obtain ⟨x, hx, -, hid⟩ := field_of_mem h hf (m := ("id", _))
    (List.mem_cons_of_mem _ List.mem_cons_self) (by simp)
  obtain ⟨y, hy, -, hmethod⟩ := field_of_mem h hf (m := ("method", _))
    (List.mem_cons_of_mem _ (List.mem_cons_of_mem _ List.mem_cons_self)) (by simp)
  have hparams : (f "params").map Located.value = params := by
    apply field_spelled h hf (by simp)
    · intro m hm
      exact List.mem_append_right _ hm
    · rintro rfl
      simp [requestMembers, versionMember, spelledMember]
  exact ⟨⟨x, hx, hid⟩, ⟨y, hy, hmethod⟩, hparams⟩

/-- **An object is a text of one request at most.** -/
theorem requestMembers_inj {l : Located} {id id' : RequestId} {method method' : String}
    {params params' : Option Value} (h : l.HasMembers (requestMembers id method params))
    (h' : l.HasMembers (requestMembers id' method' params')) :
    id = id' ∧ method = method' ∧ params = params' := by
  obtain ⟨f, hf⟩ := struct_of_hasMembers h (nodup_requestMembers ..) ["id", "method", "params"]
  obtain ⟨⟨x, hx, hid⟩, ⟨y, hy, hmethod⟩, hparams⟩ := request_fields h hf
  obtain ⟨⟨x', hx', hid'⟩, ⟨y', hy', hmethod'⟩, hparams'⟩ := request_fields h' hf
  obtain rfl := Option.some.inj (hx.symm.trans hx')
  obtain rfl := Option.some.inj (hy.symm.trans hy')
  exact ⟨RequestId.toNat_inj.1 (isNat_unique hid hid'), isString_unique hmethod hmethod',
    hparams.symm.trans hparams'⟩

/-- A written request asks for what it was made for. -/
theorem JsonRpcRequest.hasMembers (r : JsonRpcRequest) (p : Nat) :
    Located.HasMembers ⟨p, r.json⟩ (requestMembers r.id r.method (r.params.map RawValue.json)) := by
  have h := (JsonRpcOutgoing.Request r).hasMembers p
  obtain ⟨v, id, method, params⟩ := r
  cases params <;> exact h

/-- A written notification is no request. -/
theorem JsonRpcNotification.not_request (n : JsonRpcNotification RawValue) (p : Nat)
    (id : RequestId) (method : String) (params : Option Value) :
    ¬ Located.HasMembers ⟨p, n.json⟩ (requestMembers id method params) := by
  intro h
  obtain ⟨x, hx, -⟩ := hasMember_of_mem h (m := ("id", _))
    (List.mem_cons_of_mem _ List.mem_cons_self)
  refine not_hasMember ((JsonRpcOutgoing.Notification n).hasMembers p) ?_ x hx
  cases hp : n.params <;>
    simp [JsonRpcOutgoing.wireMembers, stringMember, rawMember, hp]

/-- What a written message asks for. -/
theorem asked_iff (m : JsonRpcOutgoing) (p : Nat) (id : RequestId) (method : String)
    (params : Option Value) :
    Located.HasMembers ⟨p, m.json⟩ (requestMembers id method params) ↔
      ∃ r, m = .Request r ∧ r.id = id ∧ r.method = method ∧ r.params.map RawValue.json = params := by
  constructor
  · intro h
    cases m with
    | Request r => exact ⟨r, rfl, requestMembers_inj (r.hasMembers p) h⟩
    | Notification n => exact absurd h (n.not_request p id method params)
  · rintro ⟨r, rfl, rfl, rfl, rfl⟩
    exact r.hasMembers p

/-- A written message is no array. -/
theorem JsonRpcOutgoing.not_array (m : JsonRpcOutgoing) (p : Nat) :
    Located.elements ⟨p, m.json⟩ = none :=
  elements_of_isObject (HasMembers.isObject (m.hasMembers p))

/-- **A message on its own asks for just what it was made for**, and nothing if it is a
notification. -/
theorem asks_message {m : JsonRpcOutgoing} {t : Text} (ht : Json.read m.toBytes = some t)
    (id : RequestId) (method : String) (params : Option Value) :
    Asks t id method params ↔
      ∃ r, m = .Request r ∧ r.id = id ∧ r.method = method ∧ r.params.map RawValue.json = params := by
  rw [JsonRpcOutgoing.read_toBytes] at ht
  obtain rfl := Option.some.inj ht
  have hobj : (Text.root ⟨[], m.json, []⟩).elements = none := m.not_array 0
  rw [← asked_iff m 0]
  simp only [Asks, hobj, Option.getD_none, List.mem_singleton, exists_eq_left]
  rfl

/-- **A batch asks for just what its requests were made for.** -/
theorem asks_batch {items : List JsonRpcOutgoing} {t : Text}
    (ht : Json.read (batchBytes items) = some t) (id : RequestId) (method : String)
    (params : Option Value) :
    Asks t id method params ↔ ∃ r, .Request r ∈ items ∧ r.id = id ∧ r.method = method ∧
      r.params.map RawValue.json = params := by
  obtain ⟨t', es, ht', hes, hvalues⟩ := batch_written items
  obtain rfl := Option.some.inj (ht.symm.trans ht')
  simp only [Asks, hes, Option.getD_some]
  constructor
  · rintro ⟨l, hl, h⟩
    have hmem : l.value ∈ items.map JsonRpcOutgoing.json := hvalues ▸ List.mem_map_of_mem hl
    obtain ⟨m, hm, hml⟩ := List.mem_map.1 hmem
    rw [show l = ⟨l.start, m.json⟩ by rw [hml]] at h
    obtain ⟨r, rfl, hr⟩ := (asked_iff m ..).1 h
    exact ⟨r, hm, hr⟩
  · rintro ⟨r, hr, rfl, rfl, rfl⟩
    have hmem : JsonRpcOutgoing.json (.Request r) ∈ es.map Located.value :=
      hvalues ▸ List.mem_map_of_mem hr
    obtain ⟨l, hl, hlv⟩ := List.mem_map.1 hmem
    have hr := r.hasMembers l.start
    rw [show (⟨l.start, r.json⟩ : Located) = l by rw [← show l.value = r.json from hlv]] at hr
    exact ⟨l, hl, hr⟩

/-- The request that `request` sends asks for what it was called with. -/
theorem asks_tryNew {id' : RequestId} {m : String} {ps : Option Serialized} {r : JsonRpcRequest}
    {t : Text} (hnew : (JsonRpcRequest.tryNew id' m ps []).1 = .ok r)
    (ht : Json.read (JsonRpcOutgoing.toBytes (.Request r)) = some t) (id : RequestId)
    (method : String) (params : Option Value) :
    Asks t id method params ↔ id' = id ∧ m = method ∧
      ∃ o, serializeOptParams ps = .ok o ∧ o.map RawValue.json = params := by
  rw [asks_message ht]
  rw [JsonRpcRequest.tryNew, bufferedParams_nil] at hnew
  cases ho : serializeOptParams ps with
  | error e => rw [ho] at hnew; cases hnew
  | ok o =>
    rw [ho] at hnew
    cases hnew
    simp

/-- A batch is built on the ids it takes. -/
theorem assembled_of_build {p : Profile} {calls : List (BatchBuilder.Call R)}
    {m : RequestIdManager} {batch : Batch R}
    (hbuild : ((BatchBuilder.ofCalls calls).build p m).1 = .ok (some batch)) :
    (BatchBuilder.ofCalls calls).assemble batch.request_id_range = .ok batch := by
  unfold BatchBuilder.build at hbuild
  split at hbuild
  · cases hbuild
  · split at hbuild
    · cases hbuild
    · rename_i range m' hres
      simp only [(BatchBuilder.valid_ofCalls calls).assemble_eq] at hbuild ⊢
      cases hbuild
      rfl

/-- A batch asks under each of its ids for the request with that number. -/
theorem asks_assembled {calls : List (BatchBuilder.Call R)} {range : Option RangeInclusive}
    {batch : Batch R} {t : Text}
    (hbatch : (BatchBuilder.ofCalls calls).assemble range = .ok batch)
    (ht : Json.read (batchBytes batch.items) = some t) (id : RequestId) (method : String)
    (params : Option Value) :
    Asks t id method params ↔ ∃ (i : Nat) (q : QueuedRequest R),
      (BatchBuilder.queuedRequests calls)[i]? = some q ∧
        (range.elim [] RangeInclusive.ids)[i]? = some id ∧
        q.method = method ∧ q.params.map RawValue.json = params := by
  rw [(BatchBuilder.valid_ofCalls calls).assemble_eq, BatchBuilder.ofCalls_eq] at hbatch
  cases hbatch
  rw [asks_batch ht]
  constructor
  · rintro ⟨r, hr, rfl, rfl, rfl⟩
    rcases List.mem_append.1 hr with hr | hr
    · obtain ⟨⟨q, id⟩, hq, hr⟩ := List.mem_map.1 hr
      cases hr
      obtain ⟨i, hi⟩ := List.mem_iff_getElem?.1 hq
      obtain ⟨hqi, hidi⟩ := List.getElem?_zip_eq_some.1 hi
      exact ⟨i, q, hqi, hidi, rfl, rfl⟩
    · obtain ⟨n, -, hn⟩ := List.mem_map.1 hr
      cases hn
  · rintro ⟨i, q, hq, hid, rfl, rfl⟩
    refine ⟨⟨{}, id, q.method, q.params⟩, List.mem_append_left _ ?_, rfl, rfl, rfl⟩
    refine List.mem_map.2 ⟨(q, id), ?_, rfl⟩
    exact List.mem_of_getElem? (List.getElem?_zip_eq_some.2 ⟨hq, hid⟩)

/-- A request on its own shares its id with none. -/
theorem asksApart_message {m : JsonRpcOutgoing} {t : Text} (ht : Json.read m.toBytes = some t) :
    AsksApart t := by
  rw [JsonRpcOutgoing.read_toBytes] at ht
  obtain rfl := Option.some.inj ht
  have hobj : (Text.root ⟨[], m.json, []⟩).elements = none := m.not_array 0
  rw [AsksApart, hobj]
  exact List.pairwise_singleton ..

/-- A batch whose requests have different ids asks under each of them once. -/
theorem asksApart_batch {items : List JsonRpcOutgoing} {t : Text}
    (hitems : items.Pairwise fun m m' => ∀ r r', m = .Request r → m' = .Request r' → r.id ≠ r'.id)
    (ht : Json.read (batchBytes items) = some t) : AsksApart t := by
  obtain ⟨t', es, ht', hes, hvalues⟩ := batch_written items
  obtain rfl := Option.some.inj (ht.symm.trans ht')
  rw [AsksApart, hes, Option.getD_some]
  have hjson : (items.map JsonRpcOutgoing.json).Pairwise fun v v' =>
      ∀ p p' id, AsksUnder ⟨p, v⟩ id → ¬ AsksUnder ⟨p', v'⟩ id := by
    refine List.pairwise_map.2 (hitems.imp ?_)
    rintro m m' hne p p' id ⟨_, _, hm⟩ ⟨_, _, hm'⟩
    obtain ⟨r, hr, hid, -⟩ := (asked_iff m ..).1 hm
    obtain ⟨r', hr', hid', -⟩ := (asked_iff m' ..).1 hm'
    exact hne r r' hr hr' (hid.trans hid'.symm)
  rw [← hvalues] at hjson
  exact (List.pairwise_map.1 hjson).imp fun h id => h _ _ id

/-- **A batch asks under each of its ids once.** -/
theorem asksApart_assembled {calls : List (BatchBuilder.Call R)} {range : Option RangeInclusive}
    {batch : Batch R} {t : Text}
    (hbatch : (BatchBuilder.ofCalls calls).assemble range = .ok batch)
    (ht : Json.read (batchBytes batch.items) = some t) : AsksApart t := by
  rw [(BatchBuilder.valid_ofCalls calls).assemble_eq] at hbatch
  cases hbatch
  refine asksApart_batch ?_ ht
  have hids : (range.elim [] RangeInclusive.ids).Nodup := by
    cases range with
    | none => exact List.nodup_nil
    | some range => exact range.nodup_ids
  refine List.pairwise_append.2 ⟨?_, ?_, ?_⟩
  · -- the ids at two places of the range differ
    refine List.pairwise_map.2 (List.pairwise_iff_getElem.2 fun i j hi hj hij => ?_)
    intro r r' hr hr' hid
    cases hr
    cases hr'
    simp only [List.getElem_zip] at hid
    have := hids.getElem_inj_iff.1 hid
    omega
  · refine List.pairwise_map.2 (List.pairwise_iff_getElem.2 fun i j hi hj hij => ?_)
    intro r r' hr
    cases hr
  · intro m hm m' hm' r r' hr hr'
    obtain ⟨n, -, rfl⟩ := List.mem_map.1 hm'
    cases hr'

/-! ## Answers -/

/-- What the answer says, whichever call it is for. -/
def Answer.content : Answer → ServiceAnswer
  | .success _ result => .result result
  | .failure _ code message data => .error code message data

/-- The id it refers to, if that is one this client can issue. -/
def Answer.id? : Answer → Option RequestId
  | .success id _ => some ⟨id⟩
  | .failure id .. => id.bind fun v => (Serde.u64 v).map RequestId.mk

def Inbound.answers : Inbound → List Answer
  | .answer r => [r]
  | .notification .. => []
  | .batch rs => rs

/-- An answer that refers to an id is an answer to the request with that id in one of the texts
`sent`. -/
def Answer.AnswersTo (service : Service) (sent : Text → Prop) (r : Answer) : Prop :=
  ∀ id, r.id? = some id →
    ∃ t method params, sent t ∧ Asks t id method params ∧ service method params r.content

/-- What a peer sends that offers the service and was sent these texts. -/
def Offers (service : Service) (sent : Text → Prop) (data : Bytes) : Prop :=
  isUtf8 data = true ∧ ∃ t m, t.render = data ∧ Denotes t m ∧
    ∀ r ∈ m.answers, r.AnswersTo service sent

/-- The responses in a message. -/
def JsonRpcIncoming.items : JsonRpcIncoming → List JsonRpcBatchResponse
  | .Response r => [.Response r]
  | .ErrorResponse e => [.ErrorResponse e]
  | .Notification _ => []
  | .BatchResponse items => items

/-- What a caller for `T` makes of a response. -/
def readAs (T : R.TypeId) : JsonRpcBatchResponse → Result (R.Val T)
  | .Response r => serdeOk (R.fromSlice T r.result.raw.bytes)
  | .ErrorResponse e => .error (.ofResponse e)

/-- A response as a peer may write it. -/
def responseJson (id : RequestId) (result : Value) : Value :=
  .compactObj [("jsonrpc", JsonRpcVersion.json {}), ("id", id.json), ("result", result)]

theorem responseJson_hasMembers (id : RequestId) (result : Value) (p : Nat) :
    Located.HasMembers ⟨p, responseJson id result⟩ (Answer.success id.val result).members :=
  (hasMembers_compactObj p _).imp (.cons ⟨rfl, fun _ => isString_ofString⟩
    (.cons ⟨rfl, fun _ => isNat_json⟩ (.cons ⟨rfl, fun _ h => h⟩ .nil)))

theorem resolveItem_parseAs (T : R.TypeId) (item : JsonRpcBatchResponse) :
    resolveItem (parseAs T) item = (readAs T item).map (AnyBox.mk T) := by
  cases item with
  | Response r => simp only [resolveItem, parseAs, ResponseTypes.fromStr, RawValue.bytesOf_get,
      readAs]
  | ErrorResponse e => rfl

theorem Answer.DecodedTo.id? {r : Answer} {item : JsonRpcBatchResponse} (h : r.DecodedTo item) :
    item.id? = r.id? := by
  cases r <;> cases item <;> first | exact h.elim | skip
  · exact congrArg some h.1
  · exact h.1

theorem Answer.DecodedTo.returned {r : Answer} {item : JsonRpcBatchResponse} (h : r.DecodedTo item)
    (T : R.TypeId) : r.content.Returned T (readAs T item) := by
  cases r <;> cases item <;> first | exact h.elim | skip
  · obtain ⟨-, rfl⟩ := h
    exact .result _
  · obtain ⟨-, hcode, rfl, hdata⟩ := h
    simp only [readAs, Error.ofResponse, hcode]
    refine .error ?_
    rw [← hdata, Option.map_map]
    rfl

theorem Inbound.DecodedTo.answers {m : Inbound} {msg : JsonRpcIncoming} (h : m.DecodedTo msg) :
    List.Forall₂ Answer.DecodedTo m.answers msg.items := by
  cases m with
  | answer r =>
    obtain ⟨item, hitem, rfl⟩ := h
    cases item <;> exact .cons hitem .nil
  | notification method params =>
    obtain ⟨n, rfl, -⟩ := h
    exact .nil
  | batch rs =>
    obtain ⟨items, rfl, hitems⟩ := h
    exact hitems

/-- **A decoded response says what the service said to the request it refers to.** -/
theorem Offers.said {J : SerdeJson} {service : Service} {sent : Text → Prop} {data : Bytes}
    {msg : JsonRpcIncoming} {item : JsonRpcBatchResponse} {id : RequestId}
    (h : Offers service sent data) (hdec : JsonRpcIncoming.tryFromBytes J data = .ok msg)
    (hitem : item ∈ msg.items) (hid : item.id? = some id) (T : R.TypeId) :
    ∃ t method params, sent t ∧ Asks t id method params ∧
      service.Says method params T (readAs T item) := by
  obtain ⟨hutf8, t, m, rfl, hm, hanswers⟩ := h
  obtain ⟨msg', hdec', hto⟩ := decoded_of_readable hutf8 hm (allReadable hdec)
  obtain rfl : msg = msg' := Except.ok.inj (hdec.symm.trans hdec')
  obtain ⟨r, hr, hto⟩ := Traverse.mem_of_forall₂ hto.answers hitem
  obtain ⟨t', method, params, hsent, hasks, hsays⟩ := hanswers r hr id (hto.id?.symm.trans hid)
  exact ⟨t', method, params, hsent, hasks, r.content, hsays, hto.returned T⟩

/-! ### Batches -/

section
variable {calls : List (BatchBuilder.Call R)} {ids : List RequestId}
  {wire : List JsonRpcBatchResponse} {items : List (BatchResponseItem R)}

/-- Under the ids of a batch, the texts `sent` ask for the requests of the batch only. -/
def OwnsIds (sent : Text → Prop) (calls : List (BatchBuilder.Call R)) (ids : List RequestId) : Prop :=
  ∀ t id method params (i : Nat), sent t → Asks t id method params → ids[i]? = some id →
    ∃ q, (BatchBuilder.queuedRequests calls)[i]? = some q ∧ q.method = method ∧
      q.params.map RawValue.json = params

/-- **The results of a batch are what the service says to its requests**, if they are read off an
offered message by ids of its own. -/
theorem Offers.saysAll {J : SerdeJson} {service : Service} {sent : Text → Prop} {data : Bytes}
    (h : Offers service sent data)
    (hdec : JsonRpcIncoming.tryFromBytes J data = .ok (.BatchResponse wire))
    (howns : OwnsIds sent calls ids) (hlen : ids.length = (BatchBuilder.queuedRequests calls).length)
    (hread : ReadOff (BatchBuilder.registered calls) ids wire items) :
    service.SaysAll calls items := by
  refine Service.saysAll_of_getElem? (hread.length_eq.trans hlen) fun i q T hq hT => ?_
  have hi : i < ids.length := by
    rw [hlen]
    exact (List.getElem?_eq_some_iff.1 hq).1
  obtain ⟨item, hitem, T', hid, hT', hout⟩ := hread.getElem i hi
  obtain rfl : T = T' := Option.some.inj (hT.symm.trans hT')
  obtain ⟨t, method, params, ht, hasks, hsays⟩ := h.said hdec hitem hid T
  obtain ⟨q', hq', rfl, rfl⟩ := howns t _ _ _ i ht hasks (List.getElem?_eq_getElem hi)
  obtain rfl : q = q' := Option.some.inj (hq.symm.trans hq')
  exact ⟨_, by rw [hout, resolveItem_parseAs], hsays⟩

/-- The items of a batch are what the answers `rs` make of its requests. -/
def Arranged (calls : List (BatchBuilder.Call R)) (ids : List RequestId) (rs : List Answer)
    (items : List (BatchResponseItem R)) : Prop :=
  items.length = ids.length ∧ ∀ (i : Nat) id T, ids[i]? = some id →
    (BatchBuilder.registered calls)[i]? = some T → ∃ r ∈ rs, r.id? = some id ∧
      ∃ v, items[i]? = some (v.map (AnyBox.mk T)) ∧ r.content.Returned T v

/-- What is read off decoded answers is what the answers make of the requests. -/
theorem ReadOff.arranged (h : ReadOff (BatchBuilder.registered calls) ids wire items)
    {rs : List Answer} (hto : List.Forall₂ Answer.DecodedTo rs wire) : Arranged calls ids rs items := by
  refine ⟨h.length_eq, fun i id T hid hT => ?_⟩
  obtain ⟨hi, rfl⟩ := List.getElem?_eq_some_iff.1 hid
  obtain ⟨item, hitem, T', hid', hT', hout⟩ := h.getElem i hi
  obtain rfl := Option.some.inj (hT.symm.trans hT')
  obtain ⟨r, hr, hto⟩ := Traverse.mem_of_forall₂ hto hitem
  exact ⟨r, hr, hto.id?.symm.trans hid', _, by rw [hout, resolveItem_parseAs], hto.returned T⟩

end

/-- Answers `7` to `a` and `8` to `b`. -/
def sevenAndEight : Service := fun method params a =>
  params = none ∧ (method = "a" ∧ a = .result (.num (.ofU64 7)) ∨
    method = "b" ∧ a = .result (.num (.ofU64 8)))

/-! ## Messages that answer nothing -/

/-- A request or a notification, whoever makes it. -/
structure IsCall (l : Located) : Prop where
  isObject : l.value.isObject = true
  result : ∀ x, ¬ l.HasMember "result" x
  error : ∀ x, ¬ l.HasMember "error" x

/-- The text of a message, or of a batch of them, that answers nothing. -/
def Calls (t : Text) : Prop := ∀ l ∈ t.root.elements.getD [t.root], IsCall l

section
variable {J : SerdeJson} {level : Nat} {l : Located} {t : Text} {id : RequestId} {method : String}
  {params : Option Value}

theorem IsCall.of_members {ms : List (String × (Located → Prop))} (h : l.HasMembers ms)
    (hresult : "result" ∉ ms.map Prod.fst) (herror : "error" ∉ ms.map Prod.fst) : IsCall l :=
  ⟨HasMembers.isObject h, not_hasMember h hresult, not_hasMember h herror⟩

theorem IsCall.of_request (h : l.HasMembers (requestMembers id method params)) : IsCall l := by
  apply IsCall.of_members h <;>
    cases params <;> simp [requestMembers, versionMember, spelledMember]

/-- What the client writes are calls. -/
theorem JsonRpcOutgoing.isCall (m : JsonRpcOutgoing) (p : Nat) : IsCall ⟨p, m.json⟩ := by
  apply IsCall.of_members (m.hasMembers p) <;> cases m with
  | Request r =>
    cases hp : r.params <;> simp [JsonRpcOutgoing.wireMembers, stringMember, idMember, rawMember, hp]
  | Notification n =>
    cases hp : n.params <;> simp [JsonRpcOutgoing.wireMembers, stringMember, rawMember, hp]

/-- The decoder finds nothing in a call that a response has. -/
theorem IsCall.probeAsResponse_eq_none (h : IsCall l) {probe : Probe}
    (hp : Probe.deserialize J level l = some probe) : probeAsResponse probe = none := by
  have hof := Probe.of_deserialize hp h.isObject
  rw [JsonRpc.probeAsResponse_eq_none]
  constructor
  · cases he : probe.error with
    | none => rfl
    | some e =>
      obtain ⟨x, hx, -⟩ := hof.error e he
      exact absurd ((hx x).2 rfl) (h.error x)
  · cases hr : probe.result with
    | none => rfl
    | some r =>
      obtain ⟨x, hx, -⟩ := hof.result r hr
      exact absurd hx (h.result x)

/-- A call is no item of a batch. -/
theorem IsCall.not_decodesItem (h : IsCall l) (item : JsonRpcBatchResponse) :
    ¬ DecodesItem J l item := by
  rintro ⟨probe, hprobe, hitem⟩
  rw [processBatchItem_eq_ok, h.probeAsResponse_eq_none hprobe] at hitem
  cases hitem

theorem elements_of_not_batch (h : isBatch t.render = false) : t.root.elements = none := by
  rw [isBatch_render] at h
  rw [← Option.isNone_iff_eq_none, ← Option.not_isSome, Located.elements_isSome]
  exact congrArg not h

/-- **No answer is read out of calls.** -/
theorem Calls.items_eq_nil (h : Calls t) {m : JsonRpcIncoming}
    (hdec : JsonRpcIncoming.tryFromBytes J t.render = .ok m) : m.items = [] := by
  rcases JsonRpcIncoming.tryFromBytes_eq_ok.1 hdec with
    ⟨-, t', es, items, ht, hes, hitems, rfl⟩ | ⟨hbatch, t', probe, ht, hprobe, hmsg⟩
  all_goals
    rw [read_render] at ht
    obtain rfl := Option.some.inj ht
  · rw [Calls, hes, Option.getD_some] at h
    cases hitems with
    | nil => rfl
    | @cons l item _ _ hitem => exact absurd hitem ((h l List.mem_cons_self).not_decodesItem item)
  · have hnone := elements_of_not_batch hbatch
    rw [Calls, hnone, Option.getD_none] at h
    have hcall := h t.root (List.mem_singleton_self _)
    rcases processProbe_eq_ok.1 hmsg with ⟨item, hitem, -⟩ | ⟨-, method, -, -, rfl⟩
    · rw [hcall.probeAsResponse_eq_none hprobe] at hitem
      cases hitem
    · rfl

/-- **An inbound request is rejected**, alone or in a batch, however it is spelled. -/
theorem asks_rejected (h : Asks t id method params) :
    ∃ e, JsonRpcIncoming.tryFromBytes J t.render = .error e := by
  cases hdec : JsonRpcIncoming.tryFromBytes J t.render with
  | error e => exact ⟨e, rfl⟩
  | ok m =>
    exfalso
    obtain ⟨l, hl, hmembers⟩ := h
    have hcall := IsCall.of_request hmembers
    rcases JsonRpcIncoming.tryFromBytes_eq_ok.1 hdec with
      ⟨-, t', es, items, ht, hes, hitems, rfl⟩ | ⟨hbatch, t', probe, ht, hprobe, hmsg⟩
    all_goals
      rw [read_render] at ht
      obtain rfl := Option.some.inj ht
    · rw [hes, Option.getD_some] at hl
      obtain ⟨item, -, hitem⟩ := Traverse.mem_of_forall₂ hitems.flip hl
      exact hcall.not_decodesItem item hitem
    · rw [elements_of_not_batch hbatch, Option.getD_none, List.mem_singleton] at hl
      subst hl
      rcases processProbe_eq_ok.1 hmsg with ⟨item, hitem, -⟩ | ⟨-, method, -, hid, -⟩
      · rw [hcall.probeAsResponse_eq_none hprobe] at hitem
        cases hitem
      · -- a notification has no id, and a request has one
        obtain ⟨x, hx, -⟩ := hasMember_of_mem hmembers (m := ("id", _))
          (List.mem_cons_of_mem _ List.mem_cons_self)
        exact (Probe.of_deserialize hprobe hcall.isObject).absent hid x hx

/-- A response, and a request. -/
def mixedBatch : Text :=
  ⟨[], .compactArr [responseJson ⟨0⟩ (.num (.ofU64 7)),
    JsonRpcOutgoing.json (.Request ⟨{}, ⟨1⟩, "a", none⟩)], []⟩

theorem asks_rejected_mixed :
    ∃ e, JsonRpcIncoming.tryFromBytes ⟨fun _ => true⟩ mixedBatch.render = .error e := by
  have hmembers := JsonRpcRequest.hasMembers ⟨{}, ⟨1⟩, "a", none⟩
  exact asks_rejected ⟨_, List.mem_cons_of_mem _ List.mem_cons_self, hmembers _⟩

theorem calls_message {m : JsonRpcOutgoing} (ht : Json.read m.toBytes = some t) : Calls t := by
  rw [JsonRpcOutgoing.read_toBytes] at ht
  obtain rfl := Option.some.inj ht
  have hcall : IsCall (Text.root ⟨[], m.json, []⟩) := m.isCall 0
  intro l hl
  rw [elements_of_isObject hcall.isObject, Option.getD_none, List.mem_singleton] at hl
  subst hl
  exact hcall

theorem calls_batch {items : List JsonRpcOutgoing} (ht : Json.read (batchBytes items) = some t) :
    Calls t := by
  obtain ⟨t', es, ht', hes, hvalues⟩ := batch_written items
  obtain rfl := Option.some.inj (ht.symm.trans ht')
  intro l hl
  rw [hes, Option.getD_some] at hl
  have hmem : l.value ∈ items.map JsonRpcOutgoing.json := hvalues ▸ List.mem_map_of_mem hl
  obtain ⟨m, -, hm⟩ := List.mem_map.1 hmem
  have hcall := m.isCall l.start
  rw [hm] at hcall
  exact hcall

end

end JsonRpc
