import JsonRpcClient.Core.Reservations
import JsonRpcClient.Core.Service
import JsonRpcClient.Http.Client

/-!
# An `HttpClient` of many callers in front of a service

All a call shares with the others is the id manager, so a run is a sequence of reservations; each
POST and its reply are the call's own. The peers offer a service, but nothing says that a reply comes
back on the connection of its request: a proxy may give it to any call.

`replies_not_mixed`: also then a value, an RPC error with an id, or the items of a batch are what the
service answers to the very call that returns them.
-/

namespace JsonRpc
open Json Arrange

variable {R : ResponseTypes}

namespace Http

/-! ## Runs -/

/-- What an operation reserves. -/
def Operation.reservation : Operation R → Option (Reservation R)
  | request .. => some .request
  | notify .. => none
  | batchRequest queue _ => some (.batch queue.calls)

/-- The ids an operation gets, and the manager after it. -/
def Operation.reserve (p : Profile) (m : RequestIdManager) (op : Operation R) :
    List RequestId × RequestIdManager :=
  match op.reservation with
  | some r => r.reserve p m
  | none => ([], m)

/-- The client as an operation leaves it. -/
theorem request_client (J : SerdeJson) (client : HttpClient) (T : R.TypeId) (method : String)
    (params : Option Serialized) (timeout : Option Duration) (p : Profile) :
    (client.request J T method params timeout).2 = { client with id_manager :=
      ((Operation.request T method params timeout).reserve p client.id_manager).2 } := rfl

theorem batchRequest_client (p : Profile) (J : SerdeJson) (client : HttpClient) (queue : Queue R)
    (timeout : Option Duration) :
    (client.batchRequest p J queue.builder timeout).2 = { client with id_manager :=
      ((Operation.batchRequest queue timeout).reserve p client.id_manager).2 } := rfl

/-- What the callers of a client share. A step is what an operation does to it: it takes its ids. -/
def shared (R : ResponseTypes) (p : Profile) :
    Machine RequestIdManager (Operation R × List RequestId) where
  init := .new
  step m a := if (a.1.reserve p m).1 = a.2 then some (a.1.reserve p m).2 else none

/-- The reservation of a step. -/
def onIds (a : Operation R × List RequestId) : Option (Reservation R × List RequestId) :=
  a.1.reservation.map fun r => (r, a.2)

/-- How many ids a run reserves. -/
def reserved (h : List (Operation R × List RequestId)) : Nat := total (h.filterMap onIds)

/-- What a run does not change of a client, and the build. -/
structure Config where
  profile : Profile
  serde : SerdeJson
  endpoint : String
  auth_strategy : RequestBuilder → RequestBuilder

def Config.client (cfg : Config) (m : RequestIdManager) : HttpClient :=
  ⟨cfg.endpoint, cfg.auth_strategy, m⟩

variable {cfg : Config} {h : List (Operation R × List RequestId)} {m : RequestIdManager}
  {a : Operation R × List RequestId}

/-- A run of the callers is a run of the id manager. -/
theorem shared_idManager {p : Profile} (hr : (shared R p).Run Machine.always h m) :
    (idManager R p).Run Machine.always (h.filterMap onIds) m := by
  refine hr.project id onIds rfl ?_
  rintro m ⟨op, ids⟩ m' - hs
  simp only [shared, Operation.reserve] at hs
  cases hop : op.reservation with
  | none =>
    simp only [hop] at hs
    simp only [onIds, hop, Option.map_none]
    split at hs
    · exact (Option.some.inj hs).symm
    · cases hs
  | some r =>
    simp only [hop] at hs
    simp only [onIds, hop, Option.map_some]
    exact ⟨trivial, hs⟩

/-- The operation `a` of the run POSTs `request` and goes on with `resume`. -/
def Posts (cfg : Config) (h : List (Operation R × List RequestId))
    (a : Operation R × List RequestId) (request : RequestBuilder)
    (resume : Except String Response → Outcome a.1.Value) : Prop :=
  ∃ h1 h2 m, h = h1 ++ a :: h2 ∧ (shared R cfg.profile).Run Machine.always h1 m ∧
    a.1.perform cfg.profile cfg.serde (cfg.client m) = .posts request resume

/-- The bodies that are POSTed in a run. -/
def SentBody (cfg : Config) (h : List (Operation R × List RequestId)) (t : Text) : Prop :=
  ∃ a request resume, Posts cfg h a request resume ∧ Json.read request.body = some t

/-! ## What the operations ask for -/

/-- What an operation asks for, and under which of its ids. -/
inductive Operation.AsksFor :
    Operation R → List RequestId → RequestId → String → Option Json.Value → Prop
  | request {T method params timeout id o} (ho : serializeOptParams params = .ok o) :
      AsksFor (.request T method params timeout) [id] id method (o.map RawValue.json)
  | batch {queue : Queue R} {timeout ids id q} {i : Nat}
      (hq : (BatchBuilder.queuedRequests queue.calls)[i]? = some q) (hid : ids[i]? = some id) :
      AsksFor (.batchRequest queue timeout) ids id q.method (q.params.map RawValue.json)

theorem Operation.AsksFor.mem {ids : List RequestId} {op : Operation R} {id : RequestId}
    {method : String} {params : Option Json.Value} (h : op.AsksFor ids id method params) :
    id ∈ ids := by
  cases h with
  | request => exact List.mem_cons_self
  | batch hq hid => exact List.mem_of_getElem? hid

/-- The ids of an operation in a run are those it takes from the manager. -/
theorem ids_eq {h1 h2 : List (Operation R × List RequestId)} {m1 : RequestIdManager}
    (hr : (shared R cfg.profile).Run Machine.always (h1 ++ a :: h2) m)
    (hr1 : (shared R cfg.profile).Run Machine.always h1 m1) :
    (a.1.reserve cfg.profile m1).1 = a.2 := by
  obtain ⟨m1', hr1', hexec⟩ := hr.split
  obtain rfl := hr1.unique hr1'
  obtain ⟨m2, hs, -⟩ := Option.bind_eq_some_iff.1 hexec
  simp only [shared] at hs
  split at hs
  · assumption
  · cases hs

theorem sendBuilt_body {p : Profile} {J : SerdeJson} {req_builder request : RequestBuilder}
    {batch : Batch R}
    {resume : Except String Response → Outcome (Option (List (BatchResponseItem R)))}
    (hpost : HttpClient.sendBuilt p J req_builder batch = .posts request resume) :
    request.body = batchBytes batch.items := by
  unfold HttpClient.sendBuilt at hpost
  split at hpost <;> cases hpost <;> rfl

/-- **What is POSTed asks for what the operation is to ask for.** -/
theorem Posts.asks (hr : (shared R cfg.profile).Run Machine.always h m) {request : RequestBuilder}
    {resume : Except String Response → Outcome a.1.Value} (hposts : Posts cfg h a request resume)
    {t : Text} (ht : Json.read request.body = some t) {id : RequestId} {method : String}
    {params : Option Json.Value} (hasks : Asks t id method params) :
    a ∈ h ∧ a.1.AsksFor a.2 id method params := by
  obtain ⟨h1, h2, m1, rfl, hr1, hpost⟩ := hposts
  refine ⟨List.mem_append_right _ List.mem_cons_self, ?_⟩
  have hids := ids_eq hr hr1
  obtain ⟨op, ids⟩ := a
  simp only at hids hpost resume
  subst hids
  cases op with
  | request T method' params' timeout =>
    simp only [Operation.perform, HttpClient.request, Config.client] at hpost
    split at hpost
    · cases hpost
    · rename_i r hnew
      cases hpost
      obtain ⟨rfl, rfl, o, ho, rfl⟩ := (asks_tryNew hnew ht ..).1 hasks
      exact .request ho
  | notify method' params' =>
    simp only [Operation.perform, HttpClient.notify] at hpost
    split at hpost
    · cases hpost
    · rename_i n hnew
      cases hpost
      obtain ⟨r, hr, -⟩ := (asks_message ht ..).1 hasks
      cases hr
  | batchRequest queue timeout =>
    obtain ⟨batch, hbuild, hsend⟩ := batchRequest_posts hpost
    have hbody := sendBuilt_body hsend
    rw [hbody] at ht
    obtain ⟨i, q, hq, hid, rfl, rfl⟩ := (asks_assembled (assembled_of_build hbuild) ht ..).1 hasks
    have hids : (Operation.reserve cfg.profile m1 (.batchRequest queue timeout)).1 =
        batch.request_id_range.elim [] RangeInclusive.ids := by
      have hkey : buildKey ((BatchBuilder.ofCalls queue.calls).build cfg.profile m1).1 =
          batch.request_id_range := by
        rw [show ((BatchBuilder.ofCalls queue.calls).build cfg.profile m1).1 = _ from hbuild]
        rfl
      simp only [Operation.reserve, Operation.reservation, Reservation.reserve, hkey]
    exact .batch hq (by rw [hids]; exact hid)

/-- What is asked under an id of an operation, the operation asks. -/
theorem SentBody.asks (hr : (shared R cfg.profile).Run Machine.always h m)
    (hids : reserved h < 2 ^ 64) {t : Text} (ht : SentBody cfg h t) {id : RequestId}
    {method : String} {params : Option Json.Value} (hasks : Asks t id method params) (ha : a ∈ h)
    (hid : id ∈ a.2) : a.1.AsksFor a.2 id method params := by
  obtain ⟨b, request, resume, hposts, ht⟩ := ht
  obtain ⟨hb, hfor⟩ := hposts.asks hr ht hasks
  have hsome : ∀ {a : Operation R × List RequestId}, a ∈ h → id ∈ a.2 →
      ∃ r, onIds a = some (r, a.2) := by
    intro a ha hid
    obtain ⟨m1, m2, m3, -, -, hs⟩ := hr.of_mem ha
    simp only [shared, Operation.reserve] at hs
    cases hop : a.1.reservation with
    | some r => exact ⟨r, by simp only [onIds, hop, Option.map_some]⟩
    | none =>
      -- a notification takes no id
      simp only [hop] at hs
      split at hs
      · rename_i hnil
        rw [← hnil] at hid
        cases hid
      · cases hs
  obtain ⟨ra, hra⟩ := hsome ha hid
  obtain ⟨rb, hrb⟩ := hsome hb hfor.mem
  obtain rfl := reserved_inj (shared_idManager hr) hids ha hb hra hrb hid hfor.mem
  exact hfor

/-! ## What an operation makes of a reply -/

/-- A value, or an error that refers to a request. -/
inductive IsAnswer {α : Type} : Result α → Prop
  | value (v : α) : IsAnswer (.ok v)
  | error {id code text data} : IsAnswer (.error (.RpcError (some id) code text data))

theorem decodeSingleResponse_item {T : R.TypeId} {incoming : JsonRpcIncoming} {id : RequestId}
    (h : IsAnswer (decodeSingleResponse T incoming id)) :
    ∃ item, incoming = item.toIncoming ∧ item.id? = some id ∧
      decodeSingleResponse T incoming id = readAs T item := by
  cases incoming with
  | Response r =>
    simp only [decodeSingleResponse] at h ⊢
    split at h
    · cases h
    · rename_i hid
      rw [if_neg hid]
      refine ⟨.Response r, rfl, congrArg some (not_not.1 hid), ?_⟩
      simp only [readAs, ResponseTypes.fromStr, RawValue.bytesOf_get]
  | ErrorResponse e =>
    cases hid : e.id with
    | none =>
      simp only [decodeSingleResponse, hid, Error.ofResponse] at h
      cases h
    | some id' =>
      simp only [decodeSingleResponse, hid] at h ⊢
      split at h
      · cases h
      · rename_i hid'
        rw [if_neg hid']
        exact ⟨.ErrorResponse e, rfl, by rw [← not_not.1 hid']; exact hid, rfl⟩
  | Notification n => cases h
  | BatchResponse items => cases h

section
variable {J : SerdeJson} {client : HttpClient} {request : RequestBuilder}

/-- The response that a request returns. -/
theorem request_item {T : R.TypeId} {method : String} {params : Option Serialized}
    {timeout : Option Duration} {resume : Except String Response → Outcome (R.Val T)}
    (hpost : (client.request J T method params timeout).1 = .posts request resume)
    {response : Response} {r : Result (R.Val T)} (hret : resume (.ok response) = .ret r)
    (hr : IsAnswer r) :
    ∃ bytes item, response.body = .ok bytes ∧
      JsonRpcIncoming.tryFromBytes J bytes = .ok item.toIncoming ∧
        item.id? = some client.id_manager.reserveId.1 ∧ r = readAs T item := by
  rw [request_resume hpost] at hret
  by_cases hstatus : response.status.isSuccess = true
  · rw [ensureSuccess_ok hstatus, Outcome.ok_bind] at hret
    cases hbody : response.body with
    | error text =>
      rw [hbody] at hret
      cases hret
      cases hr
    | ok bytes =>
      rw [hbody] at hret
      cases hdec : JsonRpcIncoming.tryFromBytes J bytes with
      | error e =>
        simp only [transport, Outcome.ok_bind, hdec, Outcome.ret_error_bind] at hret
        cases hret
        have hrejects := JsonRpcIncoming.tryFromBytes_eq_error hdec
        cases hr
        cases hrejects
      | ok incoming =>
        simp only [transport, Outcome.ok_bind, hdec, Outcome.ret_ok_bind] at hret
        cases hret
        obtain ⟨item, rfl, hid, hitem⟩ := decodeSingleResponse_item hr
        exact ⟨bytes, item, rfl, hdec, hid, hitem⟩
  · rw [ensureSuccess_err (Bool.not_eq_true _ ▸ hstatus), Outcome.err_bind] at hret
    cases hret
    cases hr

/-- The items that a batch returns were in a reply. -/
theorem sendBuilt_wire {p : Profile} {req_builder : RequestBuilder} {batch : Batch R}
    {resume : Except String Response → Outcome (Option (List (BatchResponseItem R)))}
    (hpost : HttpClient.sendBuilt p J req_builder batch = .posts request resume)
    {response : Response} {items : List (BatchResponseItem R)}
    (hret : resume (.ok response) = .ok (some items)) :
    ∃ range bytes wire, batch.request_id_range = some range ∧
      response.status.isSuccess = true ∧ response.body = .ok bytes ∧
      JsonRpcIncoming.tryFromBytes J bytes = .ok (.BatchResponse wire) := by
  cases hrange : batch.request_id_range with
  | none =>
    simp only [HttpClient.sendBuilt, hrange] at hpost
    cases hpost
    cases hret
  | some range =>
    by_cases hstatus : response.status.isSuccess = true
    · simp only [HttpClient.sendBuilt, hrange] at hpost
      cases hpost
      simp only [transport, Outcome.bind_eq, Outcome.ok_bind, ensureSuccess_ok hstatus] at hret
      cases hbody : response.body with
      | error text =>
        rw [hbody] at hret
        cases hret
      | ok bytes =>
        simp only [hbody, Outcome.ok_bind] at hret
        cases hdec : JsonRpcIncoming.tryFromBytes J bytes with
        | error e => rw [hdec] at hret; cases hret
        | ok incoming =>
          rw [hdec, Outcome.ret_ok_bind] at hret
          cases incoming with
          | BatchResponse wire => exact ⟨range, bytes, wire, rfl, hstatus, rfl, hdec⟩
          | _ => cases hret
    · rw [sendBuilt_failure hrange hpost (Bool.not_eq_true _ ▸ hstatus)] at hret
      cases hret

end

/-! ## The service -/

/-- What an operation returns of a peer's answers is what the service answers to it. A request also
returns an error that refers to no request at all. -/
def Operation.SaidBy (service : Service) : (op : Operation R) → Outcome op.Value → Prop
  | request T method params _, out => ∀ r, out = .ret r → IsAnswer r →
      ∃ o, serializeOptParams params = .ok o ∧ service.Says method (o.map RawValue.json) T r
  | notify _ _, _ => True
  | batchRequest queue _, out => ∀ items, out = .ok (some items) → service.SaysAll queue.calls items

/-- The ids of a batch, when there are enough of them. -/
theorem batch_ids {p : Profile} {queue : Queue R} {timeout : Option Duration}
    {m : RequestIdManager}
    (hm : m.current_id.toNat + queue.builder.requests.length < 2 ^ 64) :
    ((Operation.batchRequest queue timeout).reserve p m).1.map RequestId.toNat =
      List.range' m.current_id.toNat queue.builder.requests.length :=
  ((Reservation.batch queue.calls).reserve_spec p hm).1

/-- The ids last for every operation of the run. -/
theorem ids_last {h1 h2 : List (Operation R × List RequestId)} {m1 : RequestIdManager}
    (hr1 : (shared R cfg.profile).Run Machine.always h1 m1) {queue : Queue R}
    {timeout : Option Duration} {ids : List RequestId}
    (hids : reserved (h1 ++ (.batchRequest queue timeout, ids) :: h2) < 2 ^ 64) :
    m1.current_id.toNat + queue.builder.requests.length < 2 ^ 64 := by
  have htotal : reserved (h1 ++ (.batchRequest queue timeout, ids) :: h2) =
      reserved h1 + (queue.builder.requests.length + reserved h2) := by
    simp [reserved, total, onIds, Operation.reservation, Reservation.count, Queue.builder]
  have hcur : m1.current_id.toNat = reserved h1 :=
    (idManager_ids (shared_idManager hr1) (by change reserved h1 < 2 ^ 64; omega)).2.1
  omega

/-- Under the ids of a batch nothing else is asked. -/
theorem ownsIds (hr : (shared R cfg.profile).Run Machine.always h m) (hids : reserved h < 2 ^ 64)
    {queue : Queue R} {timeout : Option Duration} {ids : List RequestId}
    (hmem : (.batchRequest queue timeout, ids) ∈ h) (hnodup : ids.Nodup) :
    OwnsIds (SentBody cfg h) queue.calls ids := by
  intro t id method params i ht hasks hi
  have hfor := ht.asks hr hids hasks hmem (List.mem_of_getElem? hi)
  cases hfor with
  | @batch _ _ _ _ q j hq hj =>
    obtain ⟨hi', hie⟩ := List.getElem?_eq_some_iff.1 hi
    obtain ⟨hj', hje⟩ := List.getElem?_eq_some_iff.1 hj
    obtain rfl := hnodup.getElem_inj_iff.1 (hie.trans hje.symm)
    exact ⟨q, hq, rfl, rfl⟩

/-- What is made of a reply that has an answer to each request of the batch. -/
theorem arranged_readOff {queue : Queue R} {ids : List RequestId} {c : Nat}
    (hidsN : ids.map RequestId.toNat = List.range' c queue.builder.requests.length)
    {wire v : List JsonRpcBatchResponse}
    (hv : IsArrangement idKey c queue.builder.requests.length wire v) :
    ReadOff (BatchBuilder.registered queue.calls) ids wire
      (List.zipWith (fun item parser => resolveItem parser item) v
        (queue.builder.requests.map QueuedRequest.parser)) :=
  .of_arrangement hidsN hv fun _ => BatchBuilder.parsers_getElem?

/-- **What a call returns is what the service answers to it**, whichever connection its reply comes
from. In every run of callers that share a client, as long as the ids last, a reply that the peers
may give to any of the calls makes the call that gets it return an error of the client's own, an RPC
error that refers to no request, or what the service answers to this call. -/
theorem replies_not_mixed (hr : (shared R cfg.profile).Run Machine.always h m)
    (hids : reserved h < 2 ^ 64) {service : Service} {op : Operation R} {ids : List RequestId}
    {request : RequestBuilder} {resume : Except String Response → Outcome op.Value}
    (hposts : Posts cfg h (op, ids) request resume) {response : Response}
    (hpeer : ∀ bytes, response.body = .ok bytes → Offers service (SentBody cfg h) bytes) :
    op.SaidBy service (resume (.ok response)) := by
  obtain ⟨h1, h2, m1, rfl, hr1, hpost⟩ := hposts
  have hmem : (op, ids) ∈ h1 ++ (op, ids) :: h2 := List.mem_append_right _ List.mem_cons_self
  have htaken : (op.reserve cfg.profile m1).1 = ids := ids_eq hr hr1
  cases op with
  | request T method params timeout =>
    intro r hret hanswer
    obtain ⟨bytes, item, hbody, hdec, hid, rfl⟩ := request_item hpost hret hanswer
    have hitem : item ∈ item.toIncoming.items := by
      cases item <;> exact List.mem_cons_self
    obtain ⟨t, method', params', ht, hasks, hsays⟩ := (hpeer bytes hbody).said hdec hitem hid T
    have hfor := ht.asks hr hids hasks hmem (by rw [← htaken]; exact List.mem_cons_self)
    cases hfor with
    | request ho => exact ⟨_, ho, hsays⟩
  | notify method params => trivial
  | batchRequest queue timeout =>
    intro items hret
    obtain ⟨batch, hbuild, hsend⟩ := batchRequest_posts hpost
    obtain ⟨range, bytes, wire, hrange, hstatus, hbody, hdec⟩ := sendBuilt_wire hsend hret
    have hvalid : queue.builder.Valid := BatchBuilder.valid_ofCalls queue.calls
    have hlast := ids_last hr1 hids
    have hne : queue.builder.requests ≠ [] := by
      obtain ⟨hres, -⟩ := BatchBuilder.build_some hvalid hbuild hrange
      obtain ⟨hcount, -⟩ := RequestIdManager.reserveRange_some hres
      intro hnil
      rw [hnil] at hcount
      exact hcount rfl
    obtain ⟨status, body⟩ := response
    obtain rfl : body = .ok bytes := hbody
    rw [batchRequest_items hvalid (by omega) hne hpost hstatus hdec] at hret
    rcases correlateBatch_eq cfg.profile hvalid (List.length_pos_iff.2 hne) hlast wire with
      ⟨v, hv, heq⟩ | ⟨-, text, heq⟩
    · have hitems := hret.symm.trans heq
      simp only [Outcome.ok_inj, Option.some.injEq] at hitems
      have hidsN : ((Operation.batchRequest queue timeout).reserve cfg.profile m1).1.map
          RequestId.toNat = _ := batch_ids hlast
      rw [htaken] at hidsN
      rw [hitems]
      have hlen := congrArg List.length hidsN
      rw [List.length_map, List.length_range', Queue.builder, BatchBuilder.ofCalls_eq] at hlen
      have hnodup : ids.Nodup := .of_map RequestId.toNat (hidsN ▸ List.nodup_range')
      exact (hpeer bytes rfl).saysAll hdec (ownsIds hr hids hmem hnodup) hlen
        (arranged_readOff hidsN hv)
    · cases hret.symm.trans heq

/-- Two calls of a client without authentication. -/
def plainConfig : Config := ⟨.checked, ⟨fun _ => true⟩, "http://127.0.0.1/", id⟩

def twoRequests : List (Operation basicTypes × List RequestId) :=
  [(.request .U64 "a" none none, [⟨0⟩]), (.request .U64 "b" none none, [⟨1⟩])]

theorem three_digits_okStatus : 100 ≤ 200 ∧ 200 < 1000 := by decide

def okStatus : StatusCode := ⟨200, three_digits_okStatus⟩

def sevenResponse : Response :=
  ⟨okStatus, .ok (bytesOf "\x7b\"jsonrpc\":\"2.0\",\"id\":0,\"result\":7\x7d")⟩

theorem replies_not_mixed_first : ∃ request resume,
    Posts plainConfig twoRequests (.request .U64 "a" none none, [⟨0⟩]) request resume ∧
    resume (.ok sevenResponse) = .ok (7 : UInt64) ∧
    ∃ o, serializeOptParams none = .ok o ∧
      sevenAndEight.Says (R := basicTypes) "a" (o.map RawValue.json) .U64 (.ok (7 : UInt64)) := by
  have hrun : ((shared basicTypes .checked).exec .new twoRequests).isSome = true := by
    decide +kernel
  obtain ⟨m, hs⟩ := Option.isSome_iff_exists.1 hrun
  have hr : (shared basicTypes plainConfig.profile).Run Machine.always twoRequests m :=
    Machine.Run.of_exec hs
  obtain ⟨request, resume, hpost⟩ : ∃ request resume,
      (Operation.request (R := basicTypes) .U64 "a" none none).perform .checked plainConfig.serde
        (plainConfig.client .new) = .posts request resume := ⟨_, _, rfl⟩
  have hposts : Posts plainConfig twoRequests (.request .U64 "a" none none, [⟨0⟩]) request resume :=
    ⟨[], _, .new, rfl, .nil, hpost⟩
  have hnew : (JsonRpcRequest.tryNew ⟨0⟩ "a" none []).1 = .ok ⟨{}, ⟨0⟩, "a", none⟩ := rfl
  have ht := JsonRpcOutgoing.read_toBytes (.Request ⟨{}, ⟨0⟩, "a", none⟩)
  have hbody : request.body = JsonRpcOutgoing.toBytes (.Request ⟨{}, ⟨0⟩, "a", none⟩) := by
    cases hpost
    rfl
  have hpeer : ∀ bytes, sevenResponse.body = .ok bytes →
      Offers sevenAndEight (SentBody plainConfig twoRequests) bytes := by
    rintro _ ⟨⟩
    refine ⟨isUtf8_bytesOf _, ⟨[], responseJson ⟨0⟩ (.num (.ofU64 7)), []⟩,
      .answer (.success 0 (.num (.ofU64 7))), by decide +kernel, responseJson_hasMembers .., ?_⟩
    intro r hr id hid
    obtain rfl := List.mem_singleton.1 hr
    obtain rfl := Option.some.inj hid
    exact ⟨_, "a", none, ⟨_, _, _, hposts, hbody ▸ ht⟩,
      (asks_tryNew hnew ht ..).2 ⟨rfl, rfl, none, rfl, rfl⟩, rfl, .inl ⟨rfl, rfl⟩⟩
  have hseven : resume (.ok sevenResponse) = .ok (7 : UInt64) := by
    have hdec : JsonRpcIncoming.tryFromBytes plainConfig.serde
        (bytesOf "\x7b\"jsonrpc\":\"2.0\",\"id\":0,\"result\":7\x7d") =
          .ok (.Response ⟨{}, ⟨0⟩, ⟨33, ⟨.num (.ofU64 7), by decide⟩⟩⟩) := by decide +kernel
    have hstatus : sevenResponse.status.isSuccess = true := rfl
    rw [request_resume hpost, ensureSuccess_ok hstatus, Outcome.ok_bind]
    simp only [sevenResponse, transport, Outcome.ok_bind, hdec, Outcome.ret_ok_bind]
    rfl
  exact ⟨_, _, hposts, hseven,
    replies_not_mixed hr (by decide +kernel) hposts hpeer (.ok (7 : UInt64)) hseven (.value _)⟩

/-! ## Every proper answer is understood -/

/-- What an operation on the ids `ids` returns for a message that answers all of them. -/
def Operation.Understands (ids : List RequestId) (msg : Inbound) :
    (op : Operation R) → Outcome op.Value → Prop
  | request T _ _ _, out => ∀ r, msg = .answer r → ids = r.id?.toList →
      ∃ v, out = .ret v ∧ r.content.Returned T v
  | notify _ _, _ => True
  | batchRequest queue _, out => ∀ rs, msg = .batch rs → ids ≠ [] →
      (rs.map Answer.id?).Perm (ids.map some) →
      ∃ items, out = .ok (some items) ∧ Arranged queue.calls ids rs items

theorem decodeSingleResponse_readAs {T : R.TypeId} {item : JsonRpcBatchResponse} {id : RequestId}
    (hid : item.id? = some id) :
    decodeSingleResponse T item.toIncoming id = readAs T item := by
  cases item with
  | Response r =>
    obtain rfl := Option.some.inj hid
    simp only [JsonRpcBatchResponse.toIncoming, decodeSingleResponse, ne_eq, not_true_eq_false,
      ↓reduceIte, readAs, ResponseTypes.fromStr, RawValue.bytesOf_get]
  | ErrorResponse e =>
    have hid : e.id = some id := hid
    simp only [JsonRpcBatchResponse.toIncoming, decodeSingleResponse, hid, ne_eq,
      not_true_eq_false, ↓reduceIte, readAs]

/-- The keys of decoded answers are the ids they refer to. -/
theorem map_idKey {rs : List Answer} {wire : List JsonRpcBatchResponse}
    (h : List.Forall₂ Answer.DecodedTo rs wire) :
    wire.map idKey = (rs.map Answer.id?).map (Option.map RequestId.toNat) := by
  induction h with
  | nil => rfl
  | cons hr _ ih =>
    simp only [List.map_cons, ih, idKey, hr.id?]

/-- **Every proper answer is understood**, however it is spelled and whatever the order of its
items: a 2xx reply with a readable text of it makes the operation return what the answer says. -/
theorem replies_understood (hr : (shared R cfg.profile).Run Machine.always h m)
    (hids : reserved h < 2 ^ 64) {op : Operation R} {ids : List RequestId}
    {request : RequestBuilder} {resume : Except String Response → Outcome op.Value}
    (hposts : Posts cfg h (op, ids) request resume) {t : Text} {msg : Inbound}
    (hutf8 : isUtf8 t.render = true) (hmsg : Denotes t msg) (hread : AllReadable cfg.serde t)
    {status : StatusCode} (hstatus : status.isSuccess = true) :
    op.Understands ids msg (resume (.ok ⟨status, .ok t.render⟩)) := by
  obtain ⟨h1, h2, m1, rfl, hr1, hpost⟩ := hposts
  have htaken : (op.reserve cfg.profile m1).1 = ids := ids_eq hr hr1
  obtain ⟨incoming, hdec, hto⟩ := decoded_of_readable hutf8 hmsg hread
  cases op with
  | request T method params timeout =>
    rintro r rfl hid
    obtain ⟨item, hitem, rfl⟩ := hto
    have hid' : item.id? = some m1.reserveId.1 := by
      rw [hitem.id?]
      have hone : [m1.reserveId.1] = r.id?.toList := htaken.trans hid
      cases hrid : r.id? with
      | none => rw [hrid] at hone; cases hone
      | some id => rw [hrid] at hone; cases hone; rfl
    refine ⟨readAs T item, ?_, hitem.returned T⟩
    rw [request_resume hpost, ensureSuccess_ok hstatus, Outcome.ok_bind]
    simp only [transport, Outcome.ok_bind, hdec, Outcome.ret_ok_bind]
    exact congrArg Outcome.ret (decodeSingleResponse_readAs hid')
  | notify method params => trivial
  | batchRequest queue timeout =>
    rintro rs rfl hne hperm
    obtain ⟨wire, rfl, hto⟩ := hto
    have hlast := ids_last hr1 hids
    have hidsN : ((Operation.batchRequest queue timeout).reserve cfg.profile m1).1.map
        RequestId.toNat = _ := batch_ids hlast
    rw [htaken] at hidsN
    have hpos : 0 < queue.builder.requests.length := by
      have hlen := congrArg List.length hidsN
      rw [List.length_map, List.length_range'] at hlen
      rw [← hlen]
      exact List.length_pos_iff.2 hne
    have hkeys : (wire.map idKey).Perm
        ((List.range' m1.current_id.toNat queue.builder.requests.length).map some) := by
      have hsome : (ids.map RequestId.toNat).map some =
          (ids.map some).map (Option.map RequestId.toNat) := by
        rw [List.map_map, List.map_map]; rfl
      rw [map_idKey hto, ← hidsN, hsome]
      exact hperm.map _
    obtain ⟨v, hv⟩ := exists_arrangement_iff.2 hkeys
    refine ⟨_, ?_, (arranged_readOff hidsN hv).arranged hto⟩
    have hvalid : queue.builder.Valid := BatchBuilder.valid_ofCalls queue.calls
    rw [batchRequest_items hvalid (by omega) (List.length_pos_iff.1 hpos) hpost hstatus hdec]
    rcases correlateBatch_eq cfg.profile hvalid hpos hlast wire with ⟨v', hv', heq⟩ | ⟨hno, -⟩
    · rw [hv.unique hv']
      exact heq
    · exact absurd ⟨v, hv⟩ hno

/-- A batch of two, whose requests are answered in the other order. -/
def twoQueue : Queue basicTypes :=
  ⟨[.addRequest .U64 "a" none, .addNotification "n" none, .addRequest .U64 "b" none], by decide⟩

def twoAnswers : Text :=
  ⟨[], .compactArr [responseJson ⟨1⟩ (.num (.ofU64 8)), responseJson ⟨0⟩ (.num (.ofU64 7))], []⟩

theorem replies_understood_two : ∃ request resume items,
    Posts plainConfig [(.batchRequest twoQueue none, [⟨0⟩, ⟨1⟩])]
      (.batchRequest twoQueue none, [⟨0⟩, ⟨1⟩]) request resume ∧
    resume (.ok ⟨okStatus, .ok twoAnswers.render⟩) = .ok (some items) ∧
    items.length = 2 := by
  have hrun : ((shared basicTypes .checked).exec .new
      [(.batchRequest twoQueue none, [⟨0⟩, ⟨1⟩])]).isSome = true := by decide +kernel
  obtain ⟨m, hs⟩ := Option.isSome_iff_exists.1 hrun
  have hr : (shared basicTypes plainConfig.profile).Run Machine.always
    [(.batchRequest twoQueue none, [⟨0⟩, ⟨1⟩])] m := Machine.Run.of_exec hs
  obtain ⟨request, resume, hpost⟩ : ∃ request resume,
      (Operation.batchRequest twoQueue none).perform .checked plainConfig.serde
        (plainConfig.client .new) = .posts request resume := ⟨_, _, rfl⟩
  have hposts : Posts plainConfig [(.batchRequest twoQueue none, [⟨0⟩, ⟨1⟩])]
    (.batchRequest twoQueue none, [⟨0⟩, ⟨1⟩]) request resume := ⟨[], _, .new, rfl, .nil, hpost⟩
  have hmsg : Denotes twoAnswers
      (.batch [.success 1 (.num (.ofU64 8)), .success 0 (.num (.ofU64 7))]) :=
    ⟨_, rfl, .cons (responseJson_hasMembers ..) (.cons (responseJson_hasMembers ..) .nil)⟩
  have hread : AllReadable plainConfig.serde twoAnswers := by
    have hok : (JsonRpcIncoming.tryFromBytes plainConfig.serde twoAnswers.render).toBool =
      true := by decide +kernel
    cases hdec : JsonRpcIncoming.tryFromBytes plainConfig.serde twoAnswers.render with
    | error e => rw [hdec] at hok; cases hok
    | ok msg => exact allReadable hdec
  have hstatus : okStatus.isSuccess = true := rfl
  obtain ⟨items, hret, hlen, -⟩ := replies_understood hr (by decide +kernel) hposts
    (by decide +kernel) hmsg hread hstatus _ rfl (by simp) (.swap _ _ _)
  exact ⟨request, resume, items, hposts, hret, hlen⟩

end Http

end JsonRpc
