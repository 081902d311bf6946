import JsonRpcClient.Core.Wire
import JsonRpcClient.Http.Correlate

/-!
# `HttpClient` (jsonrpc_http_client/src/lib.rs)

An operation of the client POSTs once at most. It is modelled as an `Exchange`: what it returns
before it has sent anything, or the POST and what it makes of the reply, which is whatever the
transport answers. `ensure_success` is called in two of the four places that send:
`failures_reported_iff` says for which operations a reply that is no 2xx is therefore an error.

| here | there |
| --- | --- |
| `decodeSingleResponse` | `decode_single_response` (jsonrpc_core/src/decode.rs:38) |
| `ensureSuccess` | `ensure_success` (lib.rs:45) |
| `HttpClient.reqBuilder` | `req_builder` (lib.rs:148) |
| `HttpClient.sendBatch` | `send_batch` (lib.rs:159) |
| `HttpClient.request`, `notify`, `batchRequest` | `Client for HttpClient` (lib.rs:207-279) |
-/

namespace JsonRpc
open Json

variable {R : ResponseTypes}

/-- `expected_id` is the id the request was sent with. -/
def decodeSingleResponse (T : R.TypeId) (incoming : JsonRpcIncoming) (expected_id : RequestId) :
    Result (R.Val T) :=
  match incoming with
  | .Response r =>
    if r.id ≠ expected_id then .error (.InvalidMessage "response id does not match request id")
    else serdeOk (R.fromStr T r.result.raw.get)
  | .ErrorResponse e =>
    match e.id with
    | some id =>
      if id ≠ expected_id then
        .error (.InvalidMessage "error response id does not match request id")
      else .error (.ofResponse e)
    | none => .error (.ofResponse e)
  | .Notification _ => .error (.InvalidMessage "notification received")
  | .BatchResponse _ => .error (.InvalidMessage "batch response received")

namespace Http

/-! ## `reqwest` -/

/-- `reqwest::StatusCode`. -/
structure StatusCode where
  code : Nat
  three_digits : 100 ≤ code ∧ code < 1000
deriving DecidableEq

/-- `StatusCode::is_success`: 2xx. -/
def StatusCode.isSuccess (status : StatusCode) : Bool := 200 ≤ status.code && status.code < 300

/-- A reply to a POST, of which the body is still to be read. -/
structure Response where
  status : StatusCode
  body : Except String Bytes

/-- A POST in the making. -/
structure RequestBuilder where
  url : String
  headers : List (String × String)
  timeout : Option Duration
  body : Bytes
deriving DecidableEq

/-- `if let Some(timeout) = timeout { builder = builder.timeout(timeout) }`. -/
def RequestBuilder.withTimeout (builder : RequestBuilder) : Option Duration → RequestBuilder
  | some timeout => { builder with timeout := some timeout }
  | none => builder

def RequestBuilder.withBody (builder : RequestBuilder) (body : Bytes) : RequestBuilder :=
  { builder with body := body }

/-- `.map_err(|e| Error::TransportError(e.into()))?`. -/
def transport {α : Type} : Except String α → Outcome α
  | .ok a => .ok a
  | .error text => .err (.TransportError text)

/-- An operation that POSTs once at most; `resume` gets what `send().await` returns. -/
inductive Exchange (α : Type) where
  | returns (out : Outcome α)
  | posts (request : RequestBuilder) (resume : Except String Response → Outcome α)

/-- If it sends something and the reply to it has this status, which is no 2xx, then it fails with a
`TransportError`, the same one for every body. -/
def Exchange.ReportsFailure {α : Type} (x : Exchange α) (status : StatusCode) : Prop :=
  ∀ request resume, x = .posts request resume → status.isSuccess = false →
    ∃ text, ∀ body, resume (.ok ⟨status, body⟩) = .err (.TransportError text)

/-! ## The client -/

structure HttpClient where
  endpoint : String
  /-- `AuthStrategy::apply` -/
  auth_strategy : RequestBuilder → RequestBuilder
  id_manager : RequestIdManager

/-- The text goes on with the reason phrase of the status. -/
def StatusCode.failure (status : StatusCode) : Error :=
  .TransportError ("HTTP request failed with status " ++ toString status.code)

def ensureSuccess (response : Response) : Outcome Unit :=
  if response.status.isSuccess then .ok () else .err response.status.failure

namespace HttpClient

def reqBuilder (client : HttpClient) : RequestBuilder :=
  client.auth_strategy ⟨client.endpoint, [("Content-Type", "application/json")], none, []⟩

/-- `request::<_, _, T>`, and the client after the id is reserved. -/
def request (J : SerdeJson) (client : HttpClient) (T : R.TypeId) (method : String)
    (params : Option Serialized) (timeout : Option Duration) :
    Exchange (R.Val T) × HttpClient :=
  let builder := client.reqBuilder.withTimeout timeout
  let (id, id_manager) := client.id_manager.reserveId
  (match (JsonRpcRequest.tryNew id method params []).1 with
    | .error e => .returns (.err e)
    | .ok request =>
      .posts (builder.withBody (JsonRpcOutgoing.toBytes (.Request request))) fun sent => do
        let response ← transport sent
        ensureSuccess response
        let bytes ← transport response.body
        let incoming ← Outcome.ret (JsonRpcIncoming.tryFromBytes J bytes)
        Outcome.ret (decodeSingleResponse T incoming request.id),
    { client with id_manager := id_manager })

def notify (client : HttpClient) (method : String) (params : Option Serialized) : Exchange Unit :=
  match (JsonRpcNotification.tryNew method params []).1 with
  | .error e => .returns (.err e)
  | .ok notification =>
    .posts (client.reqBuilder.withBody (JsonRpcOutgoing.toBytes (.Notification notification)))
      fun sent => do
        let _ ← transport sent
        return ()

/-- What `send_batch` does with a batch that was built, `range` being its `request_id_range`. -/
def sendBuilt (p : Profile) (J : SerdeJson) (req_builder : RequestBuilder) (batch : Batch R) :
    Exchange (Option (List (BatchResponseItem R))) :=
  match batch.request_id_range with
  | none => .posts (req_builder.withBody (batchBytes batch.items)) fun sent => do
    let _ ← transport sent
    return none
  | some range => .posts (req_builder.withBody (batchBytes batch.items)) fun sent => do
    let response ← transport sent
    ensureSuccess response
    let bytes ← transport response.body
    match ← Outcome.ret (JsonRpcIncoming.tryFromBytes J bytes) with
    | .BatchResponse items =>
      let result ← correlateBatchItems p items range batch.parsers
      return some result
    | _ => Outcome.err (.InvalidMessage "expected a batch response")

def sendBatch (p : Profile) (J : SerdeJson) (client : HttpClient) (builder : BatchBuilder R)
    (req_builder : RequestBuilder) :
    Exchange (Option (List (BatchResponseItem R))) × HttpClient :=
  let (built, id_manager) := builder.build p client.id_manager
  (match built with
    | .panic => .returns .panic
    | .ret (.error e) => .returns (.err e)
    | .ret (.ok none) => .returns (.ok none)
    | .ret (.ok (some batch)) => sendBuilt p J req_builder batch,
    { client with id_manager := id_manager })

def batchRequest (p : Profile) (J : SerdeJson) (client : HttpClient) (builder : BatchBuilder R)
    (timeout : Option Duration) : Exchange (Option (List (BatchResponseItem R))) × HttpClient :=
  client.sendBatch p J builder (client.reqBuilder.withTimeout timeout)

end HttpClient

/-- A queue, as the calls that filled its builder; its `Vec` of requests is as long as a `usize` can
say. -/
structure Queue (R : ResponseTypes) where
  calls : List (BatchBuilder.Call R)
  fits : (BatchBuilder.ofCalls calls).requests.length < 2 ^ 64

def Queue.builder (queue : Queue R) : BatchBuilder R := BatchBuilder.ofCalls queue.calls

/-- The operations of `Client`, with their arguments. -/
inductive Operation (R : ResponseTypes) where
  | request (T : R.TypeId) (method : String) (params : Option Serialized)
      (timeout : Option Duration)
  | notify (method : String) (params : Option Serialized)
  | batchRequest (queue : Queue R) (timeout : Option Duration)

namespace Operation

/-- What it returns when it is `Ok`. -/
abbrev Value : Operation R → Type
  | request T _ _ _ => R.Val T
  | notify _ _ => Unit
  | batchRequest _ _ => Option (List (BatchResponseItem R))

def perform (p : Profile) (J : SerdeJson) (client : HttpClient) :
    (op : Operation R) → Exchange op.Value
  | request T method params timeout => (client.request J T method params timeout).1
  | notify method params => client.notify method params
  | batchRequest queue timeout => (client.batchRequest p J queue.builder timeout).1

/-- The operation sends something that nobody answers: a notification with valid params, or a batch
of notifications only. -/
def FireAndForget : Operation R → Prop
  | request _ _ _ _ => False
  | notify method params => (JsonRpcNotification.tryNew method params []).1.toBool = true
  | batchRequest queue _ => queue.builder.requests = [] ∧ queue.builder.notifications ≠ []

end Operation

/-! ## What is made of a reply -/

theorem ensureSuccess_ok {response : Response} (h : response.status.isSuccess = true) :
    ensureSuccess response = .ok () := by
  simp only [ensureSuccess, h, ↓reduceIte]

/-- The error does not depend on the body. -/
theorem ensureSuccess_err {response : Response} (h : response.status.isSuccess = false) :
    ensureSuccess response = .err response.status.failure := by
  simp only [ensureSuccess, h, Bool.false_eq_true, ↓reduceIte]

section
variable {p : Profile} {J : SerdeJson} {client : HttpClient} {request : RequestBuilder}

/-- What a request makes of a reply, `decode_single_response` being given the id it reserved. -/
theorem request_resume {T : R.TypeId} {method : String} {params : Option Serialized}
    {timeout : Option Duration} {resume : Except String Response → Outcome (R.Val T)}
    (hpost : (client.request J T method params timeout).1 = .posts request resume)
    (response : Response) :
    resume (.ok response) = (ensureSuccess response).bind fun _ =>
      (transport response.body).bind fun bytes =>
        (Outcome.ret (JsonRpcIncoming.tryFromBytes J bytes)).bind fun incoming =>
          .ret (decodeSingleResponse T incoming client.id_manager.reserveId.1) := by
  simp only [HttpClient.request] at hpost
  cases hnew : (JsonRpcRequest.tryNew client.id_manager.reserveId.1 method params []).1 with
  | error e => rw [hnew] at hpost; cases hpost
  | ok r =>
    rw [hnew] at hpost
    cases hpost
    rw [← JsonRpcRequest.tryNew_id hnew]
    rfl

theorem notify_resume {method : String} {params : Option Serialized}
    {resume : Except String Response → Outcome Unit}
    (hpost : client.notify method params = .posts request resume) (response : Response) :
    (JsonRpcNotification.tryNew method params []).1.toBool = true ∧
      resume (.ok response) = .ok () := by
  unfold HttpClient.notify at hpost
  split at hpost
  · cases hpost
  · rename_i n hnew
    cases hpost
    exact ⟨by rw [hnew]; rfl, rfl⟩

theorem notify_posts {method : String} {params : Option Serialized}
    (h : (JsonRpcNotification.tryNew method params []).1.toBool = true) :
    ∃ request resume, client.notify method params = .posts request resume := by
  unfold HttpClient.notify
  split
  · rename_i e hnew
    rw [hnew] at h; cases h
  · exact ⟨_, _, rfl⟩

/-- `send_batch` sends what `build` made, and nothing else. -/
theorem batchRequest_eq {builder : BatchBuilder R} {timeout : Option Duration} {batch : Batch R}
    (hbuild : (builder.build p client.id_manager).1 = .ok (some batch)) :
    (client.batchRequest p J builder timeout).1 =
      HttpClient.sendBuilt p J (client.reqBuilder.withTimeout timeout) batch := by
  simp only [HttpClient.batchRequest, HttpClient.sendBatch, hbuild, Outcome.ok]

theorem batchRequest_posts {builder : BatchBuilder R} {timeout : Option Duration}
    {resume : Except String Response → Outcome (Option (List (BatchResponseItem R)))}
    (hpost : (client.batchRequest p J builder timeout).1 = .posts request resume) :
    ∃ batch, (builder.build p client.id_manager).1 = .ok (some batch) ∧
      HttpClient.sendBuilt p J
        (client.reqBuilder.withTimeout timeout) batch = .posts request resume := by
  simp only [HttpClient.batchRequest, HttpClient.sendBatch] at hpost
  split at hpost
  · cases hpost
  · cases hpost
  · cases hpost
  · rename_i batch hbuild
    exact ⟨batch, hbuild, hpost⟩

/-- A batch with a range is not read before the status is checked. -/
theorem sendBuilt_failure {req_builder : RequestBuilder} {batch : Batch R} {range : RangeInclusive}
    {resume : Except String Response → Outcome (Option (List (BatchResponseItem R)))}
    (hrange : batch.request_id_range = some range)
    (hpost : HttpClient.sendBuilt p J req_builder batch = .posts request resume)
    {response : Response} (h : response.status.isSuccess = false) :
    resume (.ok response) = .err response.status.failure := by
  simp only [HttpClient.sendBuilt, hrange] at hpost
  cases hpost
  simp only [transport, Outcome.bind_eq, Outcome.ok_bind, ensureSuccess_err h, Outcome.err_bind]

/-- The items of a 2xx reply go through `correlate_batch_items`. -/
theorem sendBuilt_items {req_builder : RequestBuilder} {batch : Batch R} {range : RangeInclusive}
    {resume : Except String Response → Outcome (Option (List (BatchResponseItem R)))}
    (hrange : batch.request_id_range = some range)
    (hpost : HttpClient.sendBuilt p J req_builder batch = .posts request resume)
    {status : StatusCode} (h : status.isSuccess = true) {bytes : Bytes}
    {items : List JsonRpcBatchResponse}
    (hdec : JsonRpcIncoming.tryFromBytes J bytes = .ok (.BatchResponse items)) :
    resume (.ok ⟨status, .ok bytes⟩) =
      (correlateBatchItems p items range batch.parsers).bind fun v => .ok (some v) := by
  simp only [HttpClient.sendBuilt, hrange] at hpost
  cases hpost
  simp only [transport, Outcome.bind_eq, Outcome.ok_bind, hdec, Outcome.ret_ok_bind,
    @ensureSuccess_ok ⟨status, .ok bytes⟩ h, Outcome.pure_eq]

/-- A batch of notifications is answered with whatever comes. -/
theorem sendBuilt_notifications {req_builder : RequestBuilder} {batch : Batch R}
    (hrange : batch.request_id_range = none) :
    ∃ resume, HttpClient.sendBuilt p J req_builder batch =
        .posts (req_builder.withBody (batchBytes batch.items)) resume ∧
      ∀ response, resume (.ok response) = .ok none := by
  simp only [HttpClient.sendBuilt, hrange]
  exact ⟨_, rfl, fun _ => rfl⟩

/-- What `correlateBatch` says of a decoded reply is said of the reply of the client. -/
theorem batchRequest_items {builder : BatchBuilder R} {timeout : Option Duration}
    {resume : Except String Response → Outcome (Option (List (BatchResponseItem R)))}
    (hb : builder.Valid) (hlen : builder.requests.length < 2 ^ 64) (hne : builder.requests ≠ [])
    (hpost : (client.batchRequest p J builder timeout).1 = .posts request resume)
    {status : StatusCode} (h : status.isSuccess = true) {bytes : Bytes}
    {items : List JsonRpcBatchResponse}
    (hdec : JsonRpcIncoming.tryFromBytes J bytes = .ok (.BatchResponse items)) :
    resume (.ok ⟨status, .ok bytes⟩) = correlateBatch p builder client.id_manager items := by
  obtain ⟨batch, hbuild, hsend⟩ := batchRequest_posts hpost
  cases hrange : batch.request_id_range with
  | none => exact absurd (BatchBuilder.build_range hb hlen hbuild hrange) hne
  | some range =>
    rw [sendBuilt_items hrange hsend h hdec]
    simp only [correlateBatch, hbuild, Outcome.ok_bind, hrange]

/-! ## Failures -/

/-- **Which operations report a reply that is no 2xx**: all but those that nobody answers, which are
`Ok` whatever the status is. -/
theorem failures_reported_iff (p : Profile) (J : SerdeJson) (client : HttpClient)
    (op : Operation R) (status : StatusCode) :
    (op.perform p J client).ReportsFailure status ↔
      status.isSuccess = true ∨ ¬ op.FireAndForget := by
  by_cases hstatus : status.isSuccess = true
  · refine iff_of_true ?_ (.inl hstatus)
    intro request resume hpost hfail
    rw [hstatus] at hfail; cases hfail
  simp only [hstatus, Bool.false_eq_true, false_or]
  rw [Bool.not_eq_true] at hstatus
  cases op with
  | request T method params timeout =>
    refine iff_of_true ?_ not_false
    intro request resume hpost _
    refine ⟨"HTTP request failed with status " ++ toString status.code, fun body => ?_⟩
    rw [request_resume hpost, ensureSuccess_err hstatus, Outcome.err_bind]
    rfl
  | notify method params =>
    constructor
    · intro h hvalid
      obtain ⟨request, resume, hpost⟩ := @notify_posts client method params hvalid
      obtain ⟨text, htext⟩ := h request resume hpost hstatus
      have hok := (notify_resume hpost ⟨status, .ok []⟩).2
      rw [htext] at hok; cases hok
    · intro h request resume hpost
      exact absurd (notify_resume hpost ⟨status, .ok []⟩).1 h
  | batchRequest queue timeout =>
    have hvalid : queue.builder.Valid := BatchBuilder.valid_ofCalls queue.calls
    constructor
    · rintro h ⟨hreq, hn⟩
      have hbuild := BatchBuilder.build_notifications p client.id_manager hvalid hreq hn
      obtain ⟨resume, hsend, hok⟩ := @sendBuilt_notifications R p J
        (client.reqBuilder.withTimeout timeout)
        ⟨none, [], queue.builder.notifications.map QueuedNotification.toOutgoing⟩ rfl
      have hpost : (client.batchRequest p J queue.builder timeout).1 = _ :=
        (batchRequest_eq (congrArg Prod.fst hbuild)).trans hsend
      obtain ⟨text, htext⟩ := h _ resume hpost hstatus
      have hok := hok ⟨status, .ok []⟩
      rw [htext] at hok; cases hok
    · intro h request resume hpost _
      obtain ⟨batch, hbuild, hsend⟩ := batchRequest_posts hpost
      cases hrange : batch.request_id_range with
      | none =>
        -- nothing was built for an empty queue, so there are notifications
        have hreq := BatchBuilder.build_range hvalid queue.fits hbuild hrange
        refine absurd ⟨hreq, fun hn => ?_⟩ h
        simp only [BatchBuilder.build, hreq, hn] at hbuild
        cases hbuild
      | some range =>
        refine ⟨"HTTP request failed with status " ++ toString status.code, fun body => ?_⟩
        exact sendBuilt_failure hrange hsend hstatus

end

/-- A client as `try_new` makes it, without authentication. -/
def plainClient : HttpClient := ⟨"http://127.0.0.1/", id, .new⟩

def unauthorized : StatusCode := ⟨401, by decide⟩

/-- **A notification that the peer refuses is reported as sent.** -/
theorem refused_notify_succeeds :
    ∃ request resume, plainClient.notify "m" none = .posts request resume ∧
      resume (.ok ⟨unauthorized, .ok (bytesOf "<html>")⟩) = .ok () ∧
      ¬ (Operation.perform .checked ⟨fun _ => true⟩ plainClient
        (.notify "m" none : Operation basicTypes)).ReportsFailure unauthorized := by
  refine ⟨_, _, rfl, rfl, fun h => ?_⟩
  obtain ⟨text, htext⟩ := h _ _ rfl rfl
  cases htext (.ok [])

end Http

end JsonRpc
