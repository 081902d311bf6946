import JsonRpcClient.Http.Client
import JsonRpcClient.Ws.Correlation

/-!
# A single reply, over HTTP and over a WebSocket

The HTTP client compares the id of a reply with that of its one request, and parses the borrowed
`result`. The WebSocket client looks the id up in a map, sends the caller a pair of offsets, and the
caller cuts the `result` out of the message again. `single_reply_alike`: both return the same.

| here | there |
| --- | --- |
| `decodeSingleResponse` | jsonrpc_core/src/decode.rs:38 |
| `handleMessage`, `readReply` | handles.rs:146-160, client.rs:254-268 |
-/

namespace JsonRpc

variable {R : ResponseTypes}

/-- The id of a message that answers one request. -/
def JsonRpcIncoming.singleId? : JsonRpcIncoming → Option RequestId
  | .Response r => some r.id
  | .ErrorResponse e => e.id
  | _ => none

def Error.IsRpc (e : Error) : Prop :=
  ∃ id code text data, e = .RpcError id code text data

theorem Error.Rejects.not_isRpc {e : Error} (h : e.Rejects) : ¬ e.IsRpc := by
  rintro ⟨id, code, text, data, rfl⟩
  cases h

/-- What a message that carries the id of a call makes of it, by the wire. -/
inductive Answers (T : R.TypeId) : JsonRpcIncoming → Outcome (R.Val T) → Prop
  | value {resp v} (hv : R.fromStr T resp.result.raw.get = some v) :
      Answers T (.Response resp) (.ok v)
  | unreadable {resp} (hv : R.fromStr T resp.result.raw.get = none) :
      Answers T (.Response resp) (.err .SerdeError)
  | error {e id code} (hid : e.id = some id) (hcode : code.toI64 = e.error.code) :
      Answers T (.ErrorResponse e)
        (.err (.RpcError (some id) code e.error.message (e.error.data.map RawSpan.raw)))

/-! ## The HTTP client -/

theorem decodeSingleResponse_answers {T : R.TypeId} {m : JsonRpcIncoming} {id : RequestId}
    (hid : m.singleId? = some id) : Answers T m (.ret (decodeSingleResponse T m id)) := by
  cases m with
  | Response r =>
    obtain rfl := Option.some.inj hid
    simp only [decodeSingleResponse, ne_eq, not_true_eq_false, ↓reduceIte]
    cases hv : R.fromStr T r.result.raw.get with
    | some v => exact .value hv
    | none => exact .unreadable hv
  | ErrorResponse e =>
    have hid' : e.id = some id := hid
    simp only [decodeSingleResponse, hid', ne_eq, not_true_eq_false, ↓reduceIte]
    have h := Answers.error (T := T) hid' (JsonRpcErrorCode.toI64_ofI64 e.error.code)
    rw [← hid'] at h
    exact h
  | Notification n => cases hid
  | BatchResponse items => cases hid

/-- A message that answers something else is an error, and an `RpcError` if it is an error response
that answers nothing in particular. -/
theorem decodeSingleResponse_foreign {T : R.TypeId} {m : JsonRpcIncoming} {id : RequestId}
    (hid : m.singleId? ≠ some id) :
    ∃ e, decodeSingleResponse T m id = .error e ∧
      (e.IsRpc ↔ ∃ r, m = .ErrorResponse r ∧ r.id = none) := by
  cases m with
  | Response r =>
    have hne : r.id ≠ id := by
      intro h
      exact hid (congrArg some h)
    simp only [decodeSingleResponse, hne, ne_eq, not_false_eq_true, ↓reduceIte]
    exact ⟨_, rfl, by simp [Error.IsRpc]⟩
  | ErrorResponse e =>
    cases he : e.id with
    | none =>
      simp only [decodeSingleResponse, he]
      exact ⟨_, rfl, iff_of_true ⟨_, _, _, _, rfl⟩ ⟨e, rfl, he⟩⟩
    | some id' =>
      have hne : id' ≠ id := by
        intro h
        exact hid (he.trans (congrArg some h))
      simp only [decodeSingleResponse, he, hne, ne_eq, not_false_eq_true, ↓reduceIte]
      exact ⟨_, rfl, by simp [Error.IsRpc, he]⟩
  | Notification n => exact ⟨_, rfl, by simp [Error.IsRpc]⟩
  | BatchResponse items => exact ⟨_, rfl, by simp [Error.IsRpc]⟩

namespace Ws
open Json Http Oneshot

variable {Tx : Type} {p : Profile} {J : SerdeJson} {msg : Message} {data : Bytes}

/-- What an HTTP call makes of a 2xx reply. -/
theorem request_success {http : HttpClient} {T : R.TypeId} {method : String}
    {params : Option Serialized} {timeout : Option Duration} {request : RequestBuilder}
    {resume : Except String Response → Outcome (R.Val T)}
    (hpost : (http.request J T method params timeout).1 = .posts request resume)
    {id : RequestId} (hid : http.id_manager.reserveId.1 = id)
    {status : StatusCode} (hstatus : status.isSuccess = true) :
    resume (.ok ⟨status, .ok data⟩) =
      (Outcome.ret (JsonRpcIncoming.tryFromBytes J data)).bind fun m =>
        .ret (decodeSingleResponse T m id) := by
  rw [request_resume hpost, ensureSuccess_ok hstatus, Outcome.ok_bind, hid]
  rfl

/-! ## The WebSocket client -/

theorem route_single {m : JsonRpcIncoming} {id : RequestId}
    (hdec : JsonRpcIncoming.tryFromBytes J data = .ok m) (hid : m.singleId? = some id) :
    ∃ v, route p J msg data = .unary id v := by
  cases m with
  | Response r =>
    obtain rfl := Option.some.inj hid
    exact ⟨.ok (msg, .of r.result), by simp only [route, hdec]⟩
  | ErrorResponse e =>
    have hid' : e.id = some id := hid
    exact ⟨.error (.ofResponse e), by simp only [route, hdec, hid']⟩
  | Notification n => cases hid
  | BatchResponse items => cases hid

/-- What a request returns for what a frame is routed to it with, `decode_single_response` makes of
the message. -/
theorem route_return {id : RequestId} {v : Reply} (hdata : msg.data? = some data)
    (hroute : route p J msg data = .unary id v) :
    ∃ m, JsonRpcIncoming.tryFromBytes J data = .ok m ∧ m.singleId? = some id ∧
      ∀ (cfg : Config R) T method params timeout,
        requestReturn cfg T method params timeout (.received v) =
          some (.ret (decodeSingleResponse T m id)) := by
  have hroutes := routes p J msg data
  rw [hroute] at hroutes
  cases hroutes with
  | response hdec =>
    refine ⟨_, hdec, rfl, ?_⟩
    intro cfg T method params timeout
    rw [requestReturn, readReply_decoded hdata hdec]
    simp only [decodeSingleResponse, ne_eq, not_true_eq_false, ↓reduceIte, ResponseTypes.fromStr,
      RawValue.bytesOf_get]
  | errorResponse hdec hid =>
    refine ⟨_, hdec, hid, ?_⟩
    intro cfg T method params timeout
    simp only [requestReturn, decodeSingleResponse, hid, ne_eq, not_true_eq_false, ↓reduceIte]
    rfl

/-- The frame is given to the sender `tx`, which is removed, and the call returns `out`. -/
def RepliesWith (handled : Handled Tx) (maps : PendingMaps Tx) (id : RequestId) (tx : Tx)
    {T : R.TypeId} (out : Outcome (R.Val T)) : Prop :=
  ∃ value, handled.sent = some (.reply tx value) ∧
    handled.maps = { maps with pending_requests := maps.pending_requests.erase id } ∧
    ∀ (cfg : Config R) method params timeout,
      requestReturn cfg T method params timeout (.received value) = some out

theorem handleMessage_replies {maps : PendingMaps Tx} {id : RequestId} {tx : Tx} {T : R.TypeId}
    {m : JsonRpcIncoming} (hdata : msg.data? = some data)
    (hdec : JsonRpcIncoming.tryFromBytes J data = .ok m) (hid : m.singleId? = some id)
    (hpending : maps.pending_requests.lookup id = some tx) :
    RepliesWith (handleMessage p J msg data maps) maps id tx
      (.ret (decodeSingleResponse T m id)) := by
  obtain ⟨v, hroute⟩ := @route_single p J msg data m id hdec hid
  obtain ⟨m', hdec', -, hret⟩ := @route_return R p J msg data id v hdata hroute
  obtain rfl := Except.ok.inj (hdec.symm.trans hdec')
  refine ⟨v, ?_, ?_, fun cfg => hret cfg T⟩
  · simp only [handleMessage, hroute, hpending]
  · simp only [handleMessage, hroute, hpending]

/-- A frame without the id leaves the sender where it is. -/
theorem handleMessage_pending {maps : PendingMaps Tx} {id : RequestId} {tx : Tx}
    (hdata : msg.data? = some data)
    (hother : ∀ m, JsonRpcIncoming.tryFromBytes J data = .ok m → m.singleId? ≠ some id)
    (hpending : maps.pending_requests.lookup id = some tx) :
    (handleMessage p J msg data maps).maps.pending_requests.lookup id = some tx := by
  cases hroute : route p J msg data with
  | unary id' v =>
    obtain ⟨m, hdec, hid, -⟩ := @route_return basicTypes p J msg data id' v hdata hroute
    have hne : id ≠ id' := by
      rintro rfl
      exact hother m hdec hid
    cases htx : maps.pending_requests.lookup id' with
    | none => simp only [handleMessage, hroute, htx, hpending]
    | some tx' => simp only [handleMessage, hroute, htx, AList.lookup_erase_ne hne, hpending]
  | batch key v =>
    cases htx : maps.pending_batch_requests.lookup key with
    | none => simp only [handleMessage, hroute, htx, hpending]
    | some tx' => simp only [handleMessage, hroute, htx, hpending]
  | notification n => simp only [handleMessage, hroute, hpending]
  | drop => simp only [handleMessage, hroute, hpending]
  | panic => simp only [handleMessage, hroute, hpending]

/-! ## Both -/

/-- The bytes `data`, as the reply to an HTTP request with the id `id`, which returns `out`, and as
a frame, which was `handled` with the sender `tx` pending under `id`. -/
structure Alike (J : SerdeJson) (data : Bytes) (id : RequestId) (maps : PendingMaps Tx) (tx : Tx)
    (handled : Handled Tx) {T : R.TypeId} (out : Outcome (R.Val T)) : Prop where
  /-- a reply with the id makes both calls return the same -/
  carried : ∀ m, JsonRpcIncoming.tryFromBytes J data = .ok m → m.singleId? = some id →
    Answers T m out ∧ RepliesWith handled maps id tx out
  /-- anything else leaves the one pending, and fails the other -/
  foreign : (∀ m, JsonRpcIncoming.tryFromBytes J data = .ok m → m.singleId? ≠ some id) →
    handled.maps.pending_requests.lookup id = some tx ∧
    ∃ e, out = .err e ∧
      (e.IsRpc ↔ ∃ r, JsonRpcIncoming.tryFromBytes J data = .ok (.ErrorResponse r) ∧ r.id = none)

/-- **A single reply is resolved alike by both clients**, for an HTTP request that was sent with the
id `id`:

* every reply to it with a 2xx status, taken as a frame by `handle_message` while a request waits
  under `id`, whatever else is pending, makes that request return the same, or, if it does not carry
  `id`, leaves it waiting;
* in every run of a client, a request with that id which returns what it received returns what the
  HTTP request makes of the frame that resolved it, unless the connection was lost. -/
theorem single_reply_alike {http : HttpClient} {T : R.TypeId} {method : String}
    {params : Option Serialized} {timeout : Option Duration} {request : RequestBuilder}
    {resume : Except String Response → Outcome (R.Val T)}
    (hpost : (http.request J T method params timeout).1 = .posts request resume)
    {id : RequestId} (hid : http.id_manager.reserveId.1 = id)
    {status : StatusCode} (hstatus : status.isSuccess = true) :
    (∀ (Tx : Type) (p : Profile) (msg : Message) (data : Bytes) (maps : PendingMaps Tx) (tx : Tx),
      msg.data? = some data → maps.pending_requests.lookup id = some tx →
        Alike J data id maps tx (handleMessage p J msg data maps)
          (resume (.ok ⟨status, .ok data⟩))) ∧
    (∀ (cfg : Config R) (h : List Action) (s : State) (c : Nat) (v : Reply)
      (out : Outcome (R.Val T)), cfg.serde = J → (client cfg).Run Machine.always h s →
      s.unary.key c = some id → s.unary.phase c = .over (.received v) →
      RequestReturned cfg s c out → v = .error connectionLost ∨
        ∃ msg data, msg.data? = some data ∧
          ResolvedBy cfg h c [.reserveId c id, .call c .insert] msg [.reply, .call c .resume] ∧
          out = resume (.ok ⟨status, .ok data⟩)) := by
  constructor
  · intro Tx p msg data maps tx hdata hpending
    rw [request_success hpost hid hstatus]
    constructor
    · intro m hdec hm
      rw [hdec, Outcome.ret_ok_bind]
      exact ⟨decodeSingleResponse_answers hm, handleMessage_replies hdata hdec hm hpending⟩
    · intro hother
      refine ⟨handleMessage_pending hdata hother hpending, ?_⟩
      cases hdec : JsonRpcIncoming.tryFromBytes J data with
      | error e =>
        -- a text that is no message
        refine ⟨e, by rw [Outcome.ret_error_bind], iff_of_false ?_ ?_⟩
        · exact (JsonRpcIncoming.tryFromBytes_eq_error hdec).not_isRpc
        · rintro ⟨r, hr, -⟩
          cases hr
      | ok m =>
        obtain ⟨e, he, hrpc⟩ := decodeSingleResponse_foreign (T := T) (hother m hdec)
        refine ⟨e, by rw [Outcome.ret_ok_bind, he]; rfl, hrpc.trans ?_⟩
        simp only [Except.ok.injEq]
  · rintro cfg h s c v out rfl hr hkey hphase ⟨method', params', timeout', e, -, hphase', hret⟩
    obtain rfl : Exit.received v = e := by
      rw [hphase] at hphase'
      cases hphase'
      rfl
    rcases received_unary hr hphase with ⟨id', msg, hkey', hroute, hres⟩ | hlost
    · obtain rfl : id = id' := Option.some.inj (hkey.symm.trans hkey')
      obtain ⟨data, hdata, -⟩ := routeMessage_routes (by simp) hroute
      have hroute' : route cfg.profile cfg.serde msg data = .unary id v := by
        rw [← hroute, routeMessage, hdata]
      obtain ⟨m, hdec, -, hreturn⟩ := @route_return R _ _ _ _ id v hdata hroute'
      refine .inr ⟨msg, data, hdata, hres, ?_⟩
      rw [request_success hpost hid hstatus, hdec, Outcome.ret_ok_bind]
      rw [hreturn] at hret
      exact (Option.some.inj hret).symm
    · exact .inl hlost

def ok200 : StatusCode := ⟨200, by decide⟩

/-- The reply to request `0` in `twoReplies`. -/
def sevenReply : String := "\x7b\"jsonrpc\":\"2.0\",\"id\":0,\"result\":7\x7d"

theorem single_reply_alike_seven : ∃ request resume,
    (plainClient.request (R := basicTypes) ⟨fun _ => true⟩ .U64 "a" none none).1 =
      .posts request resume ∧
    Alike ⟨fun _ => true⟩ (bytesOf sevenReply) ⟨0⟩
      ⟨(∅ : DashMap RequestId Unit).insert ⟨0⟩ (), ∅⟩ ()
      (handleMessage .checked ⟨fun _ => true⟩ (.Text sevenReply) (bytesOf sevenReply)
        ⟨(∅ : DashMap RequestId Unit).insert ⟨0⟩ (), ∅⟩)
      (resume (.ok ⟨ok200, .ok (bytesOf sevenReply)⟩)) ∧
    ∃ msg data, msg.data? = some data ∧
      ResolvedBy twoCalls twoReplies 0 [.reserveId 0 ⟨0⟩, .call 0 .insert] msg
        [.reply, .call 0 .resume] ∧
      .ok (7 : UInt64) = resume (.ok ⟨ok200, .ok data⟩) := by
  have hrun : ((client twoCalls).exec State.init twoReplies).any (fun s =>
      s.unary.key 0 = some ⟨0⟩ ∧
        s.unary.phase 0 = .over (.received (.ok (.Text sevenReply, ⟨33, 34⟩)))) = true := by
    decide +kernel
  obtain ⟨s, hs, hreceived⟩ := (Option.any_eq_true _ _).1 hrun
  obtain ⟨hkey, hphase⟩ := of_decide_eq_true hreceived
  have hret : RequestReturned (R := basicTypes) twoCalls s 0 (T := .U64) (.ok (7 : UInt64)) :=
    ⟨"a", none, none, _, rfl, hphase, rfl⟩
  refine ⟨_, _, rfl, ?_⟩
  obtain ⟨hreply, hruns⟩ := @single_reply_alike basicTypes ⟨fun _ => true⟩ plainClient .U64 "a" none
    none _ _ rfl ⟨0⟩ rfl ok200 rfl
  refine ⟨hreply Unit _ _ _ _ _ rfl (AList.lookup_insert _), ?_⟩
  have hseven := hruns twoCalls twoReplies s 0 _ _ rfl (Machine.Run.of_exec hs) hkey hphase hret
  exact hseven.resolve_left (by simp)

end Ws

end JsonRpc
