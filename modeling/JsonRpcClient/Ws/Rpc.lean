import JsonRpcClient.Core.Service
import JsonRpcClient.Ws.Callers
import JsonRpcClient.Ws.SingleReply

/-!
# A `WsClient` in front of a service

The callers, the ids, the texts, the two maps and the decoder together. The peer offers a service:
each frame is a message, and an answer in it that refers to an id is the service's answer to the
request with that id. The peer need not answer; it may answer late, twice, in any order, and put
answers into a batch that nobody sent.

`rpc_transparent`: whatever the interleaving, a call that got an answer returns what the service
answers to that very call, read at the type the caller asked for. `answers_understood`: the first
proper answer to a pending call is the one it returns.
-/

namespace JsonRpc.Ws
open Json Arrange Oneshot
open scoped List

variable {R : ResponseTypes} {cfg : Config R} {h : List Action} {s : State} {c : Nat}

/-- The texts with requests in them that a run hands to the transport (client.rs:248, 324), each by
a call that has registered. -/
inductive SentText (cfg : Config R) (h : List Action) : Text → Prop
  | request {c id T method params timeout r t}
      (hcalls : cfg.calls c = .request T method params timeout)
      (hsub : [.reserveId c id, .call c .insert] <+ h)
      (hnew : (JsonRpcRequest.tryNew id method params []).1 = .ok r)
      (ht : Json.read (JsonRpcOutgoing.toBytes (.Request r)) = some t) : SentText cfg h t
  | batch {c key calls timeout batch t} (hcalls : cfg.calls c = .batch calls timeout)
      (hsub : [.build c (some key), .call c .insert] <+ h)
      (hbatch : (BatchBuilder.ofCalls calls).assemble (some key) = .ok batch)
      (ht : Json.read (batchBytes batch.items) = some t) : SentText cfg h t

/-- The peer offers the service in all it sends. -/
def PeerOffers (cfg : Config R) (h : List Action) (service : Service) : Prop :=
  ∀ msg data, .handle msg ∈ h → msg.data? = some data → Offers service (SentText cfg h) data

/-! ## An id is asked under by the call that reserved it -/

/-- Two steps that reserve the same id are one. -/
theorem reserves_inj (hr : (client cfg).Run Machine.always h s) (hids : reserved cfg h < 2 ^ 64)
    {a b : Action} (ha : a ∈ h) (hb : b ∈ h) {id : RequestId} (hida : id ∈ a.ids)
    (hidb : id ∈ b.ids) : a = b := by
  obtain ⟨ra, hra⟩ := reservation_of_mem hr ha hida
  obtain ⟨rb, hrb⟩ := reservation_of_mem hr hb hidb
  exact reserved_inj (Run.idManager hr) hids ha hb hra hrb hida hidb

theorem SentText.asks_request {t : Text} (ht : SentText cfg h t)
    (hr : (client cfg).Run Machine.always h s) (hids : reserved cfg h < 2 ^ 64) {id : RequestId}
    {method : String} {params : Option Value} (hasks : Asks t id method params)
    (hmem : .reserveId c id ∈ h) {T : R.TypeId} {m : String} {ps : Option Serialized}
    {timeout : Option Duration} (hcalls : cfg.calls c = .request T m ps timeout) :
    m = method ∧ ∃ o, serializeOptParams ps = .ok o ∧ o.map RawValue.json = params := by
  cases ht with
  | request hcalls' hsub hnew ht =>
    obtain ⟨rfl, hm, ho⟩ := (asks_tryNew hnew ht ..).1 hasks
    have heq := reserves_inj hr hids hmem (hsub.subset List.mem_cons_self)
      List.mem_cons_self List.mem_cons_self
    cases heq
    cases hcalls.symm.trans hcalls'
    exact ⟨hm, ho⟩
  | batch hcalls' hsub hbatch ht =>
    obtain ⟨i, q, -, hid, -⟩ := (asks_assembled hbatch ht ..).1 hasks
    have heq := reserves_inj hr hids hmem (hsub.subset List.mem_cons_self)
      List.mem_cons_self (List.mem_of_getElem? hid)
    cases heq

theorem SentText.asks_batch {t : Text} (ht : SentText cfg h t)
    (hr : (client cfg).Run Machine.always h s) (hids : reserved cfg h < 2 ^ 64) {id : RequestId}
    {method : String} {params : Option Value} (hasks : Asks t id method params)
    {key : RangeInclusive} (hmem : .build c (some key) ∈ h) {i : Nat}
    (hid : key.ids[i]? = some id) {calls : List (BatchBuilder.Call R)} {timeout : Option Duration}
    (hcalls : cfg.calls c = .batch calls timeout) :
    ∃ q, (BatchBuilder.queuedRequests calls)[i]? = some q ∧ q.method = method ∧
      q.params.map RawValue.json = params := by
  cases ht with
  | request hcalls' hsub hnew ht =>
    obtain ⟨rfl, -⟩ := (asks_tryNew hnew ht ..).1 hasks
    have heq := reserves_inj hr hids hmem (hsub.subset List.mem_cons_self)
      (List.mem_of_getElem? hid) List.mem_cons_self
    cases heq
  | batch hcalls' hsub hbatch ht =>
    obtain ⟨j, q, hq, hjd, hm, hp⟩ := (asks_assembled hbatch ht ..).1 hasks
    have heq := reserves_inj hr hids hmem (hsub.subset List.mem_cons_self)
      (List.mem_of_getElem? hid) (List.mem_of_getElem? hjd)
    cases heq
    cases hcalls.symm.trans hcalls'
    -- the ids of a range are distinct, so it is the same request
    obtain ⟨hi, hie⟩ := List.getElem?_eq_some_iff.1 hid
    obtain ⟨hj, hje⟩ := List.getElem?_eq_some_iff.1 hjd
    obtain rfl := (key.nodup_ids.getElem_inj_iff).1 (hie.trans hje.symm)
    exact ⟨q, hq, hm, hp⟩

/-- A batch has one id for each of its requests. -/
theorem length_ids (hr : (client cfg).Run Machine.always h s) (hids : reserved cfg h < 2 ^ 64)
    {key : RangeInclusive} (hmem : .build c (some key) ∈ h) {calls : List (BatchBuilder.Call R)}
    {timeout : Option Duration} (hcalls : cfg.calls c = .batch calls timeout) :
    key.ids.length = (BatchBuilder.queuedRequests calls).length := by
  have hlen := (idManager_ids (Run.idManager hr) hids).1 (.batch calls, key.ids)
    (List.mem_filterMap.2 ⟨_, hmem, by simp only [Action.reservation, hcalls, Option.elim]⟩)
  rwa [Reservation.count, BatchBuilder.ofCalls_eq] at hlen

/-! ## What a call returns -/

theorem mem_of_own {a : Action} {l : List Action} (hown : ownActions c h = a :: l) : a ∈ h := by
  have hmem : a ∈ ownActions c h := hown ▸ List.mem_cons_self
  exact (List.mem_filter.1 hmem).1

/-- What a call was answered with is what the service says under its id. -/
theorem PeerOffers.said {service : Service} (hpeer : PeerOffers cfg h service) {msg : Message}
    {before after : List Action} (hres : ResolvedBy cfg h c before msg after)
    {incoming : JsonRpcIncoming} (hdec : Decodes cfg msg incoming) {item : JsonRpcBatchResponse}
    (hitem : item ∈ incoming.items) {id : RequestId} (hid : item.id? = some id) (T : R.TypeId) :
    ∃ t method params, SentText cfg h t ∧ Asks t id method params ∧
      service.Says method params T (readAs T item) := by
  obtain ⟨data, hdata, hdec⟩ := hdec
  obtain ⟨h1, h2, heq, -⟩ := hres
  have hmem : .handle msg ∈ h := heq ▸ List.mem_append_right _ List.mem_cons_self
  exact (hpeer msg data hmem hdata).said hdec hitem hid T

/-- A request that got an answer returns what the service says to it. -/
theorem request_says (hr : (client cfg).Run Machine.always h s) (hids : reserved cfg h < 2 ^ 64)
    {service : Service} (hpeer : PeerOffers cfg h service) {T : R.TypeId} {method : String}
    {params : Option Serialized} {timeout : Option Duration}
    (hcalls : cfg.calls c = .request T method params timeout) {id : RequestId}
    {l : List Action} (hown : ownActions c h = .reserveId c id :: l) {msg : Message}
    {before after : List Action} (hres : ResolvedBy cfg h c before msg after)
    {item : JsonRpcBatchResponse} (hdec : Decodes cfg msg item.toIncoming)
    (hid : item.id? = some id) :
    ∃ o, serializeOptParams params = .ok o ∧
      service.Says method (o.map RawValue.json) T (readAs T item) := by
  have hitem : item ∈ item.toIncoming.items := by
    cases item <;> exact List.mem_cons_self
  obtain ⟨t, m, ps, ht, hasks, hsays⟩ := hpeer.said hres hdec hitem hid T
  obtain ⟨rfl, o, ho, rfl⟩ := ht.asks_request hr hids hasks (mem_of_own hown) hcalls
  exact ⟨o, ho, hsays⟩

/-- A batch that got an answer returns what the service says to its requests. -/
theorem batch_says (hr : (client cfg).Run Machine.always h s) (hids : reserved cfg h < 2 ^ 64)
    {service : Service} (hpeer : PeerOffers cfg h service) {calls : List (BatchBuilder.Call R)}
    {timeout : Option Duration} (hcalls : cfg.calls c = .batch calls timeout)
    {key : RangeInclusive} (hmem : .build c (some key) ∈ h) {msg : Message}
    {before after : List Action} (hres : ResolvedBy cfg h c before msg after)
    {wire : List JsonRpcBatchResponse} (hdec : Decodes cfg msg (.BatchResponse wire))
    {items : List (BatchResponseItem R)} (hlen : items.length = key.ids.length)
    (hitems : ∀ i (hi : i < key.ids.length), ∃ item ∈ wire, ∃ T, item.id? = some key.ids[i] ∧
      (BatchBuilder.registered calls)[i]? = some T ∧
        items[i]? = some (resolveItem (parseAs T) item)) :
    service.SaysAll calls items := by
  obtain ⟨data, hdata, hdec⟩ := hdec
  obtain ⟨h1, h2, heq, -⟩ := hres
  have hhandle : .handle msg ∈ h := heq ▸ List.mem_append_right _ List.mem_cons_self
  have howns : OwnsIds (SentText cfg h) calls key.ids := fun t id method params i ht hasks hid =>
    ht.asks_batch hr hids hasks hmem hid hcalls
  exact (hpeer msg data hhandle hdata).saysAll hdec howns (length_ids hr hids hmem hcalls)
    ⟨hlen, hitems⟩

/-- A request is not made only if its params cannot be serialized. -/
theorem error_of_tryNew {id : RequestId} {method : String} {params : Option Serialized} {e : Error}
    (h : (JsonRpcRequest.tryNew id method params []).1 = .error e) :
    serializeOptParams params = .error e := by
  rw [JsonRpcRequest.tryNew, bufferedParams_nil] at h
  cases ho : serializeOptParams params with
  | error e' =>
    rw [ho] at h
    cases h
    rfl
  | ok o => rw [ho] at h; cases h

/-- **What a call returns is what the service answers to it.** In every run with a peer that offers
the service, as long as the ids last, a `request` returns an error of the transport, a timeout, the
error of params that cannot be serialized, or what the service answers to its own method and params;
and a `batch_request` that has registered returns one of the first two, or what the service answers
to each of its requests. -/
theorem rpc_transparent (hr : (client cfg).Run Machine.always h s)
    (hids : reserved cfg h < 2 ^ 64) {service : Service} (hpeer : PeerOffers cfg h service) :
    (∀ c (T : R.TypeId) method params timeout (out : Outcome (R.Val T)),
      cfg.calls c = .request T method params timeout → RequestReturned cfg s c out →
      Unanswered out ∨ (∃ e, serializeOptParams params = .error e ∧ out = .err e) ∨
      ∃ o r, serializeOptParams params = .ok o ∧ out = .ret r ∧
        service.Says method (o.map RawValue.json) T r) ∧
    ∀ c calls key out, BatchReturned cfg s c calls key out →
      Unanswered out ∨ ∃ items, out = .ok (some items) ∧ service.SaysAll calls items := by
  constructor
  · intro c T method params timeout out hcalls hret
    cases requestCause hr hids hret with
    | unserializable hcalls' herr hown =>
      cases hcalls.symm.trans hcalls'
      exact .inr (.inl ⟨_, error_of_tryNew herr, rfl⟩)
    | refused => exact .inl (.inl ⟨_, rfl⟩)
    | timedOut => exact .inl (.inr ⟨_, rfl⟩)
    | lost => exact .inl (.inl ⟨_, rfl⟩)
    | @answered id msg resp hown hres hdec hid =>
      have hdec : Decodes cfg msg (JsonRpcBatchResponse.Response resp).toIncoming := hdec
      obtain ⟨o, ho, hsays⟩ :=
        request_says hr hids hpeer hcalls hown hres hdec (congrArg some hid)
      exact .inr (.inr ⟨o, _, ho, rfl, hsays⟩)
    | @rejected id msg err hown hres hdec hid =>
      have hdec : Decodes cfg msg (JsonRpcBatchResponse.ErrorResponse err).toIncoming := hdec
      obtain ⟨o, ho, hsays⟩ := request_says hr hids hpeer hcalls hown hres hdec hid
      exact .inr (.inr ⟨o, _, ho, rfl, hsays⟩)
  · intro c calls key out hret
    obtain ⟨timeout, e, hcalls, -⟩ := id hret
    cases batchCause hr hids hret with
    | refused => exact .inl (.inl ⟨_, rfl⟩)
    | timedOut => exact .inl (.inr ⟨_, rfl⟩)
    | lost => exact .inl (.inl ⟨_, rfl⟩)
    | answered hown hres hdec hperm hlen hitems =>
      exact .inr ⟨_, rfl,
        batch_says hr hids hpeer hcalls (mem_of_own hown) hres hdec hlen hitems⟩

/-- The two texts that are sent. -/
theorem twoCalls_sent :
    (∃ t, SentText twoCalls twoReplies t ∧ Asks t ⟨0⟩ "a" none) ∧
      ∃ t, SentText twoCalls twoReplies t ∧ Asks t ⟨1⟩ "b" none := by
  constructor
  · have hcalls : twoCalls.calls 0 = .request .U64 "a" none none := rfl
    have hnew : (JsonRpcRequest.tryNew ⟨0⟩ "a" none []).1 = .ok ⟨{}, ⟨0⟩, "a", none⟩ := rfl
    have ht := JsonRpcOutgoing.read_toBytes (.Request ⟨{}, ⟨0⟩, "a", none⟩)
    refine ⟨_, .request hcalls ?_ hnew ht, (asks_tryNew hnew ht ..).2 ⟨rfl, rfl, none, rfl, rfl⟩⟩
    exact .cons_cons _ (.cons_cons _ (List.nil_sublist _))
  · have hcalls : twoCalls.calls 1 = .batch [.addRequest .U64 "b" none] none := rfl
    have hbatch := (BatchBuilder.valid_ofCalls
      [.addRequest (R := basicTypes) .U64 "b" none]).assemble_eq (some ⟨⟨1⟩, ⟨1⟩⟩)
    obtain ⟨t, -, ht, -⟩ := batch_written [.Request ⟨{}, ⟨1⟩, "b", none⟩]
    refine ⟨t, .batch hcalls ?_ hbatch ht,
      (asks_assembled hbatch ht ..).2 ⟨0, _, rfl, by decide, rfl, rfl⟩⟩
    exact .cons _ (.cons _ (.cons_cons _ (.cons _ (.cons_cons _ (List.nil_sublist _)))))

theorem sevenAndEight_offered : PeerOffers twoCalls twoReplies sevenAndEight := by
  obtain ⟨⟨ta, hta, ha⟩, ⟨tb, htb, hb⟩⟩ := twoCalls_sent
  intro msg data hmem hdata
  simp only [twoReplies, List.mem_cons, reduceCtorEq, Action.handle.injEq, List.not_mem_nil,
    or_false, false_or] at hmem
  rcases hmem with rfl | rfl
  · obtain rfl := Option.some.inj hdata
    refine ⟨isUtf8_bytesOf _, ⟨[], .compactArr [responseJson ⟨1⟩ (.num (.ofU64 8))], []⟩,
      .batch [.success 1 (.num (.ofU64 8))], by decide +kernel,
      ⟨_, rfl, .cons (responseJson_hasMembers ..) .nil⟩, ?_⟩
    intro r hr id hid
    obtain rfl := List.mem_singleton.1 hr
    obtain rfl := Option.some.inj hid
    exact ⟨tb, "b", none, htb, hb, rfl, .inr ⟨rfl, rfl⟩⟩
  · obtain rfl := Option.some.inj hdata
    refine ⟨isUtf8_bytesOf _, ⟨[], responseJson ⟨0⟩ (.num (.ofU64 7)), []⟩,
      .answer (.success 0 (.num (.ofU64 7))), by decide +kernel, responseJson_hasMembers .., ?_⟩
    intro r hr id hid
    obtain rfl := List.mem_singleton.1 hr
    obtain rfl := Option.some.inj hid
    exact ⟨ta, "a", none, hta, ha, rfl, .inl ⟨rfl, rfl⟩⟩

theorem rpc_transparent_two : ∃ s, (client twoCalls).Run Machine.always twoReplies s ∧
    RequestReturned (R := basicTypes) twoCalls s 0 (T := .U64) (.ok (7 : UInt64)) ∧
    ∃ o r, serializeOptParams none = .ok o ∧ (.ok (7 : UInt64) : Outcome UInt64) = .ret r ∧
      sevenAndEight.Says (R := basicTypes) "a" (o.map RawValue.json) .U64 r := by
  have hrun : ((client twoCalls).exec State.init twoReplies).any (fun s =>
      s.unary.phase 0 = .over (.received (.ok (replySeven, ⟨33, 34⟩)))) = true := by
    decide +kernel
  obtain ⟨s, hs, hphase⟩ := (Option.any_eq_true _ _).1 hrun
  have hr := Machine.Run.of_exec hs
  have hseven : RequestReturned (R := basicTypes) twoCalls s 0 (T := .U64) (.ok (7 : UInt64)) :=
    ⟨"a", none, none, _, rfl, of_decide_eq_true hphase, rfl⟩
  have hsays := (rpc_transparent hr (by decide +kernel) sevenAndEight_offered).1 0 .U64 "a" none
    none (.ok (7 : UInt64)) rfl hseven
  refine ⟨s, hr, hseven, ?_⟩
  rcases hsays with (⟨text, h⟩ | ⟨d, h⟩) | ⟨e, -, h⟩ | h
  · cases h
  · cases h
  · cases h
  · exact h

/-! ## Every proper answer is understood -/

section
variable {h1 h2 g1 g2 : List Action} {s1 : State} {a b : Action} {msg : Message}

/-- The step `a` takes the sender of `c`, which is in a map after `h`. -/
structure Takes (cfg : Config R) (h : List Action) (a : Action) (c : Nat) : Prop where
  pending : ∃ s, (client cfg).Run Machine.always h s ∧ s.Pending c
  gone : ∀ l s, (client cfg).Run Machine.always (h ++ a :: l) s → ¬ s.Pending c

theorem Resolves.takes (hres : Resolves cfg h msg c) : Takes cfg h (.handle msg) c := by
  have hres' := hres
  obtain ⟨s, hr, -⟩ := hres'
  refine ⟨⟨s, hr, hres.pending hr⟩, fun l s' hr' => ?_⟩
  obtain ⟨hunary, hbatch⟩ := hres.gone hr'
  rintro (⟨id, hk⟩ | ⟨key, hk⟩)
  · exact hunary id hk
  · exact hbatch key hk

/-- Also when `fail_pending_requests` takes it. -/
theorem takes_drainUnary (hr : (client cfg).Run Machine.always h s) {id : RequestId}
    (hk : s.unary.pending.lookup id = some c) : Takes cfg h (.drainUnary (.remove id)) c := by
  refine ⟨⟨s, hr, .inl ⟨id, hk⟩⟩, fun l s' hr' => ?_⟩
  rintro (⟨id', hk'⟩ | ⟨key, hk'⟩)
  · have hrun := tableRun_unary hr'
    rw [List.filterMap_append, List.filterMap_cons_some
      (show Action.onUnary cfg (.drainUnary (.remove id)) = some (.take .disconnect id _) from rfl)]
      at hrun
    exact (take_once hrun ⟨_, tableRun_unary hr, hk⟩).2.2 id' hk'
  · have hreq := isRequest_of_pending hr hk
    rw [isBatch_of_pending hr' hk'] at hreq
    cases hreq

theorem takes_drainBatch (hr : (client cfg).Run Machine.always h s) {key : RangeInclusive}
    (hk : s.batch.pending.lookup key = some c) : Takes cfg h (.drainBatch (.remove key)) c := by
  refine ⟨⟨s, hr, .inr ⟨key, hk⟩⟩, fun l s' hr' => ?_⟩
  rintro (⟨id, hk'⟩ | ⟨key', hk'⟩)
  · have hreq := isRequest_of_pending hr' hk'
    rw [isBatch_of_pending hr hk] at hreq
    cases hreq
  · have hrun := tableRun_batch hr'
    rw [List.filterMap_append, List.filterMap_cons_some
      (show Action.onBatch cfg (.drainBatch (.remove key)) = some (.take .disconnect key _) from rfl)]
      at hrun
    exact (take_once hrun ⟨_, tableRun_batch hr, hk⟩).2.2 key' hk'

/-- The later of two such steps would find what the earlier one took. -/
theorem Takes.unique (ha : Takes cfg h1 a c) (hb : Takes cfg g1 b c)
    (heq : h1 ++ a :: h2 = g1 ++ b :: g2) : h1 = g1 ∧ a = b := by
  have hlater : ∀ {p p' mid : List Action} {x x' : Action}, Takes cfg p x c → Takes cfg p' x' c →
      p' ≠ p ++ x :: mid := by
    rintro p p' mid x x' hx hx' rfl
    obtain ⟨s, hr, hpend⟩ := hx'.pending
    exact hx.gone mid s hr hpend
  rcases List.append_eq_append_iff.1 heq with ⟨mid, hmid, hrest⟩ | ⟨mid, hmid, hrest⟩
  · cases mid with
    | nil =>
      rw [List.append_nil] at hmid
      exact ⟨hmid.symm, (List.cons.inj hrest).1⟩
    | cons x mid =>
      obtain ⟨rfl, -⟩ := List.cons.inj hrest
      exact absurd hmid (hlater ha hb)
  · cases mid with
    | nil =>
      rw [List.append_nil] at hmid
      exact ⟨hmid, (List.cons.inj hrest).1.symm⟩
    | cons x mid =>
      obtain ⟨rfl, -⟩ := List.cons.inj hrest
      exact absurd hmid (hlater hb ha)

theorem ResolvedBy.eq {msg' : Message} {before after : List Action} (hres : Resolves cfg h1 msg c)
    (hby : ResolvedBy cfg (h1 ++ .handle msg :: h2) c before msg' after) : msg' = msg := by
  obtain ⟨g1, g2, heq, hres', -, -⟩ := hby
  obtain ⟨-, heq⟩ := hres.takes.unique hres'.takes heq
  cases heq
  rfl

theorem Resolves.not_failed (hres : Resolves cfg h1 msg c) {id : RequestId} :
    ¬ FailedBy cfg (h1 ++ .handle msg :: h2) c id := by
  rintro ⟨g1, g2, s, heq, hr, hk, -⟩
  obtain ⟨-, heq⟩ := hres.takes.unique (takes_drainUnary hr hk) heq
  cases heq

theorem Resolves.not_batchFailed (hres : Resolves cfg h1 msg c) {key : RangeInclusive} :
    ¬ BatchFailedBy cfg (h1 ++ .handle msg :: h2) c key := by
  rintro ⟨g1, g2, s, heq, hr, hk, -⟩
  obtain ⟨-, heq⟩ := hres.takes.unique (takes_drainBatch hr hk) heq
  cases heq

/-- The errors of a call that does not wait for its answer any longer. -/
def GaveUp {α : Type} (out : Outcome α) : Prop :=
  out = .err (.TransportError "the message was not sent") ∨ ∃ d, out = .err (.RequestTimeout d)

theorem Decodes.unique {m m' : JsonRpcIncoming} (h : Decodes cfg msg m) (h' : Decodes cfg msg m') :
    m = m' := by
  obtain ⟨data, hdata, hdec⟩ := h
  obtain ⟨data', hdata', hdec'⟩ := h'
  obtain rfl := Option.some.inj (hdata.symm.trans hdata')
  exact Except.ok.inj (hdec.symm.trans hdec')

/-- A request that is answered by a frame. -/
theorem request_understood (hr : (client cfg).Run Machine.always (h1 ++ .handle msg :: h2) s)
    (hids : reserved cfg (h1 ++ .handle msg :: h2) < 2 ^ 64)
    (hr1 : (client cfg).Run Machine.always h1 s1) {r : Answer} {item : JsonRpcBatchResponse}
    (hdec : Decodes cfg msg item.toIncoming) (hto : r.DecodedTo item) {id : RequestId}
    (hid : r.id? = some id) (hc : s1.unary.pending.lookup id = some c) {T : R.TypeId}
    {out : Outcome (R.Val T)} (hret : RequestReturned cfg s c out) :
    GaveUp out ∨ ∃ v, out = .ret v ∧ r.content.Returned T v := by
  have hres : Resolves cfg h1 msg c := by
    obtain ⟨data, hdata, hdec⟩ := hdec
    have hsingle : item.toIncoming.singleId? = some id := by
      rw [← hid, ← hto.id?]
      cases item <;> rfl
    obtain ⟨v, hroute⟩ : ∃ v, route cfg.profile cfg.serde msg data = .unary id v :=
      route_single hdec hsingle
    refine .unary hr1 (v := v) ?_ hc
    simp only [routeMessage, hdata, hroute]
  cases requestCause hr hids hret with
  | unserializable hcalls herr hown =>
    have hmem : .call c .insert ∈ ownActions c (h1 ++ .handle msg :: h2) := by
      refine List.mem_filter.2 ⟨List.mem_append_left _ ?_, by simp [Action.caller]⟩
      exact inserted_of_pending hr1 (.inl ⟨id, hc⟩)
    rw [hown] at hmem
    simp at hmem
  | refused => exact .inl (.inl rfl)
  | timedOut => exact .inl (.inr ⟨_, rfl⟩)
  | lost hown hfailed => exact absurd hfailed hres.not_failed
  | answered hown hby hdec' =>
    obtain rfl := hby.eq hres
    have heq := hdec.unique hdec'
    cases item with
    | Response resp =>
      cases heq
      exact .inr ⟨_, rfl, hto.returned T⟩
    | ErrorResponse err => cases heq
  | rejected hown hby hdec' =>
    obtain rfl := hby.eq hres
    have heq := hdec.unique hdec'
    cases item with
    | Response resp => cases heq
    | ErrorResponse err =>
      cases heq
      exact .inr ⟨_, rfl, hto.returned T⟩

/-- A batch whose ids are those of a key is routed to the key. -/
theorem route_perm {J : SerdeJson} {p : Profile} {data : Bytes} {wire : List JsonRpcBatchResponse}
    (hdec : JsonRpcIncoming.tryFromBytes J data = .ok (.BatchResponse wire)) {key : RangeInclusive}
    (hne : key.ids ≠ []) (hperm : (wire.filterMap JsonRpcBatchResponse.id?).Perm key.ids) :
    ∃ v, route p J msg data = .batch key v := by
  have hlen := List.length_pos_iff.2 hne
  rw [RangeInclusive.length_ids] at hlen
  have hroute : route p J msg data = routeBatch p msg wire := by simp only [route, hdec]
  rw [hroute]
  rcases routeBatch_spec p msg wire with ⟨key', n, v, hn, hlast, hv, heq⟩ | ⟨hno, -⟩
  · obtain rfl := RangeInclusive.eq_of_perm_ids (RequestId.le_iff.2 (by omega))
      (hperm.symm.trans ((perm_ids_iff hlast).2 ⟨v, hv⟩))
    exact ⟨_, heq⟩
  · have hlast : key.last.toNat + 1 =
        key.start.toNat + (key.last.toNat + 1 - key.start.toNat) := by omega
    exact absurd ((perm_ids_iff hlast).1 hperm) (hno _ _ (by omega))

theorem filterMap_id? {rs : List Answer} {wire : List JsonRpcBatchResponse}
    (h : List.Forall₂ Answer.DecodedTo rs wire) :
    wire.filterMap JsonRpcBatchResponse.id? = rs.filterMap Answer.id? := by
  induction h with
  | nil => rfl
  | cons hr _ ih => simp only [List.filterMap_cons, hr.id?, ih]

/-- A batch that is answered by a frame. -/
theorem batch_understood (hr : (client cfg).Run Machine.always (h1 ++ .handle msg :: h2) s)
    (hids : reserved cfg (h1 ++ .handle msg :: h2) < 2 ^ 64)
    (hr1 : (client cfg).Run Machine.always h1 s1) {rs : List Answer}
    {wire : List JsonRpcBatchResponse} (hdec : Decodes cfg msg (.BatchResponse wire))
    (hto : List.Forall₂ Answer.DecodedTo rs wire) {key : RangeInclusive}
    (hperm : (rs.filterMap Answer.id?).Perm key.ids)
    (hc : s1.batch.pending.lookup key = some c) {calls : List (BatchBuilder.Call R)}
    {out : Outcome (Option (List (BatchResponseItem R)))}
    (hret : BatchReturned cfg s c calls key out) :
    GaveUp out ∨ ∃ items, out = .ok (some items) ∧ Arranged calls key.ids rs items := by
  have hret' := hret
  obtain ⟨-, -, -, hkey, -, -⟩ := hret'
  have hres : Resolves cfg h1 msg c := by
    obtain ⟨data, hdata, hdec⟩ := hdec
    rw [← filterMap_id? hto] at hperm
    obtain ⟨v, hroute⟩ : ∃ v, route cfg.profile cfg.serde msg data = .batch key v :=
      route_perm hdec (key_ids_ne_nil hr hids hkey) hperm
    refine .batch hr1 (v := v) ?_ hc
    simp only [routeMessage, hdata, hroute]
  cases batchCause hr hids hret with
  | refused => exact .inl (.inl rfl)
  | timedOut => exact .inl (.inr ⟨_, rfl⟩)
  | lost hown hfailed => exact absurd hfailed hres.not_batchFailed
  | answered hown hby hdec' hperm' hlen hitems =>
    obtain rfl := hby.eq hres
    cases hdec.unique hdec'
    exact .inr ⟨_, rfl, ReadOff.arranged ⟨hlen, hitems⟩ hto⟩

/-- **Every proper answer is understood, and the first one counts.** When the task handles a frame
with a readable text of an answer, and a call is pending under the id it refers to, the call returns
what that answer says, if it has not given up waiting; and so with a batch that answers each request
of a pending batch, in any order. Nothing that comes later changes it. -/
theorem answers_understood (hr : (client cfg).Run Machine.always (h1 ++ .handle msg :: h2) s)
    (hids : reserved cfg (h1 ++ .handle msg :: h2) < 2 ^ 64)
    (hr1 : (client cfg).Run Machine.always h1 s1) {t : Text} {m : Inbound}
    (hdata : msg.data? = some t.render) (hutf8 : isUtf8 t.render = true) (hm : Denotes t m)
    (hread : AllReadable cfg.serde t) :
    (∀ r id c (T : R.TypeId) (out : Outcome (R.Val T)), m = .answer r → r.id? = some id →
      s1.unary.pending.lookup id = some c → RequestReturned cfg s c out →
      GaveUp out ∨ ∃ v, out = .ret v ∧ r.content.Returned T v) ∧
    ∀ rs key c calls out, m = .batch rs → (rs.filterMap Answer.id?).Perm key.ids →
      s1.batch.pending.lookup key = some c → BatchReturned cfg s c calls key out →
      GaveUp out ∨ ∃ items, out = .ok (some items) ∧ Arranged calls key.ids rs items := by
  obtain ⟨incoming, hdec, hto⟩ := decoded_of_readable hutf8 hm hread
  constructor
  · rintro r id c T out rfl hid hc hret
    obtain ⟨item, hitem, rfl⟩ := hto
    exact request_understood hr hids hr1 ⟨_, hdata, hdec⟩ hitem hid hc hret
  · rintro rs key c calls out rfl hperm hc hret
    obtain ⟨wire, rfl, hto⟩ := hto
    exact batch_understood hr hids hr1 ⟨_, hdata, hdec⟩ hto hperm hc hret

/-- Two responses to the same request. -/
def repliesTwice : List Action :=
  [.reserveId 0 ⟨0⟩, .call 0 .insert, .call 0 .sendOk] ++ .handle replySeven ::
    [.reply, .handle (.Text "\x7b\"jsonrpc\":\"2.0\",\"id\":0,\"result\":8\x7d"), .call 0 .resume]

def sevenText : Text := ⟨[], responseJson ⟨0⟩ (.num (.ofU64 7)), []⟩

theorem answers_understood_first : ∃ s, (client twoCalls).Run Machine.always repliesTwice s ∧
    RequestReturned (R := basicTypes) twoCalls s 0 (T := .U64) (.ok (7 : UInt64)) ∧
    ∃ v, (.ok (7 : UInt64) : Outcome UInt64) = .ret v ∧
      (ServiceAnswer.result (.num (.ofU64 7))).Returned (R := basicTypes) .U64 v := by
  have hrun1 : ((client twoCalls).exec State.init (repliesTwice.take 3)).any (fun s =>
      s.unary.pending.lookup ⟨0⟩ = some 0) = true := by decide +kernel
  obtain ⟨s1, hs1, hpend⟩ := (Option.any_eq_true _ _).1 hrun1
  have hrun : ((client twoCalls).exec State.init repliesTwice).any (fun s =>
      s.unary.phase 0 = .over (.received (.ok (replySeven, ⟨33, 34⟩)))) = true := by
    decide +kernel
  obtain ⟨s, hs, hphase⟩ := (Option.any_eq_true _ _).1 hrun
  have hr := Machine.Run.of_exec hs
  have hseven : RequestReturned (R := basicTypes) twoCalls s 0 (T := .U64) (.ok (7 : UInt64)) :=
    ⟨"a", none, none, _, rfl, of_decide_eq_true hphase, rfl⟩
  have hdec : JsonRpcIncoming.tryFromBytes twoCalls.serde sevenText.render =
      .ok (.Response ⟨{}, ⟨0⟩, ⟨33, ⟨.num (.ofU64 7), by decide⟩⟩⟩) := by decide +kernel
  have hutf8 : isUtf8 sevenText.render = true := by decide +kernel
  have hdata : replySeven.data? = some sevenText.render := by decide +kernel
  have hm : Denotes sevenText (.answer (.success 0 (.num (.ofU64 7)))) :=
    responseJson_hasMembers ⟨0⟩ (.num (.ofU64 7)) 0
  have hanswer := (answers_understood hr (by decide +kernel) (Machine.Run.of_exec hs1) hdata hutf8 hm
    (allReadable hdec)).1 _ ⟨0⟩ 0 .U64 _ rfl rfl (of_decide_eq_true hpend) hseven
  refine ⟨s, hr, hseven, hanswer.resolve_left ?_⟩
  rintro (h | ⟨d, h⟩) <;> cases h

end

end JsonRpc.Ws
