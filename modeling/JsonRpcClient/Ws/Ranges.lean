import JsonRpcClient.Ws.Correlation

/-!
# The byte ranges that `handle_message` sends (handles.rs:119-152)

A reply is delivered as the message itself and a range into its bytes. `handle_message` computes the
range from where the decoder's `RawValue` points to, and the caller applies it to the bytes of the
shared message. `ranges_exact`: it always cuts out the text of the item's own `result`, so what
`WsClient` provides for the case that it does not (client.rs:262-268, 339-357) never happens.
-/

namespace JsonRpc.Ws
open Json Arrange Oneshot

variable {R : ResponseTypes} {Tx : Type}

/-! ## An item's own result -/

/-- The fields of a struct lie within its text. -/
theorem struct_within {names : List String} {l x : Located} {n : String}
    {f : String → Option Located} (hf : Serde.struct names l = some f) (hx : f n = some x) :
    l.start ≤ x.start ∧
      x.start + x.value.render.length ≤ l.start + l.value.render.length := by
  rw [l.eq_shift, Serde.struct_eq_some_shift] at hf
  obtain ⟨g, hg, rfl⟩ := hf
  obtain ⟨y, hy, rfl⟩ := Option.map_eq_some_iff.1 hx
  have hroot : Occurs l.value.render ⟨0, l.value⟩ := ⟨[], [], by simp, rfl⟩
  have hle := (Serde.struct_occurs hroot hg hy).slice.2
  simp only [Located.shift_start, Located.shift_value]
  omega

/-- `range` cuts the text of `l`'s member `result` out of `data`, which is what the decoder captured
in `result`. -/
structure CutsResult (data : Bytes) (l : Located) (result : RawSpan)
    (range : ByteRange) : Prop where
  le : range.start ≤ range.stop
  bound : range.stop ≤ data.length
  captured : slice data range.start range.stop = result.raw.bytes
  own : ∃ f x, Serde.struct probeFields l = some f ∧ f "result" = some x ∧
    x.start = range.start ∧ slice data range.start range.stop = x.value.render
  utf8 : isUtf8 (slice data range.start range.stop) = true
  within : l.start ≤ range.start ∧ range.stop ≤ l.start + l.value.render.length

theorem CutsResult.index {data : Bytes} {l : Located} {result : RawSpan} {range : ByteRange}
    (h : CutsResult data l result range) : range.index data = some result.raw.bytes := by
  simp only [ByteRange.index, h.le, h.bound, and_self, ↓reduceIte, h.captured]

/-- The response that a probe is turned into borrows the probe's member `result`. -/
theorem result_of_probe {J : SerdeJson} {level : Nat} {l : Located} {probe : Probe}
    {resp : JsonRpcResponse} (hprobe : Probe.deserialize J level l = some probe)
    (h : probeAsResponse probe = some (.ok (.Response resp))) :
    ∃ f x, Serde.struct probeFields l = some f ∧ f "result" = some x ∧
      Serde.rawValue x = some resp.result := by
  obtain ⟨f, hf, -, -, -, -, hresult, -⟩ := Probe.deserialize_eq_some.1 hprobe
  rcases probeAsResponse_eq_ok.1 h with ⟨e, -, heq⟩ | ⟨-, r, id, hr, -, heq⟩
  · cases heq
  · cases heq
    rw [hr] at hresult
    rcases Serde.default_eq_some.1 hresult with ⟨-, h⟩ | ⟨x, hx, hraw⟩
    · cases h
    · obtain ⟨r', hr', hsome⟩ := Option.map_eq_some_iff.1 hraw
      cases hsome
      exact ⟨f, x, hf, hx, hr'⟩

theorem cutsResult {data : Bytes} {J : SerdeJson} {level : Nat} {l : Located} {probe : Probe}
    {resp : JsonRpcResponse} (hl : Occurs data l)
    (hprobe : Probe.deserialize J level l = some probe)
    (h : probeAsResponse probe = some (.ok (.Response resp))) :
    CutsResult data l resp.result (.of resp.result) := by
  obtain ⟨f, x, hf, hx, hraw⟩ := result_of_probe hprobe h
  have hoccurs := Serde.struct_occurs hl hf hx
  have hjson := Serde.rawValue_json hraw
  have hstart : resp.result.start = x.start := by
    unfold Serde.rawValue at hraw
    split at hraw
    · rw [← Option.some.inj hraw]
    · cases hraw
  have hborrow : resp.result.BorrowedFrom data := by
    rw [RawSpan.BorrowedFrom, hstart, hjson]; exact hoccurs
  obtain ⟨hslice, hbound⟩ := hborrow.slice
  have hlen : resp.result.len = x.value.render.length := by
    rw [RawSpan.len, RawValue.bytes, hjson]
  refine ⟨Nat.le_add_right _ _, hbound, hslice, ⟨f, x, hf, hx, hstart.symm, ?_⟩, ?_, ?_⟩
  · simp only [ByteRange.of, hslice, RawValue.bytes, hjson]
  · simp only [ByteRange.of, hslice]; exact resp.result.raw.utf8
  · obtain ⟨hlo, hhi⟩ := struct_within hf hx
    simp only [ByteRange.of, hlen, hstart]
    exact ⟨hlo, hhi⟩

/-! ## What is sent -/

/-- The range shares no byte with the value `l`. -/
def Avoids (range : ByteRange) (l : Located) : Prop :=
  range.stop ≤ l.start ∨ l.start + l.value.render.length ≤ range.start

/-- Every range sent for the frame `msg` is the right one. -/
structure SendsExactly (p : Profile) (J : SerdeJson) (msg : Message) (data : Bytes)
    (maps : PendingMaps Tx) : Prop where
  unary : ∀ tx msg' range,
    (handleMessage p J msg data maps).sent = some (.reply tx (.ok (msg', range))) →
    msg' = msg ∧ ∃ t resp, Json.read data = some t ∧
      JsonRpcIncoming.tryFromBytes J data = .ok (.Response resp) ∧
      maps.pending_requests.lookup resp.id = some tx ∧ CutsResult data t.root resp.result range
  batch : ∀ tx result,
    (handleMessage p J msg data maps).sent = some (.batchReply tx (.ok result)) →
    result.message = msg ∧ ∃ t es wire key, Json.read data = some t ∧ t.root.elements = some es ∧
      JsonRpcIncoming.tryFromBytes J data = .ok (.BatchResponse wire) ∧
      maps.pending_batch_requests.lookup key = some tx ∧
      ∀ j range, result.items[j]? = some (.ok range) →
        ∃ (k : Nat) (l : Located) (resp : JsonRpcResponse), es[k]? = some l ∧
          wire[k]? = some (.Response resp) ∧
          resp.id.toNat = key.start.toNat + j ∧ CutsResult data l resp.result range ∧
          ∀ (k' : Nat) l', k' ≠ k → es[k']? = some l' → Avoids range l'

/-- A range within one element of an array shares no byte with another. -/
theorem avoids_of_pairwise {es : List Located}
    (hes : es.Pairwise fun a b => a.start + a.value.render.length < b.start) {k k' : Nat}
    {l l' : Located} (hl : es[k]? = some l) (hl' : es[k']? = some l') (hne : k' ≠ k)
    {range : ByteRange}
    (hw : l.start ≤ range.start ∧ range.stop ≤ l.start + l.value.render.length) :
    Avoids range l' := by
  obtain ⟨hk, rfl⟩ := List.getElem?_eq_some_iff.1 hl
  obtain ⟨hk', rfl⟩ := List.getElem?_eq_some_iff.1 hl'
  unfold Avoids
  rcases Nat.lt_or_gt_of_ne hne with hlt | hlt
  · have h := List.pairwise_iff_getElem.1 hes k' k hk' hk hlt
    omega
  · have h := List.pairwise_iff_getElem.1 hes k k' hk hk' hlt
    omega

theorem occurs_root {data : Bytes} {t : Text} (ht : Json.read data = some t) :
    Occurs data t.root := by
  rw [← read_eq_some_iff.1 ht]; exact Occurs.root t

/-- The result of a decoded response, and where its object starts. -/
theorem cutsResult_response {J : SerdeJson} {data : Bytes} {resp : JsonRpcResponse}
    (hdec : JsonRpcIncoming.tryFromBytes J data = .ok (.Response resp)) :
    ∃ t, Json.read data = some t ∧ CutsResult data t.root resp.result (.of resp.result) := by
  rcases JsonRpcIncoming.tryFromBytes_eq_ok.1 hdec with ⟨-, _, _, _, -, -, -, heq⟩ |
    ⟨-, t, probe, ht, hprobe, hmsg⟩
  · cases heq
  · rcases processProbe_eq_ok.1 hmsg with ⟨item, hitem, heq⟩ | ⟨-, _, -, -, heq⟩
    · cases item <;> cases heq
      exact ⟨t, ht, cutsResult (occurs_root ht) hprobe hitem⟩
    · cases heq

/-- The items of a decoded batch are the elements of an array. -/
theorem batch_elements {J : SerdeJson} {data : Bytes} {wire : List JsonRpcBatchResponse}
    (hdec : JsonRpcIncoming.tryFromBytes J data = .ok (.BatchResponse wire)) :
    ∃ t es, Json.read data = some t ∧ t.root.elements = some es ∧
      List.Forall₂ (DecodesItem J) es wire := by
  rcases JsonRpcIncoming.tryFromBytes_eq_ok.1 hdec with ⟨-, t, es, items, ht, hes, hitems, heq⟩ |
    ⟨-, t, probe, -, -, hmsg⟩
  · cases heq
    exact ⟨t, es, ht, hes, hitems⟩
  · rcases processProbe_eq_ok.1 hmsg with ⟨item, -, heq⟩ | ⟨-, _, -, -, heq⟩
    · cases item <;> cases heq
    · cases heq

theorem sendsExactly (p : Profile) (J : SerdeJson) (msg : Message) (data : Bytes)
    (maps : PendingMaps Tx) : SendsExactly p J msg data maps := by
  constructor
  · intro tx msg' range h
    obtain ⟨id, hroute, htx⟩ := sent_reply h
    have hroutes := routes p J msg data
    rw [hroute] at hroutes
    cases hroutes with
    | response hdec =>
      obtain ⟨t, ht, hcuts⟩ := cutsResult_response hdec
      exact ⟨rfl, t, _, ht, hdec, htx, hcuts⟩
  · intro tx result h
    obtain ⟨key, hroute, htx⟩ := sent_batchReply h
    have hroutes := routes p J msg data
    rw [hroute] at hroutes
    cases hroutes with
    | @batch wire _ n v hdec _ _ hv =>
      obtain ⟨t, es, ht, hes, hitems⟩ := batch_elements hdec
      refine ⟨rfl, t, es, wire, key, ht, hes, hdec, htx, fun j range hj => ?_⟩
      -- the item in the slot, where it is on the wire, and where in the text
      obtain ⟨item, hitem, hslot⟩ := Option.map_eq_some_iff.1 (List.getElem?_map ▸ hj)
      obtain ⟨resp, rfl, rfl⟩ : ∃ resp, item = .Response resp ∧ range = .of resp.result := by
        cases item with
        | Response resp => cases hslot; exact ⟨resp, rfl, rfl⟩
        | ErrorResponse e => cases hslot
      have hmem : JsonRpcBatchResponse.Response resp ∈ wire :=
        List.mem_of_mem_filter (hv.perm.mem_iff.1 (List.mem_of_getElem? hitem))
      obtain ⟨k, hk⟩ := List.getElem?_of_mem hmem
      obtain ⟨l, hl, probe, hprobe, hok⟩ := Traverse.getElem?_of_forall₂ hitems hk
      have hcuts : CutsResult data l resp.result (.of resp.result) :=
        cutsResult ((occurs_root ht).elements hes l (List.mem_of_getElem? hl)) hprobe
          (processBatchItem_eq_ok.1 hok)
      refine ⟨k, l, resp, hl, hk, ?_, hcuts, ?_⟩
      · have hkey := hv.key_getElem hitem
        simpa [idKey, JsonRpcBatchResponse.id?] using hkey
      · intro k' l' hne hl'
        exact avoids_of_pairwise (Located.elements_pairwise hes) hl hl' hne hcuts.within

/-! ## What the callers read -/

/-- Every range that a caller of the client in state `s` received is read as the decoder captured
it. -/
structure ReadsExactly (cfg : Config R) (s : State) : Prop where
  /-- the parser of a request sees the captured text -/
  unary : ∀ c msg range, s.unary.phase c = .over (.received (.ok (msg, range))) →
    ∃ resp, Decodes cfg msg (.Response resp) ∧
      ∀ T : R.TypeId, readReply T msg range = .ret (serdeOk (R.fromSlice T resp.result.raw.bytes))
  /-- and so do those of a batch -/
  batch : ∀ c key result, s.batch.key c = some key →
    s.batch.phase c = .over (.received (.ok result)) →
    ∃ buf wire, result.message.data? = some buf ∧
      JsonRpcIncoming.tryFromBytes cfg.serde buf = .ok (.BatchResponse wire) ∧
      ∀ range, .ok range ∈ result.items → ∃ resp, .Response resp ∈ wire ∧
        ∀ parser : ResponseParser R, readItem buf parser (.ok range) =
          .ok (parser resp.result.raw.get)
  /-- no slice is out of bounds, and there always is a slice -/
  request_returns : ∀ c (T : R.TypeId) (out : Outcome (R.Val T)), RequestReturned cfg s c out →
    out ≠ .panic ∧ out ≠ .err (.InvalidMessage "expected a Text or Binary message")
  batch_returns : ∀ c calls key out, BatchReturned cfg s c calls key out →
    out ≠ .panic ∧ out ≠ .err (.InvalidMessage "expected a Text or Binary message") ∧
      ∀ items, out = .ok (some items) →
        .error (.InvalidMessage "response was not valid UTF-8") ∉ items

section
variable {cfg : Config R} {h : List Action} {s : State}

/-- The message of a request's range is the frame the range was computed for. -/
theorem received_response (hr : (client cfg).Run Machine.always h s) {c : Nat} {msg : Message}
    {range : ByteRange} (hc : s.unary.phase c = .over (.received (.ok (msg, range)))) :
    ∃ resp, Decodes cfg msg (.Response resp) ∧ range = .of resp.result := by
  rcases received_unary hr hc with ⟨id, msg', -, hroute, -⟩ | hlost
  · rcases routeMessage_unary hroute with ⟨resp, hdec, -, hv⟩ | ⟨err, -, -, hv⟩
    · cases hv
      exact ⟨resp, hdec, rfl⟩
    · cases hv
  · cases hlost

theorem received_items (hr : (client cfg).Run Machine.always h s) {c : Nat} {key : RangeInclusive}
    (hkey : s.batch.key c = some key) {result : BatchResult}
    (hc : s.batch.phase c = .over (.received (.ok result))) :
    ∃ buf wire, ∃ v : List JsonRpcBatchResponse, result.message.data? = some buf ∧
      JsonRpcIncoming.tryFromBytes cfg.serde buf = .ok (.BatchResponse wire) ∧
      (∀ item ∈ v, item ∈ wire) ∧ result.items = v.map slotValue := by
  rcases received_batch hr hkey hc with ⟨msg, hroute, -⟩ | hlost
  · obtain ⟨wire, n, v, ⟨buf, hbuf, hdec⟩, -, -, hv, hresult⟩ := routeMessage_batch hroute
    cases hresult
    exact ⟨buf, wire, v, hbuf, hdec,
      fun item hitem => List.mem_of_mem_filter (hv.perm.mem_iff.1 hitem), rfl⟩
  · cases hlost

theorem requestReturn_reads {T : R.TypeId} {method : String} {params : Option Serialized}
    {timeout : Option Duration} {e : Exit Reply} {out : Outcome (R.Val T)}
    (h : requestReturn cfg T method params timeout e = some out)
    (hread : ∀ msg range, e = .received (.ok (msg, range)) →
      ∃ bytes, readReply T msg range = .ret (serdeOk (R.fromSlice T bytes)))
    (herr : ∀ err, e = .received (.error err) →
      err ≠ .InvalidMessage "expected a Text or Binary message") :
    out ≠ .panic ∧ out ≠ .err (.InvalidMessage "expected a Text or Binary message") := by
  cases e with
  | early =>
    simp only [requestReturn] at h
    split at h
    · rename_i err hnew
      cases h
      rcases JsonRpcRequest.tryNew_error hnew with rfl | rfl | rfl <;> simp [Outcome.err]
    · cases h
  | received r =>
    cases r with
    | error err =>
      cases h
      exact ⟨by simp [Outcome.err], by simpa [Outcome.err] using herr err rfl⟩
    | ok x =>
      obtain ⟨bytes, hbytes⟩ := hread x.1 x.2 rfl
      rw [requestReturn, hbytes] at h
      cases h
      cases R.fromSlice T bytes <;> simp [serdeOk, Outcome.err]
  | dropped => cases h
  | _ => cases h; simp [Outcome.err]

/-- What is read for an item is not that its text was no UTF-8. -/
theorem resolveItem_ne_utf8 (T : R.TypeId) (item : JsonRpcBatchResponse) :
    resolveItem (parseAs T) item ≠
      .error (.InvalidMessage "response was not valid UTF-8") := by
  cases item with
  | ErrorResponse e => simp [resolveItem, Error.ofResponse]
  | Response resp =>
    simp only [resolveItem, parseAs]
    cases R.fromStr T resp.result.raw.get <;> simp [serdeOk, Except.map]

theorem builtParsers_parseAs {calls : List (BatchBuilder.Call R)} {key : RangeInclusive}
    {parser : ResponseParser R} (h : parser ∈ builtParsers calls key) : ∃ T,
    parser = parseAs T := by
  rw [builtParsers_eq] at h
  obtain ⟨x, hx, rfl⟩ := List.mem_map.1 h
  have hmem : x.1.parser ∈ (BatchBuilder.ofCalls calls).requests.map QueuedRequest.parser :=
    List.mem_map_of_mem (List.of_mem_zip hx).1
  rw [BatchBuilder.parsers_ofCalls] at hmem
  obtain ⟨T, -, hT⟩ := List.mem_map.1 hmem
  exact ⟨T, hT.symm⟩

theorem batchReturn_reads (hr : (client cfg).Run Machine.always h s) {c : Nat}
    {key : RangeInclusive} (hkey : s.batch.key c = some key) {calls : List (BatchBuilder.Call R)}
    {timeout : Option Duration} {e : Exit (Result BatchResult)}
    {out : Outcome (Option (List (BatchResponseItem R)))} (hphase : s.batch.phase c = .over e)
    (hret : batchReturn cfg calls timeout key e = some out) :
    out ≠ .panic ∧ out ≠ .err (.InvalidMessage "expected a Text or Binary message") ∧
      ∀ items, out = .ok (some items) →
        .error (.InvalidMessage "response was not valid UTF-8") ∉ items := by
  cases e with
  | early => cases hret
  | dropped => cases hret
  | received r =>
    cases r with
    | error err =>
      cases hret
      rcases received_batch hr hkey hphase with ⟨msg, hroute, -⟩ | hlost
      · obtain ⟨wire, n, v, -, -, -, -, hresult⟩ := routeMessage_batch hroute
        cases hresult
      · cases hlost
        simp [Outcome.err, Outcome.ok, connectionLost]
    | ok result =>
      obtain ⟨buf, wire, v, hbuf, hdec, hmem, hitems⟩ := received_items hr hkey hphase
      have hborrow : ∀ item ∈ v, ∀ r ∈ item.spans, r.BorrowedFrom buf := fun item hitem =>
        JsonRpcIncoming.items_borrowed hdec item (hmem item hitem)
      have hread := readBatch_slotValues hbuf hborrow (builtParsers calls key)
      obtain ⟨msg, items⟩ := result
      cases hitems
      rw [batchReturn, hread] at hret
      cases hret
      refine ⟨by simp [Outcome.ok], by simp [Outcome.err, Outcome.ok], ?_⟩
      rintro items heq hbad
      obtain rfl : _ = items := by simpa [Outcome.ok] using heq
      obtain ⟨i, hi⟩ := List.getElem?_of_mem hbad
      obtain ⟨item, parser, -, hparser, hx⟩ := List.getElem?_zipWith_eq_some.1 hi
      obtain ⟨T, rfl⟩ := builtParsers_parseAs (List.mem_of_getElem? hparser)
      exact resolveItem_ne_utf8 T item hx
  | _ => cases hret; simp [Outcome.err, Outcome.ok]

theorem readsExactly (hr : (client cfg).Run Machine.always h s) : ReadsExactly cfg s where
  unary c msg range hc := by
    obtain ⟨resp, hdec, rfl⟩ := received_response hr hc
    exact ⟨resp, hdec, fun _ => readReply_result hdec⟩
  batch c key result hkey hc := by
    obtain ⟨buf, wire, v, hbuf, hdec, hmem, hitems⟩ := received_items hr hkey hc
    refine ⟨buf, wire, hbuf, hdec, fun range hrange => ?_⟩
    rw [hitems] at hrange
    obtain ⟨item, hitem, hslot⟩ := List.mem_map.1 hrange
    cases item with
    | ErrorResponse e => cases hslot
    | Response resp =>
      refine ⟨resp, hmem _ hitem, fun parser => ?_⟩
      rw [← hslot]
      exact readItem_slotValue (JsonRpcIncoming.items_borrowed hdec _ (hmem _ hitem)) parser
  request_returns c T out hout := by
    obtain ⟨method, params, timeout, e, -, hphase, hret⟩ := hout
    refine requestReturn_reads hret (fun msg range he => ?_) fun err he => ?_
    · subst he
      obtain ⟨resp, hdec, rfl⟩ := received_response hr hphase
      exact ⟨_, readReply_result hdec⟩
    · subst he
      rcases received_unary hr hphase with ⟨id, msg', -, hroute, -⟩ | hlost
      · rcases routeMessage_unary hroute with ⟨resp, -, -, hv⟩ | ⟨e, -, -, hv⟩
        · cases hv
        · cases hv; simp [Error.ofResponse]
      · cases hlost; simp [connectionLost]
  batch_returns c calls key out hout := by
    obtain ⟨timeout, e, -, hkey, hphase, hret⟩ := hout
    exact batchReturn_reads hr hkey hphase hret

end

/-- **Delivered byte ranges are exact**: those that `handle_message` sends for a frame, whatever is
pending, and those that the callers of a client apply, in every run of it. -/
theorem ranges_exact (cfg : Config R) :
    (∀ (Tx : Type) (p : Profile) (J : SerdeJson) (msg : Message) (data : Bytes)
      (maps : PendingMaps Tx), SendsExactly p J msg data maps) ∧
    ∀ h s, (client cfg).Run Machine.always h s → ReadsExactly cfg s :=
  ⟨fun _ p J msg data maps => sendsExactly p J msg data maps, fun _ _ hr => readsExactly hr⟩

theorem ranges_exact_two :
    SendsExactly .checked ⟨fun _ => true⟩ (.Text plainReply) (bytesOf plainReply)
      ⟨∅, (∅ : DashMap RangeInclusive Unit).insert ⟨⟨0⟩, ⟨0⟩⟩ ()⟩ ∧
    ∃ s, (client twoCalls).Run Machine.always twoReplies s ∧ ReadsExactly twoCalls s := by
  obtain ⟨hsends, hreads⟩ := ranges_exact twoCalls
  refine ⟨hsends Unit .., ?_⟩
  have hrun : ((client twoCalls).exec State.init twoReplies).isSome = true := by decide +kernel
  obtain ⟨s, hs⟩ := Option.isSome_iff_exists.1 hrun
  have hr := Machine.Run.of_exec hs
  exact ⟨s, hr, hreads _ s hr⟩

end JsonRpc.Ws
