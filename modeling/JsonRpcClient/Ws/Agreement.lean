import JsonRpcClient.Http.Correlate
import JsonRpcClient.Ws.HandleMessage

/-!
# The two batch correlations

`correlate_batch_items` is documented to mirror `handle_message`, and to reject what
`handle_message` drops (lib.rs:56-64). Both bring the items into the order of the ids
(`Http.correlate_spec`, `Ws.routeBatch_spec`), but of different items: `handle_message` first
filters out the ones without an id. `agree_iff` says exactly when that makes a difference, and
`extra_error_item_disagrees` shows it.
-/

namespace JsonRpc.Ws
open Json Arrange

variable {R : ResponseTypes} {Tx : Type}

/-! ## Reading the delivered ranges -/

/-- A range delivered for a `result` of the message cuts out that `result`'s text. -/
theorem ByteRange.index_of {buf : Bytes} {r : RawSpan} (h : r.BorrowedFrom buf) :
    (ByteRange.of r).index buf = some r.raw.bytes := by
  obtain ⟨hslice, hle⟩ := h.slice
  simp [ByteRange.index, ByteRange.of, hslice, hle]

theorem readItem_slotValue {buf : Bytes} {item : JsonRpcBatchResponse}
    (h : ∀ r ∈ item.spans, r.BorrowedFrom buf) (parser : ResponseParser R) :
    readItem buf parser (slotValue item) = .ok (resolveItem parser item) := by
  cases item with
  | ErrorResponse e => rfl
  | Response resp =>
    have hborrow := h resp.result (by simp [JsonRpcBatchResponse.spans])
    simp only [slotValue, readItem, ByteRange.index_of hborrow, resp.result.raw.utf8?_bytes]
    rfl

theorem readItems_slotValues {buf : Bytes} : ∀ {v : List JsonRpcBatchResponse}
    (parsers : List (ResponseParser R)),
    (∀ item ∈ v, ∀ r ∈ item.spans, r.BorrowedFrom buf) →
    readItems buf ((v.map slotValue).zip parsers) =
      .ok (List.zipWith (fun item parser => resolveItem parser item) v parsers)
  | [], _, _ => by simp [readItems]
  | _ :: _, [], _ => by simp [readItems]
  | item :: v, parser :: parsers, h => by
    have ih := readItems_slotValues (v := v) parsers fun x hx => h x (List.mem_cons_of_mem _ hx)
    simp only [List.map_cons, List.zip_cons_cons, readItems, ih,
      readItem_slotValue (h item List.mem_cons_self), Outcome.ok_bind, List.zipWith_cons_cons]

/-- The items delivered for a batch are read as `correlate_batch_items` reads them. -/
theorem readBatch_slotValues {msg : Message} {data : Bytes} (hdata : msg.data? = some data)
    {v : List JsonRpcBatchResponse} (h : ∀ item ∈ v, ∀ r ∈ item.spans, r.BorrowedFrom data)
    (parsers : List (ResponseParser R)) : readBatch ⟨msg, v.map slotValue⟩ parsers =
      .ok (List.zipWith (fun item parser => resolveItem parser item) v parsers) := by
  simp only [readBatch, hdata, readItems_slotValues parsers h]

/-! ## Agreement -/

/-- `handle_message`, run on the message with these maps, takes the batch pending under `range` and
sends it `result`. -/
def ResolvesBatch (p : Profile) (J : SerdeJson) (msg : Message) (data : Bytes)
    (maps : PendingMaps Tx) (range : RangeInclusive) (result : BatchResult) : Prop :=
  ∃ tx, maps.pending_batch_requests.lookup range = some tx ∧
    (handleMessage p J msg data maps).maps.pending_batch_requests.lookup range = none ∧
    (handleMessage p J msg data maps).sent = some (.batchReply tx (.ok result))

/-- HTTP accepts the reply just when the pending batch is resolved over WebSocket, and then both
give the caller the same items. -/
def Agree (p : Profile) (J : SerdeJson) (msg : Message) (data : Bytes) (maps : PendingMaps Tx)
    (items : List JsonRpcBatchResponse) (range : RangeInclusive)
    (parsers : List (ResponseParser R)) : Prop :=
  ((∃ v, Http.correlateBatchItems p items range parsers = .ok v) ↔
    ∃ result, ResolvesBatch p J msg data maps range result) ∧
  ∀ v result, Http.correlateBatchItems p items range parsers = .ok v →
    ResolvesBatch p J msg data maps range result → readBatch result parsers = .ok v

/-- A pending batch is resolved just when the id-carrying items can be brought into the order of its
ids, and is then given them in that order. -/
theorem resolvesBatch_iff {p : Profile} {J : SerdeJson} {msg : Message} {data : Bytes}
    {maps : PendingMaps Tx}
    {items : List JsonRpcBatchResponse} {range : RangeInclusive} {n : Nat} {result : BatchResult}
    (hdec : JsonRpcIncoming.tryFromBytes J data = .ok (.BatchResponse items)) (h0 : 0 < n)
    (hn : range.last.toNat + 1 = range.start.toNat + n)
    (hpending : (maps.pending_batch_requests.lookup range).isSome) :
    ResolvesBatch p J msg data maps range result ↔
      ∃ v, IsArrangement idKey range.start.toNat n (items.filter carriesId) v ∧
        result = ⟨msg, v.map slotValue⟩ := by
  obtain ⟨tx, htx⟩ := Option.isSome_iff_exists.1 hpending
  have hroute : route p J msg data = routeBatch p msg items := by simp only [route, hdec]
  rcases routeBatch_spec p msg items with ⟨key, k, v, hk, hkey, hv, heq⟩ | ⟨hno, hdrop⟩
  · by_cases hsame : key = range
    · subst hsame
      obtain rfl : k = n := by omega
      constructor
      · rintro ⟨tx', -, -, hsent⟩
        simp only [handleMessage, hroute, heq, htx, Option.map_some, Option.some.injEq,
          Sent.batchReply.injEq,
          Except.ok.injEq] at hsent
        exact ⟨v, hv, hsent.2.symm⟩
      · rintro ⟨w, hw, rfl⟩
        obtain rfl := hv.unique hw
        refine ⟨tx, htx, ?_, ?_⟩
        · simp only [handleMessage, hroute, heq, htx, AList.lookup_erase]
        · simp only [handleMessage, hroute, heq, htx, Option.map_some]
    · constructor
      · rintro ⟨tx', -, hgone, -⟩
        -- a reply for another key leaves this entry alone
        have hkept : (handleMessage p J msg data maps).maps.pending_batch_requests.lookup range =
            some tx := by
          simp only [handleMessage, hroute, heq]
          split
          · rw [← htx]; exact AList.lookup_erase_ne (Ne.symm hsame)
          · exact htx
        rw [hkept] at hgone; cases hgone
      · rintro ⟨w, hw, -⟩
        have hperm := ((perm_ids_iff hkey).2 ⟨v, hv⟩).symm.trans ((perm_ids_iff hn).2 ⟨w, hw⟩)
        have hle : key.start ≤ key.last := by rw [RequestId.le_iff]; omega
        exact absurd (RangeInclusive.eq_of_perm_ids hle hperm) hsame
  · constructor
    · rintro ⟨tx', -, -, hsent⟩
      rcases hdrop with hd | hd <;> simp only [handleMessage, hroute, hd] at hsent <;> cases hsent
    · rintro ⟨v, hv, -⟩
      exact absurd ⟨v, hv⟩ (hno _ _ h0)

/-- **When the two transports agree**: unless the reply holds the batch's ids, each once, and
besides them an item without an id. -/
theorem agree_iff (p : Profile) (J : SerdeJson) {calls : List (BatchBuilder.Call R)}
    {idmgr : RequestIdManager} {batch : Batch R} {range : RangeInclusive}
    (hbuild : ((BatchBuilder.ofCalls calls).build p idmgr).1 = .ok (some batch))
    (hrange : batch.request_id_range = some range) (hne : range.start ≤ range.last)
    {msg : Message} {data : Bytes} {items : List JsonRpcBatchResponse}
    (hdata : msg.data? = some data)
    (hdec : JsonRpcIncoming.tryFromBytes J data = .ok (.BatchResponse items))
    {maps : PendingMaps Tx} (hpending : (maps.pending_batch_requests.lookup range).isSome) :
    Agree p J msg data maps items range batch.parsers ↔
      (∀ item ∈ items, item.id?.isSome) ∨
        ¬ (items.filterMap JsonRpcBatchResponse.id?).Perm range.ids := by
  obtain ⟨hres, -⟩ := BatchBuilder.build_some (BatchBuilder.valid_ofCalls calls) hbuild hrange
  obtain ⟨h0, hn⟩ := RequestIdManager.reserveRange_length hres hne
  set n := (UInt64.ofNat (BatchBuilder.ofCalls calls).requests.length).toNat with hdef
  have hlt : n < 2 ^ 64 := UInt64.toNat_lt _
  have hhttp := Http.correlate_spec p items hn h0 hlt batch.parsers
  have hws : ∀ result, ResolvesBatch p J msg data maps range result ↔ _ :=
    fun _ => resolvesBatch_iff hdec h0 hn hpending
  by_cases hall : ∀ item ∈ items, item.id?.isSome
  · -- nothing is filtered out, so both arrange the same items
    have hfilter : items.filter carriesId = items := List.filter_eq_self.2 hall
    simp only [hfilter] at hws
    refine iff_of_true ?_ (.inl hall)
    rcases hhttp with ⟨v, hv, heq⟩ | ⟨hno, text, heq⟩
    · refine ⟨⟨fun _ => ⟨_, (hws _).2 ⟨v, hv, rfl⟩⟩, fun _ => ⟨_, heq⟩⟩, fun w result hw hr => ?_⟩
      obtain ⟨v', hv', rfl⟩ := (hws _).1 hr
      obtain rfl := hv.unique hv'
      have hborrow : ∀ item ∈ v, ∀ r ∈ item.spans, r.BorrowedFrom data := fun item hitem =>
        JsonRpcIncoming.items_borrowed hdec item (hv.perm.mem_iff.1 hitem)
      rw [readBatch_slotValues hdata hborrow, ← heq, hw]
    · refine ⟨⟨?_, ?_⟩, fun w _ hw _ => ?_⟩
      · rintro ⟨w, hw⟩
        rw [heq] at hw; cases hw
      · rintro ⟨_, hr⟩
        obtain ⟨v, hv, -⟩ := (hws _).1 hr
        exact absurd ⟨v, hv⟩ hno
      · rw [heq] at hw; cases hw
  · -- an item without an id: HTTP refuses the reply
    have hnoHttp : ¬ ∃ v, Http.correlateBatchItems p items range batch.parsers = .ok v := by
      rintro ⟨w, hw⟩
      rcases hhttp with ⟨v, hv, -⟩ | ⟨-, text, heq⟩
      · apply hall
        intro item hitem
        obtain ⟨k, hk, -⟩ := hv.key_mem hitem
        cases hid : item.id? with
        | none => simp [idKey, hid] at hk
        | some id => rfl
      · rw [heq] at hw; cases hw
    have hiff : Agree p J msg data maps items range batch.parsers ↔
        ¬ ∃ result, ResolvesBatch p J msg data maps range result :=
      ⟨fun h hr => hnoHttp (h.1.2 hr),
        fun h => ⟨iff_of_false hnoHttp h, fun v _ hv _ => absurd ⟨v, hv⟩ hnoHttp⟩⟩
    rw [hiff, perm_ids_iff hn]
    simp only [hall, false_or]
    refine not_congr ⟨?_, ?_⟩
    · rintro ⟨result, hr⟩
      obtain ⟨v, hv, -⟩ := (hws _).1 hr
      exact ⟨v, hv⟩
    · rintro ⟨v, hv⟩
      exact ⟨_, (hws _).2 ⟨v, hv, rfl⟩⟩

/-- One request, on a fresh id manager. -/
def oneRequest : List (BatchBuilder.Call basicTypes) := [.addRequest .RawValue "a" none]

/-- The reply to it: its response alone. -/
def plainReply : String := "[\x7b\"jsonrpc\":\"2.0\",\"id\":0,\"result\":true\x7d]"

def plainItem : JsonRpcBatchResponse := .Response ⟨{}, ⟨0⟩, ⟨34, ⟨.bool true, by decide⟩⟩⟩

theorem agree_iff_plain : Agree .checked ⟨fun _ => true⟩ (.Text plainReply) (bytesOf plainReply)
    ⟨∅, (∅ : DashMap RangeInclusive Unit).insert ⟨⟨0⟩, ⟨0⟩⟩ ()⟩ [plainItem] ⟨⟨0⟩, ⟨0⟩⟩
    [parseAs (R := basicTypes) .RawValue] :=
  (@agree_iff basicTypes _ .checked ⟨fun _ => true⟩ oneRequest .new
    ⟨some ⟨⟨0⟩, ⟨0⟩⟩, [parseAs .RawValue], [.Request ⟨{}, ⟨0⟩, "a", none⟩]⟩ _ rfl rfl
      (by decide) _ _ _
    rfl (by decide +kernel) _ (by decide)).2 (.inl (by decide))

/-- The same reply with an error item for no request in particular. -/
def extraReply : String :=
  "[\x7b\"jsonrpc\":\"2.0\",\"id\":0,\"result\":true\x7d,\x7b\"jsonrpc\":\"2.0\",\"id\":null,\"error\":\x7b\"code\":-32600,\"message\":\"Invalid Request\"\x7d\x7d]"

def extraItem : JsonRpcBatchResponse := .ErrorResponse ⟨{}, none, ⟨-32600, "Invalid Request", none⟩⟩

/-- **The extra item makes HTTP fail the whole batch, while the WebSocket client delivers it.** -/
theorem extra_error_item_disagrees :
    ∃ (batch : Batch basicTypes) (maps : PendingMaps Unit),
      ((BatchBuilder.ofCalls oneRequest).build .checked .new).1 = .ok (some batch) ∧
      batch.request_id_range = some ⟨⟨0⟩, ⟨0⟩⟩ ∧
      JsonRpcIncoming.tryFromBytes ⟨fun _ => true⟩ (bytesOf extraReply) =
        .ok (.BatchResponse [plainItem, extraItem]) ∧
      (maps.pending_batch_requests.lookup ⟨⟨0⟩, ⟨0⟩⟩).isSome ∧
      ¬ Agree .checked ⟨fun _ => true⟩ (.Text extraReply) (bytesOf extraReply) maps
          [plainItem, extraItem] ⟨⟨0⟩, ⟨0⟩⟩ batch.parsers := by
  refine ⟨⟨some ⟨⟨0⟩, ⟨0⟩⟩, [parseAs .RawValue], [.Request ⟨{}, ⟨0⟩, "a", none⟩]⟩,
    ⟨∅, (∅ : DashMap RangeInclusive Unit).insert ⟨⟨0⟩, ⟨0⟩⟩ ()⟩, rfl, rfl, by decide +kernel,
      by decide, ?_⟩
  rintro ⟨hiff, -⟩
  obtain ⟨v, hv⟩ := hiff.2 ⟨⟨.Text extraReply, [.ok ⟨34, 38⟩]⟩, (), by decide, by decide +kernel,
    by decide +kernel⟩
  cases hv

end JsonRpc.Ws
