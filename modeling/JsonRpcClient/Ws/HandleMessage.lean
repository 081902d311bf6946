import JsonRpcClient.Core.Batch
import JsonRpcClient.Data.Arrange

/-!
# `handle_message` (jsonrpc_ws_client/src/handles.rs:84-169)

`route` is the part of `handle_message` that depends on the frame alone: which key it removes and
what it would then send. `handleMessage` adds the maps. The batch branch sorts the ids, tests that
they are contiguous, looks up `first..=last` and refills a table by index; `routeBatch_spec` is what
that amounts to: the frame is routed to a key just when its id-carrying items can be brought into
the order of that key's ids, and it then delivers them in that order.

| here | there |
| --- | --- |
| `isContiguous`, `fillItems`, `routeBatch` | handles.rs:93-139 |
| `route`, `handleMessage` | handles.rs:84-169 |
| `readItem`, `readBatch`  | the end of `WsClient::batch_request`, client.rs:339-357 |
-/

namespace JsonRpc
open Json Arrange

variable {R : ResponseTypes}

/-- A WebSocket message: the two kinds that carry data, and the control frames. -/
inductive Message where
  | Text (data : String)
  | Binary (data : Bytes)
  | Control
deriving DecidableEq

/-- `data.as_bytes()` / `data.as_ref()` in `incoming_task` (handles.rs:188-206). -/
def Message.data? : Message → Option Bytes
  | .Text data => some (bytesOf data)
  | .Binary data => some data
  | .Control => none

/-- `Range<usize>`, into the bytes of a message. -/
structure ByteRange where
  start : Nat
  stop : Nat
deriving DecidableEq, Repr

/-- `&buf[range]`; `none` is the slice index panic. -/
def ByteRange.index (range : ByteRange) (buf : Bytes) : Option Bytes :=
  if range.start ≤ range.stop ∧ range.stop ≤ buf.length then some (slice buf range.start range.stop)
    else none

/-- `start..start + result.get().len()`, `start` being the offset of `result` in the message. -/
def ByteRange.of (result : RawSpan) : ByteRange := ⟨result.start, result.start + result.len⟩

/-- `BatchResult` (client.rs:47). -/
structure BatchResult where
  message : Message
  items : List (Result ByteRange)
deriving DecidableEq

namespace Ws

/-! ## The batch branch -/

/-- `ids.windows(2).all(|w| w[1] == w[0] + 1)`; `none` is the overflow panic of `w[0] + 1`. -/
def isContiguous (p : Profile) : List RequestId → Option Bool
  | a :: b :: ids =>
    match p.add a.val 1 with
    | none => none
    | some next => if b.val = next then isContiguous p (b :: ids) else some false
  | _ => some true

/-- What an item puts into its slot: the range of its `result`, or its error. -/
def slotValue : JsonRpcBatchResponse → Result ByteRange
  | .Response r => .ok (.of r.result)
  | .ErrorResponse e => .error (.ofResponse e)

/-- The loop over the items (handles.rs:117-132); items without an id are skipped, and `none` is the
panic of the subtraction or of the index. -/
def fillItems (p : Profile) (first : RequestId) :
    List (Option (Result ByteRange)) → List JsonRpcBatchResponse →
    Option (List (Option (Result ByteRange)))
  | slots, [] => some slots
  | slots, r :: batch =>
    match r.id? with
    | none => fillItems p first slots batch
    | some id =>
      match p.sub id.val first.val with
      | none => none
      | some idx =>
        if idx.toNat < slots.length then fillItems p first
          (slots.set idx.toNat (some (slotValue r))) batch
        else none

/-- Every slot's value; `none` is the `expect` on an empty one (handles.rs:133-136). -/
def expectFilled : List (Option (Result ByteRange)) → Option (List (Result ByteRange))
  | [] => some []
  | none :: _ => none
  | some item :: slots => (expectFilled slots).map (item :: ·)

/-- What a frame asks for: the entry it removes and the value it sends there. In `batch` the value
is `none` when filling the table panics, which happens after the entry is removed. -/
inductive Route where
  | unary (id : RequestId) (value : Result (Message × ByteRange))
  | batch (key : RangeInclusive) (value : Option (Result BatchResult))
  | notification (n : Notification)
  | drop
  | panic
deriving DecidableEq

def routeBatch (p : Profile) (msg : Message) (batch : List JsonRpcBatchResponse) : Route :=
  let ids := (batch.filterMap JsonRpcBatchResponse.id?).insertionSort (· ≤ ·)
  match ids.head?, ids.getLast? with
  | some first, some last =>
    match isContiguous p ids with
    | none => .panic
    | some false => .drop
    | some true => .batch ⟨first, last⟩
        (((fillItems p first (List.replicate ids.length none) batch).bind expectFilled).map fun items =>
          .ok ⟨msg, items⟩)
  | _, _ => .drop

/-- `handle_message` on a message with the given data, up to the lookup. -/
def route (p : Profile) (J : SerdeJson) (msg : Message) (data : Bytes) : Route :=
  match JsonRpcIncoming.tryFromBytes J data with
  | .ok (.BatchResponse batch) => routeBatch p msg batch
  | .ok (.Response resp) => .unary resp.id (.ok (msg, .of resp.result))
  | .ok (.ErrorResponse err) =>
    match err.id with
    | some id => .unary id (.error (.ofResponse err))
    | none => .drop
  | .ok (.Notification n) => .notification (.of n)
  | .error _ => .drop

/-- What `incoming_task` does with a message (handles.rs:186-207). -/
def routeMessage (p : Profile) (J : SerdeJson) (msg : Message) : Route :=
  match msg.data? with
  | some data => route p J msg data
  | none => .drop

/-! ## The maps -/

/-- A `DashMap`. -/
abbrev DashMap (K V : Type) := AList fun _ : K => V

/-- The two maps, with senders of any kind. -/
structure PendingMaps (Tx : Type) where
  pending_requests : DashMap RequestId Tx
  pending_batch_requests : DashMap RangeInclusive Tx

/-- A value given to a sender or to the notification channel. -/
inductive Sent (Tx : Type) where
  | reply (tx : Tx) (value : Result (Message × ByteRange))
  | batchReply (tx : Tx) (value : Result BatchResult)
  | notification (n : Notification)
deriving DecidableEq

/-- The maps after `handle_message`, what it sent, and whether it panicked. -/
structure Handled (Tx : Type) where
  maps : PendingMaps Tx
  sent : Option (Sent Tx)
  panicked : Bool

def handleMessage {Tx : Type} (p : Profile) (J : SerdeJson) (msg : Message) (data : Bytes)
    (maps : PendingMaps Tx) : Handled Tx :=
  match route p J msg data with
  | .unary id value =>
    match maps.pending_requests.lookup id with
    | some tx => ⟨{ maps with pending_requests := maps.pending_requests.erase id },
        some (.reply tx value), false⟩
    | none => ⟨maps, none, false⟩
  | .batch key value =>
    match maps.pending_batch_requests.lookup key with
    | some tx => ⟨{ maps with pending_batch_requests := maps.pending_batch_requests.erase key },
        value.map (.batchReply tx), value.isNone⟩
    | none => ⟨maps, none, false⟩
  | .notification n => ⟨maps, some (.notification n), false⟩
  | .drop => ⟨maps, none, false⟩
  | .panic => ⟨maps, none, true⟩

/-! ## What `WsClient::batch_request` makes of the reply -/

/-- One item of the reply, read by its parser; `panic` is the slice index. -/
def readItem (buf : Bytes) (parser : ResponseParser R) : Result ByteRange →
    Outcome (BatchResponseItem R)
  | .error e => .ok (.error e)
  | .ok range =>
    match range.index buf with
    | none => .panic
    | some bytes =>
      match utf8? bytes with
      | none => .ok (.error (.InvalidMessage "response was not valid UTF-8"))
      | some text => .ok (parser text)

def readItems (buf : Bytes) : List (Result ByteRange × ResponseParser R) →
    Outcome (List (BatchResponseItem R))
  | [] => .ok []
  | (item, parser) :: rest => (readItem buf parser item).bind fun x =>
    (readItems buf rest).bind fun xs => .ok (x :: xs)

/-- client.rs:339-357. -/
def readBatch (result : BatchResult) (parsers : List (ResponseParser R)) :
    Outcome (List (BatchResponseItem R)) :=
  match result.message.data? with
  | some buf => readItems buf (result.items.zip parsers)
  | none => .err (.InvalidMessage "expected a Text or Binary message")

/-! ## Contiguous ids -/

instance : Std.Total (· ≤ · : RequestId → RequestId → Prop) :=
  ⟨fun a b => by simp only [RequestId.le_iff]; omega⟩

instance : IsTrans RequestId (· ≤ ·) :=
  ⟨fun a b c hab hbc => by simp only [RequestId.le_iff] at *; omega⟩

/-- Consecutive ids pass the test, also up to `u64::MAX`: only ids that have a successor in the list
are added to. -/
theorem isContiguous_of_range' (p : Profile) : ∀ {ids : List RequestId} {c : Nat},
    ids.map RequestId.toNat = List.range' c ids.length → isContiguous p ids = some true
  | [], _, _ => rfl
  | [_], _, _ => rfl
  | a :: b :: ids, c, h => by
    simp only [List.map_cons, List.length_cons, List.range'_succ, List.cons.injEq] at h
    obtain ⟨ha, hb, hids⟩ := h
    have hblt := b.toNat_lt
    have hadd : a.val.toNat + (1 : UInt64).toNat < 2 ^ 64 := by
      rw [UInt64.toNat_one]; simp only [RequestId.toNat] at ha hb hblt; omega
    have hval : b.val = a.val + 1 := by
      apply UInt64.toNat.inj
      rw [toNat_add_of_lt hadd, UInt64.toNat_one]
      simp only [RequestId.toNat] at ha hb; omega
    have ih := @isContiguous_of_range' p (b :: ids) (c + 1) (by
      simp only [List.map_cons, List.length_cons, List.range'_succ, hb, hids])
    simp only [isContiguous, p.add_of_lt hadd, hval, ↓reduceIte, ih]

/-- Sorted ids that pass the test are consecutive: a wrapped successor is `0`, and nothing sorts
behind `u64::MAX` but itself. -/
theorem range'_of_isContiguous (p : Profile) : ∀ {a : RequestId} {ids : List RequestId},
    (a :: ids).Pairwise (· ≤ ·) → isContiguous p (a :: ids) = some true →
    (a :: ids).map RequestId.toNat = List.range' a.toNat (ids.length + 1)
  | a, [], _, _ => by simp
  | a, b :: ids, hs, h => by
    unfold isContiguous at h
    have hab : a ≤ b := (List.pairwise_cons.1 hs).1 b (by simp)
    have hsucc : ∀ next, p.add a.val 1 = some next → b.val = next → b.toNat = a.toNat + 1 := by
      rintro next hadd rfl
      rw [RequestId.le_iff] at hab
      have hv : b.val = a.val + 1 := (p.add_eq hadd).symm
      have hmod : b.toNat = (a.toNat + 1) % 2 ^ 64 := by
        simp only [RequestId.toNat, hv, UInt64.toNat_add, UInt64.toNat_one]
      have hlt := a.toNat_lt
      omega
    split at h
    · cases h
    · rename_i next hadd
      split at h
      · rename_i hb
        have ih := range'_of_isContiguous p (List.pairwise_cons.1 hs).2 h
        have hb' := hsucc next hadd hb
        rw [List.map_cons, ih, hb', List.length_cons, ← List.range'_succ]
      · cases h

/-! ## The batch branch -/

def carriesId (r : JsonRpcBatchResponse) : Bool := r.id?.isSome

theorem map_ids_filter (batch : List JsonRpcBatchResponse) :
    (batch.filter carriesId).map idKey =
    ((batch.filterMap JsonRpcBatchResponse.id?).map RequestId.toNat).map some := by
  induction batch with
  | nil => rfl
  | cons r batch ih =>
    cases hid : r.id? with
    | none =>
      rw [List.filter_cons_of_neg (by simp [carriesId, hid]), List.filterMap_cons_none hid, ih]
    | some id =>
      rw [List.filter_cons_of_pos (by simp [carriesId, hid]), List.filterMap_cons_some hid,
        List.map_cons, ih,
        idKey_eq_some hid]
      rfl

/-- The id-carrying items can be arranged just when the ids are the `n` ids from `c`. -/
theorem arrangement_iff_ids {c n : Nat} {batch : List JsonRpcBatchResponse} :
    (∃ v, IsArrangement idKey c n (batch.filter carriesId) v) ↔
      ((batch.filterMap JsonRpcBatchResponse.id?).map RequestId.toNat).Perm (List.range' c n) := by
  rw [exists_arrangement_iff, map_ids_filter]
  exact List.map_perm_map_iff (Option.some_injective _)

/-- The ids of a range have an arrangement just when they are those of the batch. -/
theorem perm_ids_iff {key : RangeInclusive} {n : Nat}
    (hn : key.last.toNat + 1 = key.start.toNat + n) {batch : List JsonRpcBatchResponse} :
    (batch.filterMap JsonRpcBatchResponse.id?).Perm key.ids ↔
      ∃ v, IsArrangement idKey key.start.toNat n (batch.filter carriesId) v := by
  rw [arrangement_iff_ids, ← List.map_perm_map_iff (f := RequestId.toNat)
    (fun a b h => RequestId.toNat_inj.1 h), RangeInclusive.ids_toNat,
    show key.last.toNat + 1 - key.start.toNat = n by omega]

theorem fillItems_spec (p : Profile) {first : RequestId} {n : Nat} :
    ∀ {batch : List JsonRpcBatchResponse} {slots : List (Option JsonRpcBatchResponse)}
      {l v : List JsonRpcBatchResponse}, Placed idKey first.toNat n slots l →
      IsArrangement idKey first.toNat n (l ++ batch.filter carriesId) v →
      ∃ slots', Placed idKey first.toNat n slots' (l ++ batch.filter carriesId) ∧
        fillItems p first (slots.map (Option.map slotValue)) batch =
          some (slots'.map (Option.map slotValue))
  | [], slots, l, v, h, _ => ⟨slots, by simpa using h, rfl⟩
  | r :: batch, slots, l, v, h, hv => by
    cases hid : r.id? with
    | none =>
      rw [List.filter_cons_of_neg (by simp [carriesId, hid])] at hv ⊢
      obtain ⟨slots', h', hfill⟩ := fillItems_spec p h hv
      exact ⟨slots', h', by simp only [fillItems, hid, hfill]⟩
    | some id =>
      rw [List.filter_cons_of_pos (by simp [carriesId, hid])] at hv ⊢
      have hkey := idKey_eq_some hid
      obtain ⟨k, hk, hlo, hhi⟩ := hv.key_mem (a := r) (by simp)
      rw [hkey] at hk
      cases hk
      have hkey' : idKey r = some (first.toNat + (id.toNat - first.toNat)) := by
        rw [hkey]; congr 1; omega
      have hvacant := h.vacant (i := id.toNat - first.toNat) (by omega) fun b hb hb' =>
        hv.key_ne hb (hb'.trans hkey'.symm)
      have hidx : (id.val - first.val).toNat = id.toNat - first.toNat := toNat_sub_of_le hlo
      obtain ⟨slots', h', hfill⟩ := fillItems_spec p (h.place hvacant hkey') (v := v)
        (by simpa using hv)
      refine ⟨slots', by simpa using h', ?_⟩
      have hlen : id.toNat - first.toNat < (slots.map (Option.map slotValue)).length := by
        rw [List.length_map, h.length_eq]; omega
      simp only [fillItems, hid, p.sub_of_le (show first.val.toNat ≤ id.val.toNat from hlo), hidx,
        hlen, ↓reduceIte]
      rw [← hfill, List.map_set]
      rfl

theorem expectFilled_map : ∀ v : List JsonRpcBatchResponse,
    expectFilled ((v.map some).map (Option.map slotValue)) = some (v.map slotValue)
  | [] => rfl
  | r :: v => by
    have ih := expectFilled_map v
    simp only [List.map_cons, Option.map_some, expectFilled, ih]

/-- Filling the table never panics on a validated range, and gives the items in the order of their
ids. -/
theorem fill_arrangement (p : Profile) {first : RequestId} {n : Nat}
    {batch v : List JsonRpcBatchResponse}
    (hv : IsArrangement idKey first.toNat n (batch.filter carriesId) v) :
    (fillItems p first (List.replicate n none) batch).bind expectFilled =
    some (v.map slotValue) := by
  obtain ⟨slots, h, hfill⟩ := fillItems_spec p Placed.empty hv
  rw [List.nil_append] at h
  obtain ⟨w, rfl, hw⟩ := h.full (by rw [← hv.perm.length_eq, hv.length_eq])
  rw [List.map_replicate, Option.map_none] at hfill
  rw [hfill, hv.unique hw, Option.bind_some, expectFilled_map]

/-- **Where a batch reply goes.** It is routed to the key whose ids its id-carrying items have, each
once, and delivers those items in the order of their ids; without such a key it goes nowhere. -/
theorem routeBatch_spec (p : Profile) (msg : Message) (batch : List JsonRpcBatchResponse) :
    (∃ (key : RangeInclusive) (n : Nat) (v : List JsonRpcBatchResponse), 0 < n ∧
      key.last.toNat + 1 = key.start.toNat + n ∧
      IsArrangement idKey key.start.toNat n (batch.filter carriesId) v ∧
      routeBatch p msg batch = .batch key (some (.ok ⟨msg, v.map slotValue⟩))) ∨
    ((∀ c n, 0 < n → ¬ ∃ v, IsArrangement idKey c n (batch.filter carriesId) v) ∧
      (routeBatch p msg batch = .drop ∨ routeBatch p msg batch = .panic)) := by
  set ids := (batch.filterMap JsonRpcBatchResponse.id?).insertionSort (· ≤ ·) with hids
  have hperm : ids.Perm (batch.filterMap JsonRpcBatchResponse.id?) := List.perm_insertionSort _ _
  have hsorted : ids.Pairwise (· ≤ ·) := List.pairwise_insertionSort _ _
  -- sorting the ids of an arrangement makes them consecutive
  have hrange : ∀ c n, (∃ v, IsArrangement idKey c n (batch.filter carriesId) v) →
      ids.map RequestId.toNat = List.range' c n := by
    intro c n hv
    rw [arrangement_iff_ids] at hv
    have hids : (ids.map RequestId.toNat).Pairwise (· ≤ ·) := by
      rw [List.pairwise_map]
      exact hsorted.imp RequestId.le_iff.1
    exact ((hperm.map _).trans hv).eq_of_pairwise' hids (List.pairwise_le_range' 1)
  unfold routeBatch
  simp only [← hids]
  match hi : ids with
  | [] =>
    refine .inr ⟨fun c n hn hv => ?_, .inl rfl⟩
    have h := congrArg List.length (hrange c n hv)
    simp at h; omega
  | first :: rest =>
    obtain ⟨last, hlast⟩ : ∃ last, (first :: rest).getLast? = some last :=
      ⟨_, List.getLast?_eq_getLast_of_ne_nil (by simp)⟩
    simp only [List.head?_cons, hlast]
    match hc : isContiguous p (first :: rest) with
    | some true =>
      have hcons := range'_of_isContiguous p hsorted hc
      have hlastN : last.toNat + 1 = first.toNat + (rest.length + 1) := by
        have h := congrArg List.getLast? hcons
        rw [List.getLast?_map, hlast] at h
        simp [List.getLast?_range'] at h
        omega
      obtain ⟨v, hv⟩ : ∃ v, IsArrangement idKey first.toNat (rest.length + 1)
        (batch.filter carriesId) v := by
        rw [arrangement_iff_ids, ← hcons]; exact (hperm.map _).symm
      refine .inl ⟨⟨first, last⟩, rest.length + 1, v, by omega, hlastN, hv, ?_⟩
      simp only [List.length_cons, fill_arrangement p hv, Option.map_some]
    | some false =>
      refine .inr ⟨fun c n _ hv => ?_, .inl rfl⟩
      have h := hrange c n hv
      have hn : (first :: rest).length = n := by simpa using congrArg List.length h
      rw [isContiguous_of_range' p (by rw [h, hn])] at hc
      cases hc
    | none =>
      refine .inr ⟨fun c n _ hv => ?_, .inr rfl⟩
      have h := hrange c n hv
      have hn : (first :: rest).length = n := by simpa using congrArg List.length h
      rw [isContiguous_of_range' p (by rw [h, hn])] at hc
      cases hc

/-! ## What is sent where -/

/-- `route` as a relation, one constructor for each way a frame can go. -/
inductive Routes (p : Profile) (J : SerdeJson) (msg : Message) (data : Bytes) : Route → Prop
  | response {resp} (hdec : JsonRpcIncoming.tryFromBytes J data = .ok (.Response resp)) :
      Routes p J msg data (.unary resp.id (.ok (msg, .of resp.result)))
  | errorResponse {err id} (hdec : JsonRpcIncoming.tryFromBytes J data = .ok (.ErrorResponse err))
      (hid : err.id = some id) : Routes p J msg data (.unary id (.error (.ofResponse err)))
  | errorNoId {err} (hdec : JsonRpcIncoming.tryFromBytes J data = .ok (.ErrorResponse err))
      (hid : err.id = none) : Routes p J msg data .drop
  | notification {n} (hdec : JsonRpcIncoming.tryFromBytes J data = .ok (.Notification n)) :
      Routes p J msg data (.notification (.of n))
  | batch {wire key n v} (hdec : JsonRpcIncoming.tryFromBytes J data = .ok (.BatchResponse wire))
      (hn : 0 < n) (hlast : key.last.toNat + 1 = key.start.toNat + n)
      (hv : IsArrangement idKey key.start.toNat n (wire.filter carriesId) v) :
      Routes p J msg data (.batch key (some (.ok ⟨msg, v.map slotValue⟩)))
  | noBatch {wire} (hdec : JsonRpcIncoming.tryFromBytes J data = .ok (.BatchResponse wire)) :
      Routes p J msg data .drop
  | panic {wire} (hdec : JsonRpcIncoming.tryFromBytes J data = .ok (.BatchResponse wire))
      (hpanic : routeBatch p msg wire = .panic) : Routes p J msg data .panic
  | malformed {e} (hdec : JsonRpcIncoming.tryFromBytes J data = .error e) :
      Routes p J msg data .drop

section
variable {Tx : Type} {p : Profile} {J : SerdeJson} {msg : Message} {data : Bytes}

theorem routes (p : Profile) (J : SerdeJson) (msg : Message) (data : Bytes) :
    Routes p J msg data (route p J msg data) := by
  cases hdec : JsonRpcIncoming.tryFromBytes J data with
  | error e =>
    simp only [route, hdec]
    exact .malformed hdec
  | ok m =>
    cases m with
    | Response resp =>
      simp only [route, hdec]
      exact .response hdec
    | Notification n =>
      simp only [route, hdec]
      exact .notification hdec
    | ErrorResponse err =>
      cases hid : err.id with
      | none =>
        simp only [route, hdec, hid]
        exact .errorNoId hdec hid
      | some id =>
        simp only [route, hdec, hid]
        exact .errorResponse hdec hid
    | BatchResponse wire =>
      simp only [route, hdec]
      rcases routeBatch_spec p msg wire with ⟨key, n, v, hn, hlast, hv, heq⟩ | ⟨-, heq | heq⟩
      · rw [heq]
        exact .batch hdec hn hlast hv
      · rw [heq]
        exact .noBatch hdec
      · rw [heq]
        exact .panic hdec heq

/-- Batches get their items, as filling the table does not panic. -/
theorem route_batch_value {key : RangeInclusive} {value : Option (Result BatchResult)}
    (h : route p J msg data = .batch key value) : ∃ result, value = some (.ok result) := by
  have hroutes := routes p J msg data
  rw [h] at hroutes
  cases hroutes
  exact ⟨_, rfl⟩

theorem route_eq_panic : route p J msg data = .panic ↔
    ∃ batch, JsonRpcIncoming.tryFromBytes J data = .ok (.BatchResponse batch) ∧
      routeBatch p msg batch = .panic := by
  constructor
  · intro h
    have hroutes := routes p J msg data
    rw [h] at hroutes
    cases hroutes with
    | panic hdec hpanic => exact ⟨_, hdec, hpanic⟩
  · rintro ⟨batch, hdec, h⟩
    simp only [route, hdec, h]

theorem route_eq_notification {n : Notification} : route p J msg data = .notification n ↔
    ∃ m, JsonRpcIncoming.tryFromBytes J data = .ok (.Notification m) ∧ n = .of m := by
  constructor
  · intro h
    have hroutes := routes p J msg data
    rw [h] at hroutes
    cases hroutes with
    | notification hdec => exact ⟨_, hdec, rfl⟩
  · rintro ⟨m, hdec, rfl⟩
    simp only [route, hdec]

/-- A unary sender is sent what its id is routed to. -/
theorem sent_reply {maps : PendingMaps Tx} {tx : Tx} {value : Result (Message × ByteRange)}
    (h : (handleMessage p J msg data maps).sent = some (.reply tx value)) :
    ∃ id, route p J msg data = .unary id value ∧ maps.pending_requests.lookup id = some tx := by
  cases hroute : route p J msg data with
  | unary id value' =>
    cases hm : maps.pending_requests.lookup id with
    | none => simp [handleMessage, hroute, hm] at h
    | some tx' =>
      simp only [handleMessage, hroute, hm, Option.some.injEq, Sent.reply.injEq] at h
      obtain ⟨rfl, rfl⟩ := h
      exact ⟨id, rfl, hm⟩
  | batch key value' =>
    cases hm : maps.pending_batch_requests.lookup key <;> simp [handleMessage, hroute, hm] at h
  | notification n => simp [handleMessage, hroute] at h
  | drop => simp [handleMessage, hroute] at h
  | panic => simp [handleMessage, hroute] at h

theorem sent_batchReply {maps : PendingMaps Tx} {tx : Tx} {value : Result BatchResult}
    (h : (handleMessage p J msg data maps).sent = some (.batchReply tx value)) :
    ∃ key, route p J msg data = .batch key (some value) ∧
      maps.pending_batch_requests.lookup key = some tx := by
  cases hroute : route p J msg data with
  | unary id value' =>
    cases hm : maps.pending_requests.lookup id <;> simp [handleMessage, hroute, hm] at h
  | batch key value' =>
    cases hm : maps.pending_batch_requests.lookup key with
    | none => simp [handleMessage, hroute, hm] at h
    | some tx' =>
      obtain ⟨result, rfl⟩ := route_batch_value hroute
      simp only [handleMessage, hroute, hm, Option.map_some, Option.some.injEq,
        Sent.batchReply.injEq] at h
      obtain ⟨rfl, rfl⟩ := h
      exact ⟨key, rfl, hm⟩
  | notification n => simp [handleMessage, hroute] at h
  | drop => simp [handleMessage, hroute] at h
  | panic => simp [handleMessage, hroute] at h

/-- The notification channel gets what is decoded to a notification, and nothing else. -/
theorem sent_notification_iff {maps : PendingMaps Tx} {n : Notification} :
    (handleMessage p J msg data maps).sent = some (.notification n) ↔
      ∃ m, JsonRpcIncoming.tryFromBytes J data = .ok (.Notification m) ∧ n = .of m := by
  rw [← @route_eq_notification p J msg]
  cases hroute : route p J msg data with
  | unary id value =>
    cases hm : maps.pending_requests.lookup id <;> simp [handleMessage, hroute, hm]
  | batch key value =>
    cases hm : maps.pending_batch_requests.lookup key <;> simp [handleMessage, hroute, hm]
  | notification m => simp [handleMessage, hroute]
  | drop => simp [handleMessage, hroute]
  | panic => simp [handleMessage, hroute]

end

end Ws

end JsonRpc
