import JsonRpcClient.Core.Batch
import JsonRpcClient.Data.Arrange

/-!
# Batches over HTTP: `correlate_batch_items`, `send_batch` (jsonrpc_http_client/src/lib.rs)

The reply's items are put into a table of slots, one for each id sent. `correlate_spec` is what the
count, range and duplicate tests amount to: the reply is accepted just when its items can be brought
into the order of the ids sent (`IsArrangement`), and is an `Err` otherwise. In neither case does an
index or the `expect` on an empty slot panic.
-/

namespace JsonRpc
open Json Arrange

variable {R : ResponseTypes}

namespace Http

/-- One round of the loop (lib.rs:84-107). -/
def placeItem (p : Profile) (first last : RequestId) (slots : List (Option JsonRpcBatchResponse))
    (item : JsonRpcBatchResponse) : Outcome (List (Option JsonRpcBatchResponse)) :=
  match item.id? with
  | none => .err (.InvalidMessage
      "a batch error response is missing its `id`; can't correlate it to a request")
  | some id =>
    if id < first ∨ last < id then
      .err (.InvalidMessage "batch response id is outside the range of ids sent")
    else
      match p.sub id.val first.val with
      | none => .panic
      | some idx =>
        match slots[idx.toNat]? with
        | none => .panic
        | some (some _) => .err (.InvalidMessage "batch response contains a duplicate id")
        | some none => .ok (slots.set idx.toNat (some item))

def placeItems (p : Profile) (first last : RequestId) :
    List (Option JsonRpcBatchResponse) → List JsonRpcBatchResponse →
      Outcome (List (Option JsonRpcBatchResponse))
  | slots, [] => .ok slots
  | slots, item :: items => (placeItem p first last slots item).bind fun slots =>
    placeItems p first last slots items

/-- The slots zipped with the parsers; an empty slot is the `expect` that panics (lib.rs:109-118).
-/
def resolveSlots : List (Option JsonRpcBatchResponse × ResponseParser R) →
    Outcome (List (BatchResponseItem R))
  | [] => .ok []
  | (none, _) :: _ => .panic
  | (some item, parser) :: rest => (resolveSlots rest).bind fun items =>
    .ok (resolveItem parser item :: items)

/-- `correlate_batch_items` (lib.rs:65). -/
def correlateBatchItems (p : Profile) (items : List JsonRpcBatchResponse) (range : RangeInclusive)
    (parsers : List (ResponseParser R)) : Outcome (List (BatchResponseItem R)) :=
  match (p.sub range.last.val range.start.val).bind (p.add · 1) with
  | none => .panic
  | some expected_len =>
    if items.length ≠ expected_len.toNat then
      .err (.InvalidMessage "batch response item count does not match the sent batch")
    else
      (placeItems p range.start range.last (List.replicate expected_len.toNat none) items).bind
        fun slots => resolveSlots (slots.zip parsers)

/-- `send_batch` (lib.rs:159) once the reply to the batch it built is decoded into `items`. -/
def correlateBatch (p : Profile) (b : BatchBuilder R) (idmgr : RequestIdManager)
    (items : List JsonRpcBatchResponse) : Outcome (Option (List (BatchResponseItem R))) :=
  (b.build p idmgr).1.bind fun batch =>
    match batch with
    | none => .ok none
    | some batch =>
      match batch.request_id_range with
      | none => .ok none
      | some range => (correlateBatchItems p items range batch.parsers).bind fun v => .ok (some v)

/-! ## The slot table -/

/-- A message that stops the loop, and the reason why no arrangement exists then. -/
theorem placeItem_spec (p : Profile) {first last : RequestId} {n : Nat}
    (hn : last.toNat + 1 = first.toNat + n) {slots : List (Option JsonRpcBatchResponse)}
    {l : List JsonRpcBatchResponse} (h : Placed idKey first.toNat n slots l)
    (item : JsonRpcBatchResponse) (rest : List JsonRpcBatchResponse) :
    (∃ slots', placeItem p first last slots item = .ok slots' ∧
      Placed idKey first.toNat n slots' (l ++ [item])) ∨
    ((∃ text, placeItem p first last slots item = .err (.InvalidMessage text)) ∧
      ¬ ∃ v, IsArrangement idKey first.toNat n (l ++ item :: rest) v) := by
  have hmem : item ∈ l ++ item :: rest := by simp
  unfold placeItem
  cases hid : item.id? with
  | none =>
    refine .inr ⟨⟨_, rfl⟩, ?_⟩
    rintro ⟨v, hv⟩
    obtain ⟨k, hk, -⟩ := hv.key_mem hmem
    simp [idKey, hid] at hk
  | some id =>
    have hkey := idKey_eq_some hid
    by_cases hrange : id < first ∨ last < id
    · refine .inr ⟨⟨_, if_pos hrange⟩, ?_⟩
      rintro ⟨v, hv⟩
      obtain ⟨k, hk, hlo, hhi⟩ := hv.key_mem hmem
      rw [hkey] at hk
      simp only [RequestId.lt_iff] at hrange
      cases hk
      omega
    · simp only [hrange, ↓reduceIte]
      simp only [RequestId.lt_iff, not_or, Nat.not_lt] at hrange
      have hidx : (id.val - first.val).toNat = id.toNat - first.toNat := toNat_sub_of_le hrange.1
      rw [p.sub_of_le hrange.1]
      simp only [hidx]
      have hkey' : idKey item = some (first.toNat + (id.toNat - first.toNat)) := by
        rw [hkey]; congr 1; omega
      have hlt : id.toNat - first.toNat < slots.length := by rw [h.length_eq]; omega
      cases hs : slots[id.toNat - first.toNat]? with
      | none => exact absurd (List.getElem?_eq_none_iff.1 hs) (by omega)
      | some slot =>
        cases slot with
        | none => exact .inl ⟨_, rfl, h.place hs hkey'⟩
        | some b =>
          refine .inr ⟨⟨_, rfl⟩, ?_⟩
          rintro ⟨v, hv⟩
          exact hv.key_ne (h.mem_of_occupied hs) ((h.keyed _ _ hs).trans hkey'.symm)

theorem placeItems_spec (p : Profile) {first last : RequestId} {n : Nat}
    (hn : last.toNat + 1 = first.toNat + n) :
    ∀ (items : List JsonRpcBatchResponse) {slots : List (Option JsonRpcBatchResponse)}
      {l : List JsonRpcBatchResponse}, Placed idKey first.toNat n slots l →
    (∃ slots', placeItems p first last slots items = .ok slots' ∧
      Placed idKey first.toNat n slots' (l ++ items)) ∨
    ((∃ text, placeItems p first last slots items = .err (.InvalidMessage text)) ∧
      ¬ ∃ v, IsArrangement idKey first.toNat n (l ++ items) v)
  | [], slots, l, h => .inl ⟨slots, rfl, by simpa using h⟩
  | item :: items, slots, l, h => by
    rcases placeItem_spec p hn h item items with ⟨slots', hs, h'⟩ | ⟨⟨text, hs⟩, hno⟩
    · have ih := placeItems_spec p hn items h'
      simpa only [placeItems, hs, Outcome.ok_bind, List.append_assoc,
        List.singleton_append] using ih
    · exact .inr ⟨⟨text, by simp only [placeItems, hs, Outcome.err_bind]⟩, hno⟩

theorem resolveSlots_map : ∀ (v : List JsonRpcBatchResponse) (parsers : List (ResponseParser R)),
    resolveSlots ((v.map some).zip parsers) =
    .ok (List.zipWith (fun item parser => resolveItem parser item) v parsers)
  | [], _ => by simp [resolveSlots]
  | _ :: _, [] => by simp [resolveSlots]
  | item :: v, parser :: parsers => by simp [resolveSlots, resolveSlots_map v parsers]

/-- **A reply is accepted just when its items can be brought into the order of the ids sent**, and
then each is read by the parser of its own request. Anything else is an `Err`; nothing panics. -/
theorem correlate_spec (p : Profile) (items : List JsonRpcBatchResponse) {range : RangeInclusive}
    {n : Nat} (hn : range.last.toNat + 1 = range.start.toNat + n) (h0 : 0 < n) (hlt : n < 2 ^ 64)
    (parsers : List (ResponseParser R)) :
    (∃ v, IsArrangement idKey range.start.toNat n items v ∧
      correlateBatchItems p items range parsers =
      .ok (List.zipWith (fun item parser => resolveItem parser item) v parsers)) ∨
    ((¬ ∃ v, IsArrangement idKey range.start.toNat n items v) ∧
      ∃ text, correlateBatchItems p items range parsers = .err (.InvalidMessage text)) := by
  have hle : range.start.val.toNat ≤ range.last.val.toNat := by
    simp only [RequestId.toNat] at hn; omega
  have hsub := toNat_sub_of_le hle
  have hdiff : (range.last.val - range.start.val).toNat + 1 = n := by
    rw [hsub]; simp only [RequestId.toNat] at hn; omega
  have hfit : (range.last.val - range.start.val).toNat + (1 : UInt64).toNat < 2 ^ 64 := by
    rw [UInt64.toNat_one]; omega
  have hlen : (range.last.val - range.start.val + 1).toNat = n := by
    rw [toNat_add_of_lt hfit, UInt64.toNat_one, hdiff]
  unfold correlateBatchItems
  simp only [p.sub_of_le hle, Option.bind_some, p.add_of_lt hfit, hlen]
  by_cases hcount : items.length = n
  · simp only [hcount, ne_eq, not_true_eq_false, ↓reduceIte]
    rcases placeItems_spec p hn items Placed.empty with ⟨slots, hs, h⟩ | ⟨⟨text, hs⟩, hno⟩
    · rw [List.nil_append] at h
      obtain ⟨v, hslots, hv⟩ := h.full hcount
      refine .inl ⟨v, hv, ?_⟩
      rw [hs, Outcome.ok_bind, hslots, resolveSlots_map]
    · exact .inr ⟨hno, text, by rw [hs, Outcome.err_bind]⟩
  · refine .inr ⟨?_, ?_⟩
    · rintro ⟨v, hv⟩
      exact hcount (by rw [← hv.perm.length_eq, hv.length_eq])
    · exact ⟨_, if_pos hcount⟩

/-! ## `build`, then the reply -/

/-- The reply's ids are the `n` ids from `c`, each once, in any order. -/
def Answers (c n : Nat) (items : List JsonRpcBatchResponse) : Prop :=
  ∃ ids : List RequestId, items.map JsonRpcBatchResponse.id? = ids.map some ∧
    (ids.map RequestId.toNat).Perm (List.range' c n)

theorem answers_iff {c n : Nat} {items : List JsonRpcBatchResponse} :
    Answers c n items ↔ ∃ v, IsArrangement idKey c n items v := by
  rw [exists_arrangement_iff]
  constructor
  · rintro ⟨ids, hids, hperm⟩
    have hkeys : items.map idKey = (ids.map RequestId.toNat).map some := by
      have h := congrArg (List.map (Option.map RequestId.toNat)) hids
      simp only [List.map_map] at h ⊢
      exact h
    rw [hkeys]; exact hperm.map some
  · intro h
    have hsome : ∀ item ∈ items, item.id?.isSome := fun item hitem => by
      obtain ⟨k, -, hk⟩ := List.mem_map.1 (h.mem_iff.1 (List.mem_map_of_mem hitem))
      cases hid : item.id? with
      | none => simp [idKey, hid] at hk
      | some id => rfl
    have hmap : items.map JsonRpcBatchResponse.id? =
        (items.filterMap JsonRpcBatchResponse.id?).map some := by
      clear h
      induction items with
      | nil => rfl
      | cons item items ih =>
        obtain ⟨id, hid⟩ := Option.isSome_iff_exists.1 (hsome item (by simp))
        rw [List.map_cons, List.filterMap_cons_some hid, List.map_cons, hid,
          ih fun x hx => hsome x (by simp [hx])]
    refine ⟨_, hmap, ?_⟩
    have hkeys : items.map idKey =
        ((items.filterMap JsonRpcBatchResponse.id?).map RequestId.toNat).map some := by
      have h := congrArg (List.map (Option.map RequestId.toNat)) hmap
      simp only [List.map_map] at h ⊢
      exact h
    rw [hkeys] at h
    exact (List.map_perm_map_iff (Option.some_injective _)).1 h

theorem correlateBatch_eq (p : Profile) {b : BatchBuilder R} {m : RequestIdManager} (hb : b.Valid)
    (h0 : 0 < b.requests.length) (hm : m.current_id.toNat + b.requests.length < 2 ^ 64)
    (items : List JsonRpcBatchResponse) :
    (∃ v, IsArrangement idKey m.current_id.toNat b.requests.length items v ∧
      correlateBatch p b m items =
      .ok (some (List.zipWith (fun item parser => resolveItem parser item) v
        (b.requests.map QueuedRequest.parser)))) ∨
    ((¬ ∃ v, IsArrangement idKey m.current_id.toNat b.requests.length items v) ∧
      ∃ text, correlateBatch p b m items = .err (.InvalidMessage text)) := by
  obtain ⟨range, hstart, hlast, hbuild⟩ := BatchBuilder.build_ok (p := p) hb h0 hm
  have hcount : range.last.toNat + 1 = range.start.toNat + b.requests.length := by omega
  have hspec := correlate_spec p items hcount h0 (by omega) (b.requests.map QueuedRequest.parser)
  rw [hstart] at hspec
  rcases hspec with ⟨v, hv, heq⟩ | ⟨hno, text, heq⟩
  · exact .inl ⟨v, hv, by simp only [correlateBatch, hbuild, Outcome.ok_bind, heq]⟩
  · exact .inr ⟨hno, text, by
      simp only [correlateBatch, hbuild, Outcome.ok_bind, heq, Outcome.err_bind]⟩

/-- **A batch over HTTP, end to end.** Whatever was queued and whatever the peer answers, the reply
is accepted just when its ids are those of the batch, each once; then the `i`-th result is the
answer to the `i`-th request, read at the type that request was queued with. -/
theorem batch_end_to_end (p : Profile) (calls : List (BatchBuilder.Call R))
    (idmgr : RequestIdManager)
    (items : List JsonRpcBatchResponse) (h0 : 1 ≤ (BatchBuilder.ofCalls calls).requests.length)
    (hm : idmgr.current_id.toNat + (BatchBuilder.ofCalls calls).requests.length < 2 ^ 64) :
    let c := idmgr.current_id.toNat
    let r := (BatchBuilder.ofCalls calls).requests.length
    let returned := correlateBatch p (BatchBuilder.ofCalls calls) idmgr items
    ((∃ v, returned = .ok (some v)) ↔ Answers c r items) ∧
    (¬ Answers c r items → ∃ text, returned = .err (.InvalidMessage text)) ∧
    ∀ v, returned = .ok (some v) → v.length = r ∧ (BatchBuilder.registered calls).length = r ∧
      ∀ i T, (BatchBuilder.registered calls)[i]? = some T →
        ∃ item ∈ items, item.id?.map RequestId.toNat = some (c + i) ∧
          v[i]? = some (match item with
            | .ErrorResponse e => .error (.ofResponse e)
            | .Response resp => parseAs T resp.result.raw.get) ∧
          ∀ x, v[i]? = some (.ok x) → ∃ t, x.downcastResponse T = .ok t := by
  intro c r returned
  have hparsers := BatchBuilder.parsers_ofCalls calls
  have hlen : (BatchBuilder.registered calls).length = r := by
    simpa [r] using (congrArg List.length hparsers).symm
  have hspec := correlateBatch_eq p (BatchBuilder.valid_ofCalls calls) h0 hm items
  rw [← answers_iff] at hspec
  rcases hspec with ⟨v, hv, heq⟩ | ⟨hno, text, heq⟩
  · have hans : Answers c r items := answers_iff.2 ⟨v, hv⟩
    refine ⟨⟨fun _ => hans, fun _ => ⟨_, heq⟩⟩, fun h => absurd hans h, ?_⟩
    intro w hw
    have hw' : w = List.zipWith (fun item parser => resolveItem parser item) v
        ((BatchBuilder.ofCalls calls).requests.map QueuedRequest.parser) := by
      have h := hw.symm.trans heq
      simpa using h
    rw [hparsers] at hw'
    refine ⟨by rw [hw']; simp [hv.length_eq, hlen, r], hlen, fun i T hT => ?_⟩
    have hi : i < v.length := by
      have hT' := (List.getElem?_eq_some_iff.1 hT).1
      rw [hv.length_eq]; omega
    have hvi := List.getElem?_eq_getElem hi
    have hwi : w[i]? = some (resolveItem (parseAs T) v[i]) := by
      rw [hw', List.getElem?_zipWith, hvi, List.getElem?_map, hT]; rfl
    refine ⟨v[i], hv.perm.mem_iff.1 (List.getElem_mem hi), hv.key_getElem hvi, ?_, fun x hx => ?_⟩
    · rw [hwi]; cases v[i] <;> rfl
    · rw [hwi] at hx
      cases hitem : v[i] with
      | ErrorResponse e => rw [hitem] at hx; cases hx
      | Response resp =>
        rw [hitem] at hx
        obtain ⟨t, ht, -⟩ := downcastResponse_parseAs (Option.some.inj hx)
        exact ⟨t, ht⟩
  · refine ⟨⟨fun ⟨v, hv⟩ => ?_, fun h => absurd h hno⟩, fun _ => ⟨text, heq⟩, fun v hv => ?_⟩
    · cases hv.symm.trans heq
    · cases hv.symm.trans heq

/-- Two requests on the ids 0 and 1, answered in the opposite order. -/
theorem batch_end_to_end_two :
    let calls : List (BatchBuilder.Call basicTypes) :=
      [.addRequest .U64 "a" none, .addNotification "n" none, .addRequest .RawValue "b" none]
    let item (n : Nat) : JsonRpcBatchResponse :=
      .Response ⟨{}, .ofNat n, ⟨0, ⟨.bool true, by decide⟩⟩⟩
    1 ≤ (BatchBuilder.ofCalls calls).requests.length ∧
      ∃ v, correlateBatch .checked (BatchBuilder.ofCalls calls) .new
        [item 1, item 0] = .ok (some v) := by
  intro calls item
  refine ⟨by decide,
    (batch_end_to_end .checked calls .new [item 1, item 0] (by decide) (by decide)).1.2 ?_⟩
  exact ⟨[.ofNat 1, .ofNat 0], rfl, by decide⟩

end Http

end JsonRpc
