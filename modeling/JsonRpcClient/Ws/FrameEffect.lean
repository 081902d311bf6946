import JsonRpcClient.Ws.HandleMessage

/-!
# What one frame does (jsonrpc_ws_client/src/handles.rs:84)

`frame_effect`: a frame removes at most the one entry it answers, and resolves that. Everything
else, a gap or a repeated id in a batch for example, leaves the maps and channels alone.

The contiguity test adds one to an id the peer chose. `no_panic_iff` is what that comes to in a
build with overflow checks: a batch whose ids run up to `u64::MAX`, and repeat it, panics.
-/

namespace JsonRpc.Ws
open Json Arrange
open scoped List

variable {Tx : Type}

/-! ## The contiguity test at `u64::MAX` -/

/-- Consecutive numbers up to `u64::MAX`, and then `u64::MAX` at least once more. -/
def LastRepeated (l : List Nat) : Prop :=
  ∃ n k, 0 < n ∧ n ≤ 2 ^ 64 ∧ 0 < k ∧
    l = List.range' (2 ^ 64 - n) n ++ List.replicate k (2 ^ 64 - 1)

theorem LastRepeated.length {l : List Nat} (h : LastRepeated l) : 2 ≤ l.length := by
  obtain ⟨n, k, hn, -, hk, rfl⟩ := h
  simp; omega

theorem lastRepeated_cons {x y : Nat} {l : List Nat} (hx : x + 1 < 2 ^ 64) :
    LastRepeated (x :: y :: l) ↔ y = x + 1 ∧ LastRepeated (y :: l) := by
  constructor
  · rintro ⟨n, k, hn, hle, hk, h⟩
    match n, hn with
    | 1, _ =>
      simp only [List.range'_one, List.cons_append, List.cons.injEq] at h
      omega
    | n + 2, _ =>
      simp only [List.range'_succ, List.cons_append, List.cons.injEq] at h
      obtain ⟨h1, h2, h3⟩ := h
      refine ⟨by omega, n + 1, k, by omega, by omega, hk, ?_⟩
      rw [List.range'_succ, List.cons_append, h3, h2,
        show 2 ^ 64 - (n + 1) = 2 ^ 64 - (n + 2) + 1 by omega]
  · rintro ⟨rfl, n, k, hn, hle, hk, h⟩
    obtain ⟨n, rfl⟩ := Nat.exists_eq_add_of_le' hn
    rw [List.range'_succ, List.cons_append, List.cons.injEq] at h
    refine ⟨n + 2, k, by omega, by omega, hk, ?_⟩
    rw [List.range'_succ, List.range'_succ, List.cons_append, List.cons_append, h.2,
      show 2 ^ 64 - (n + 1) = x + 1 by omega, show 2 ^ 64 - (n + 2) = x by omega]

theorem isContiguous_wrapping : ∀ ids : List RequestId, isContiguous .wrapping ids ≠ none
  | [] => by simp [isContiguous]
  | [_] => by simp [isContiguous]
  | a :: b :: ids => by
    simp only [isContiguous, Profile.add]
    split
    · exact isContiguous_wrapping (b :: ids)
    · simp

/-- Nothing sorts behind `u64::MAX` but itself. -/
theorem lastRepeated_of_sorted {a b : RequestId} {ids : List RequestId}
    (h : ∀ c ∈ a :: b :: ids, 2 ^ 64 - 1 ≤ c.toNat) :
    LastRepeated ((a :: b :: ids).map RequestId.toNat) := by
  refine ⟨1, (b :: ids).length, by omega, by omega, by simp, ?_⟩
  rw [List.range'_one, List.singleton_append, ← List.replicate_succ, List.eq_replicate_iff]
  refine ⟨by simp, fun x hx => ?_⟩
  obtain ⟨c, hc, rfl⟩ := List.mem_map.1 hx
  have hle := h c hc
  have hlt := c.toNat_lt
  omega

/-- With overflow checks the test panics where it gets as far as adding to `u64::MAX`. -/
theorem isContiguous_checked_eq_none_iff : ∀ {ids : List RequestId}, ids.Pairwise (· ≤ ·) →
    (isContiguous .checked ids = none ↔ LastRepeated (ids.map RequestId.toNat))
  | [], _ => iff_of_false (by simp [isContiguous]) fun h => by simpa using h.length
  | [_], _ => iff_of_false (by simp [isContiguous]) fun h => by simpa using h.length
  | a :: b :: ids, hs => by
    obtain ⟨hle, hs'⟩ := List.pairwise_cons.1 hs
    by_cases hmax : a.toNat + 1 < 2 ^ 64
    · have hone : a.val.toNat + (1 : UInt64).toNat < 2 ^ 64 := by rw [UInt64.toNat_one]; exact hmax
      have hsucc : b.val = a.val + 1 ↔ b.toNat = a.toNat + 1 := by
        rw [← UInt64.toNat_inj, toNat_add_of_lt hone, UInt64.toNat_one]; rfl
      simp only [isContiguous, Profile.add_of_lt _ hone, hsucc, List.map_cons,
        lastRepeated_cons hmax]
      by_cases hb : b.toNat = a.toNat + 1
      · have ih := isContiguous_checked_eq_none_iff hs'
        rw [List.map_cons] at ih
        simpa only [hb, ↓reduceIte, true_and] using ih
      · simp [hb]
    · -- `a` is `u64::MAX`, and so is all that follows
      have hno : ¬ a.val.toNat + (1 : UInt64).toNat < 2 ^ 64 := by rw [UInt64.toNat_one]; exact hmax
      refine iff_of_true (by simp only [isContiguous, Profile.add, hno, ↓reduceIte]) ?_
      apply lastRepeated_of_sorted
      intro c hc
      rcases List.mem_cons.1 hc with rfl | hc
      · omega
      · have := RequestId.le_iff.1 (hle c hc)
        omega

theorem LastRepeated.pairwise {l : List Nat} (h : LastRepeated l) : l.Pairwise (· ≤ ·) := by
  obtain ⟨n, k, hn, hle, hk, rfl⟩ := h
  rw [List.pairwise_append]
  refine ⟨List.pairwise_le_range' 1, List.pairwise_replicate.2 (.inr (Nat.le_refl _)), ?_⟩
  intro x hx y hy
  rw [List.mem_range'_1] at hx
  rw [(List.mem_replicate.1 hy).2]
  omega

/-- The ids of a batch reply, in any order, run up to `u64::MAX` and repeat it. -/
def RepeatsLastId (batch : List JsonRpcBatchResponse) : Prop :=
  ∃ l, LastRepeated l ∧ ((batch.filterMap JsonRpcBatchResponse.id?).map RequestId.toNat).Perm l

/-- The routing of a batch panics where the contiguity test does. -/
theorem routeBatch_eq_panic {p : Profile} {msg : Message} {batch : List JsonRpcBatchResponse} :
    routeBatch p msg batch = .panic ↔ isContiguous p
      ((batch.filterMap JsonRpcBatchResponse.id?).insertionSort (· ≤ ·)) = none := by
  unfold routeBatch
  generalize (batch.filterMap JsonRpcBatchResponse.id?).insertionSort (· ≤ ·) = ids
  cases ids with
  | nil => simp [isContiguous]
  | cons first rest =>
    obtain ⟨last, hlast⟩ : ∃ last, (first :: rest).getLast? = some last :=
      ⟨_, List.getLast?_eq_getLast_of_ne_nil (by simp)⟩
    simp only [List.head?_cons, hlast]
    cases isContiguous p (first :: rest) with
    | none => simp
    | some b => cases b <;> simp

theorem routeBatch_eq_panic_iff {p : Profile} {msg : Message} {batch : List JsonRpcBatchResponse} :
    routeBatch p msg batch = .panic ↔ p = .checked ∧ RepeatsLastId batch := by
  set ids := (batch.filterMap JsonRpcBatchResponse.id?).insertionSort (· ≤ ·) with hids
  have hperm : ids.Perm (batch.filterMap JsonRpcBatchResponse.id?) := List.perm_insertionSort _ _
  have hsorted : ids.Pairwise (· ≤ ·) := List.pairwise_insertionSort _ _
  rw [routeBatch_eq_panic, ← hids]
  cases p with
  | wrapping => simp [isContiguous_wrapping]
  | checked =>
    rw [isContiguous_checked_eq_none_iff hsorted]
    simp only [true_and]
    constructor
    · intro h
      exact ⟨_, h, (hperm.map _).symm⟩
    · rintro ⟨l, hl, hp⟩
      have hsortedN : (ids.map RequestId.toNat).Pairwise (· ≤ ·) := by
        rw [List.pairwise_map]
        exact hsorted.imp RequestId.le_iff.1
      rwa [((hperm.map _).trans hp).eq_of_pairwise' hsortedN hl.pairwise]

/-! ## The effect of a frame -/

/-- The ids that occur in a decoded message. -/
def messageIds : JsonRpcIncoming → List RequestId
  | .Response r => [r.id]
  | .ErrorResponse e => e.id.toList
  | .Notification _ => []
  | .BatchResponse batch => batch.filterMap JsonRpcBatchResponse.id?

/-- What `h` has to be when the frame `msg`, whose data is decoded to `decoded`, is handled. -/
structure FrameEffect (msg : Message) (decoded : Result JsonRpcIncoming) (maps : PendingMaps Tx)
    (h : Handled Tx) : Prop where
  response : ∀ resp tx, decoded = .ok (.Response resp) →
    maps.pending_requests.lookup resp.id = some tx →
    h = ⟨{ maps with pending_requests := maps.pending_requests.erase resp.id },
      some (.reply tx (.ok (msg, .of resp.result))), false⟩
  errorResponse : ∀ err id tx, decoded = .ok (.ErrorResponse err) → err.id = some id →
    maps.pending_requests.lookup id = some tx →
    h = ⟨{ maps with pending_requests := maps.pending_requests.erase id },
      some (.reply tx (.error (.ofResponse err))), false⟩
  batch : ∀ batch key tx, decoded = .ok (.BatchResponse batch) →
    (batch.filterMap JsonRpcBatchResponse.id?).Perm key.ids →
    maps.pending_batch_requests.lookup key = some tx →
    ∃ items, h = ⟨{ maps with pending_batch_requests := maps.pending_batch_requests.erase key },
        some (.batchReply tx (.ok ⟨msg, items⟩)), false⟩ ∧
      items.length = key.last.toNat - key.start.toNat + 1 ∧
      ∀ item ∈ batch, ∀ id, item.id? = some id →
        items[id.toNat - key.start.toNat]? = some (slotValue item)
  notification : ∀ n, decoded = .ok (.Notification n) →
    h = ⟨maps, some (.notification (.of n)), false⟩
  /-- an unknown id, an error without one, ids that are no pending batch's, a malformed frame -/
  otherwise : (∀ resp, decoded = .ok (.Response resp) →
      maps.pending_requests.lookup resp.id = none) →
    (∀ err id, decoded = .ok (.ErrorResponse err) → err.id = some id →
      maps.pending_requests.lookup id = none) →
    (∀ batch key, decoded = .ok (.BatchResponse batch) →
      (batch.filterMap JsonRpcBatchResponse.id?).Perm key.ids →
      maps.pending_batch_requests.lookup key = none) →
    (∀ n, decoded ≠ .ok (.Notification n)) → h = ⟨maps, none, false⟩

/-- A batch whose ids are below `u64::MAX` does not repeat that one. -/
theorem not_repeatsLastId {batch : List JsonRpcBatchResponse}
    (h : ∀ id ∈ batch.filterMap JsonRpcBatchResponse.id?, id.toNat < 2 ^ 64 - 1) :
    ¬ RepeatsLastId batch := by
  rintro ⟨l, ⟨n, k, -, -, hk, rfl⟩, hperm⟩
  have hmem : 2 ^ 64 - 1 ∈ (batch.filterMap JsonRpcBatchResponse.id?).map RequestId.toNat := by
    rw [hperm.mem_iff, List.mem_append, List.mem_replicate]
    exact .inr ⟨by omega, rfl⟩
  obtain ⟨id, hid, heq⟩ := List.mem_map.1 hmem
  have := h id hid
  omega

/-- The item of an id is at that id's place. -/
theorem arranged_getElem? {c n : Nat} {batch v : List JsonRpcBatchResponse}
    (hv : IsArrangement idKey c n (batch.filter carriesId) v) {item : JsonRpcBatchResponse}
    (hitem : item ∈ batch) {id : RequestId} (hid : item.id? = some id) :
    (v.map slotValue)[id.toNat - c]? = some (slotValue item) := by
  have hmem : item ∈ v := by
    rw [hv.perm.mem_iff, List.mem_filter]
    exact ⟨hitem, by simp [carriesId, hid]⟩
  obtain ⟨i, hi⟩ := List.getElem?_of_mem hmem
  have hkey := hv.key_getElem hi
  rw [idKey_eq_some hid, Option.some.injEq] at hkey
  rw [List.getElem?_map, show id.toNat - c = i by omega, hi]; rfl

section
variable {p : Profile} {J : SerdeJson} {msg : Message} {data : Bytes} {maps : PendingMaps Tx}
  {batch : List JsonRpcBatchResponse}

theorem batch_effect
    (hkeys : ∀ key, (maps.pending_batch_requests.lookup key).isSome → key.start ≤ key.last)
    (hids : ∀ id ∈ batch.filterMap JsonRpcBatchResponse.id?, id.toNat < 2 ^ 64 - 1)
    (hdec : JsonRpcIncoming.tryFromBytes J data = .ok (.BatchResponse batch)) :
    FrameEffect msg (.ok (.BatchResponse batch)) maps (handleMessage p J msg data maps) := by
  have hroute : route p J msg data = routeBatch p msg batch := by simp only [route, hdec]
  refine ⟨fun _ _ h => (by cases h), fun _ _ _ h => (by cases h), ?_, fun _ h => (by cases h), ?_⟩
  · rintro _ key tx ⟨⟩ hperm htx
    have hle := hkeys key (by rw [htx]; rfl)
    rcases routeBatch_spec p msg batch with ⟨key', n, v, hn, hlast, hv, heq⟩ | ⟨hno, -⟩
    · obtain rfl := RangeInclusive.eq_of_perm_ids hle
        (hperm.symm.trans ((perm_ids_iff hlast).2 ⟨v, hv⟩))
      refine ⟨v.map slotValue, ?_, ?_, fun item hitem id hid => arranged_getElem? hv hitem hid⟩
      · simp only [handleMessage, hroute, heq, htx, Option.map_some, Option.isNone_some]
      · rw [List.length_map, hv.length_eq]; omega
    · rw [RequestId.le_iff] at hle
      have hlast : key.last.toNat + 1 =
          key.start.toNat + (key.last.toNat + 1 - key.start.toNat) := by omega
      exact absurd ((perm_ids_iff hlast).1 hperm) (hno _ _ (by omega))
  · intro _ _ hother _
    rcases routeBatch_spec p msg batch with ⟨key, n, v, hn, hlast, hv, heq⟩ | ⟨-, heq | heq⟩
    · have hnone := hother batch key rfl ((perm_ids_iff hlast).2 ⟨v, hv⟩)
      simp only [handleMessage, hroute, heq, hnone]
    · simp only [handleMessage, hroute, heq]
    · exact absurd (routeBatch_eq_panic_iff.1 heq).2 (not_repeatsLastId hids)

/-- **Exact effect of one frame.** -/
theorem frame_effect (p : Profile) (J : SerdeJson) (msg : Message) (data : Bytes)
    (maps : PendingMaps Tx)
    (hkeys : ∀ key, (maps.pending_batch_requests.lookup key).isSome → key.start ≤ key.last)
    (hids : ∀ m, JsonRpcIncoming.tryFromBytes J data = .ok m →
      ∀ id ∈ messageIds m, id.toNat < 2 ^ 64 - 1) :
    FrameEffect msg (JsonRpcIncoming.tryFromBytes J data) maps
      (handleMessage p J msg data maps) := by
  cases hdec : JsonRpcIncoming.tryFromBytes J data with
  | error e =>
    have hroute : route p J msg data = .drop := by simp only [route, hdec]
    have heq : handleMessage p J msg data maps = ⟨maps, none, false⟩ := by
      simp only [handleMessage, hroute]
    rw [heq]
    exact ⟨fun _ _ h => (by cases h), fun _ _ _ h => (by cases h), fun _ _ _ h => (by cases h),
      fun _ h => (by cases h), fun _ _ _ _ => rfl⟩
  | ok m =>
    cases m with
    | BatchResponse batch => exact batch_effect hkeys (hids _ hdec) hdec
    | Notification n =>
      have hroute : route p J msg data = .notification (.of n) := by simp only [route, hdec]
      have heq : handleMessage p J msg data maps = ⟨maps, some (.notification (.of n)), false⟩ := by
        simp only [handleMessage, hroute]
      rw [heq]
      exact ⟨fun _ _ h => (by cases h), fun _ _ _ h => (by cases h), fun _ _ _ h => (by cases h),
        fun _ h => (by cases h; rfl), fun _ _ _ h => absurd rfl (h n)⟩
    | Response resp =>
      have hroute : route p J msg data = .unary resp.id (.ok (msg, .of resp.result)) := by
        simp only [route, hdec]
      refine ⟨?_, fun _ _ _ h => (by cases h), fun _ _ _ h => (by cases h),
        fun _ h => (by cases h), ?_⟩
      · rintro _ tx ⟨⟩ htx
        simp only [handleMessage, hroute, htx]
      · intro h _ _ _
        simp only [handleMessage, hroute, h resp rfl]
    | ErrorResponse err =>
      refine ⟨fun _ _ h => (by cases h), ?_, fun _ _ _ h => (by cases h),
        fun _ h => (by cases h), ?_⟩
      · rintro _ id tx ⟨⟩ hid htx
        simp only [handleMessage, route, hdec, hid, htx]
      · intro _ h _ _
        cases hid : err.id with
        | none => simp only [handleMessage, route, hdec, hid]
        | some id => simp only [handleMessage, route, hdec, hid, h err id rfl hid]

end

/-- The responses to requests 1 and 2, the second first, and an error for no request. -/
def reversedReply : String :=
  "[\x7b\"jsonrpc\":\"2.0\",\"id\":2,\"result\":[]\x7d,\x7b\"jsonrpc\":\"2.0\",\"id\":null,\"error\":\x7b\"code\":1,\"message\":\"m\"\x7d\x7d,\x7b\"jsonrpc\":\"2.0\",\"id\":1,\"result\":7\x7d]"

/-- Batches `1..=2` and `1..=3` are pending, and the requests 1 and 2. -/
def crowdedMaps : PendingMaps Nat where
  pending_requests := ((∅ : DashMap RequestId Nat).insert ⟨1⟩ 1).insert ⟨2⟩ 2
  pending_batch_requests := ((∅ : DashMap RangeInclusive Nat).insert ⟨⟨1⟩, ⟨2⟩⟩ 12).insert
    ⟨⟨1⟩, ⟨3⟩⟩ 13

theorem frame_effect_reversed :
    FrameEffect (.Text reversedReply) (JsonRpcIncoming.tryFromBytes ⟨fun _ => true⟩
        (bytesOf reversedReply)) crowdedMaps
      (handleMessage .checked ⟨fun _ => true⟩ (.Text reversedReply) (bytesOf reversedReply)
        crowdedMaps) := by
  refine frame_effect _ _ _ _ _ (fun key hkey => ?_) fun m hm id hid => ?_
  · have hmem : key = ⟨⟨1⟩, ⟨3⟩⟩ ∨ key = ⟨⟨1⟩, ⟨2⟩⟩ := by
      simpa [crowdedMaps, AList.lookup_isSome, AList.mem_keys] using hkey
    rcases hmem with rfl | rfl <;> decide
  · have hids : (JsonRpcIncoming.tryFromBytes ⟨fun _ => true⟩
        (bytesOf reversedReply)).toOption.map messageIds = some [⟨2⟩, ⟨1⟩] := by decide +kernel
    rw [hm] at hids
    simp only [Except.toOption, Option.map_some, Option.some.injEq] at hids
    rw [hids] at hid
    revert id
    decide

/-- That batch is resolved in the order of its ids, and nothing else changes. -/
example : (handleMessage .checked ⟨fun _ => true⟩ (.Text reversedReply) (bytesOf reversedReply)
    crowdedMaps).sent = some (.batchReply 12 (.ok ⟨.Text reversedReply,
      [.ok ⟨132, 133⟩, .ok ⟨34, 36⟩]⟩)) := by
  decide +kernel

/-! ## Panics -/

/-- `handle_message` returns, and no offset it computes is negative or beyond the data. -/
def Completes (p : Profile) (J : SerdeJson) (msg : Message) (data : Bytes)
    (maps : PendingMaps Tx) : Prop :=
  (handleMessage p J msg data maps).panicked = false ∧
    ∀ m, JsonRpcIncoming.tryFromBytes J data = .ok m → ∀ r ∈ m.spans, r.BorrowedFrom data

theorem panicked_iff {p : Profile} {J : SerdeJson} {msg : Message} {data : Bytes}
    {maps : PendingMaps Tx} :
    (handleMessage p J msg data maps).panicked = true ↔ route p J msg data = .panic := by
  cases hroute : route p J msg data with
  | unary id value =>
    cases hm : maps.pending_requests.lookup id <;> simp [handleMessage, hroute, hm]
  | batch key value =>
    obtain ⟨result, rfl⟩ := route_batch_value hroute
    cases hm : maps.pending_batch_requests.lookup key <;> simp [handleMessage, hroute, hm]
  | notification n => simp [handleMessage, hroute]
  | drop => simp [handleMessage, hroute]
  | panic => simp [handleMessage, hroute]

/-- **No frame crashes the dispatcher, but one: with overflow checks, a batch reply whose ids run up
to `u64::MAX` and repeat it.** Nothing else there is to index or to subtract panics. -/
theorem no_panic_iff (p : Profile) (J : SerdeJson) (msg : Message) (data : Bytes)
    (maps : PendingMaps Tx) :
    Completes p J msg data maps ↔
      ¬ (p = .checked ∧ ∃ batch, JsonRpcIncoming.tryFromBytes J data = .ok (.BatchResponse batch) ∧
        RepeatsLastId batch) := by
  have hborrow : ∀ m, JsonRpcIncoming.tryFromBytes J data = .ok m → ∀ r ∈ m.spans,
      r.BorrowedFrom data := fun _ hm => JsonRpcIncoming.tryFromBytes_borrowed hm
  rw [Completes, and_iff_left hborrow, ← Bool.not_eq_true, panicked_iff, not_iff_not]
  constructor
  · intro h
    obtain ⟨batch, hdec, hroute⟩ := route_eq_panic.1 h
    obtain ⟨hp, hlast⟩ := routeBatch_eq_panic_iff.1 hroute
    exact ⟨hp, batch, hdec, hlast⟩
  · rintro ⟨hp, batch, hdec, hlast⟩
    exact route_eq_panic.2 ⟨batch, hdec, routeBatch_eq_panic_iff.2 ⟨hp, hlast⟩⟩

/-- The greatest id twice. -/
def lastTwice : String :=
  "[\x7b\"jsonrpc\":\"2.0\",\"id\":18446744073709551615,\"result\":1\x7d,\x7b\"jsonrpc\":\"2.0\",\"id\":18446744073709551615,\"result\":1\x7d]"

/-- **A reply of two items panics**, with nothing pending. -/
theorem last_id_twice_panics : ¬ Completes .checked ⟨fun _ => true⟩ (.Text lastTwice)
    (bytesOf lastTwice) (⟨∅, ∅⟩ : PendingMaps Unit) := by
  have hpanic : (handleMessage .checked ⟨fun _ => true⟩ (.Text lastTwice) (bytesOf lastTwice)
    (⟨∅, ∅⟩ : PendingMaps Unit)).panicked = true := by decide +kernel
  rintro ⟨h, -⟩
  rw [hpanic] at h; cases h

end JsonRpc.Ws
