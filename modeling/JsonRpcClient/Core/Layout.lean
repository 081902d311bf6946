import JsonRpcClient.Core.Batch

/-!
# What `build` makes of the queue (batch.rs:122)

`build_lays_out`: on any sequence of `add_*` calls, some of which may have failed, `build` gives the
requests that were queued the next ids, in the order they were queued, and puts the notifications
behind them.

That is as long as the ids last. `reserve_range` adds before it subtracts, and wraps or panics at
the end of the id space; `none_dropped_iff` says what becomes of a batch there.
-/

namespace JsonRpc
open Json

variable {R : ResponseTypes}

namespace BatchBuilder

/-! ## The queue -/

/-- What a call adds to `requests`: nothing if its params are refused. -/
def Call.queuedRequest : Call R → Option (QueuedRequest R)
  | .addRequest T method params =>
    match serializeOptParams params with
    | .ok params => some ⟨method, params, parseAs T⟩
    | .error _ => none
  | .addNotification .. => none

/-- What a call adds to `notifications`. -/
def Call.queuedNotification : Call R → Option QueuedNotification
  | .addNotification method params =>
    match serializeOptParams params with
    | .ok params => some ⟨method, params⟩
    | .error _ => none
  | .addRequest .. => none

/-- The requests of the calls that succeeded, in order. -/
def queuedRequests (calls : List (Call R)) : List (QueuedRequest R) :=
  calls.filterMap Call.queuedRequest

def queuedNotifications (calls : List (Call R)) : List QueuedNotification :=
  calls.filterMap Call.queuedNotification

theorem apply_eq (b : BatchBuilder R) (call : Call R) :
    b.apply call = ⟨b.requests ++ call.queuedRequest.toList,
      b.notifications ++ call.queuedNotification.toList⟩ := by
  cases call with
  | addRequest T method params =>
    simp only [apply, addRequest, Call.queuedRequest, Call.queuedNotification]
    cases serializeOptParams params <;> simp
  | addNotification method params =>
    simp only [apply, addNotification, Call.queuedRequest, Call.queuedNotification]
    cases serializeOptParams params <;> simp

/-- The two kinds are queued apart, each in the order of the calls. -/
theorem ofCalls_eq (calls : List (Call R)) :
    ofCalls calls = ⟨queuedRequests calls, queuedNotifications calls⟩ := by
  suffices h : ∀ b : BatchBuilder R, calls.foldl apply b =
      ⟨b.requests ++ queuedRequests calls, b.notifications ++ queuedNotifications calls⟩ by
    simpa [ofCalls, new] using h new
  induction calls with
  | nil => simp [queuedRequests, queuedNotifications]
  | cons call calls ih =>
    intro b
    rw [List.foldl_cons, ih, apply_eq]
    cases hr : call.queuedRequest <;> cases hn : call.queuedNotification <;>
      simp [queuedRequests, queuedNotifications, hr, hn]

/-! ## Laying it out -/

/-- The requests on the ids from `c`. -/
def numbered (c : Nat) (requests : List (QueuedRequest R)) : List JsonRpcOutgoing :=
  (requests.zipIdx c).map fun x => x.1.toOutgoing (.ofNat x.2)

theorem zip_ids_eq_numbered {requests : List (QueuedRequest R)} {range : RangeInclusive}
    (h : range.last.toNat + 1 = range.start.toNat + requests.length) :
    (requests.zip range.ids).map (fun x => x.1.toOutgoing x.2) =
      numbered range.start.toNat requests := by
  have hlen : range.last.toNat + 1 - range.start.toNat = requests.length := by omega
  rw [numbered, List.zipIdx_eq_zip_range', RangeInclusive.ids, hlen, List.zip_map_right,
    List.map_map]
  rfl

/-- **`build` lays the queue out faithfully and cannot fail.** -/
theorem build_lays_out (p : Profile) (calls : List (Call R)) (m : RequestIdManager)
    (h0 : 0 < (queuedRequests calls).length + (queuedNotifications calls).length)
    (hm : m.current_id.toNat + (queuedRequests calls).length < 2 ^ 64) :
    ∃ (batch : Batch R) (m' : RequestIdManager),
      (ofCalls calls).build p m = (.ok (some batch), m') ∧
      batch.items = numbered m.current_id.toNat (queuedRequests calls) ++
        (queuedNotifications calls).map QueuedNotification.toOutgoing ∧
      batch.parsers = (queuedRequests calls).map QueuedRequest.parser ∧
      (batch.request_id_range = if (queuedRequests calls).length = 0 then none else
        some ⟨m.currentId, .ofNat (m.current_id.toNat + (queuedRequests calls).length - 1)⟩) ∧
      m'.current_id.toNat = m.current_id.toNat + (queuedRequests calls).length := by
  have hb := valid_ofCalls calls
  rw [ofCalls_eq] at hb ⊢
  generalize queuedRequests calls = requests at *
  generalize queuedNotifications calls = notifications at *
  by_cases hpos : 0 < requests.length
  · obtain ⟨range, hstart, hlast, hbuild⟩ := build_ok (p := p) hb hpos hm
    simp only at hlast hbuild
    have hcount : (UInt64.ofNat requests.length).toNat = requests.length :=
      UInt64.toNat_ofNat_of_lt' (show _ < 2 ^ 64 by omega)
    refine ⟨_, _, hbuild, ?_, rfl, ?_, ?_⟩
    · rw [zip_ids_eq_numbered (by omega), hstart]
    · rw [if_neg (by omega)]
      have hfirst : range.start = m.currentId := RequestId.toNat_inj.1 hstart
      have hlast' : range.last = .ofNat (m.current_id.toNat + requests.length - 1) := by
        rw [← RequestId.toNat_inj, RequestId.toNat_ofNat (by omega)]; omega
      rw [← hfirst, ← hlast']
    · have hadd := toNat_add_of_lt (a := m.current_id) (b := UInt64.ofNat requests.length)
        (by omega)
      simpa only [hcount] using hadd
  · -- a batch of notifications reserves nothing
    obtain rfl : requests = [] := List.length_eq_zero_iff.1 (by omega)
    have hne : notifications ≠ [] := by rintro rfl; simp at h0
    exact ⟨_, m, build_notifications p m hb rfl hne, rfl, rfl, rfl, rfl⟩

/-- Two requests and a notification, and a request whose params are refused. -/
def mixedCalls : List (Call basicTypes) :=
  [.addRequest .U64 "a" none, .addNotification "n" (some ⟨"\x7b\x7d", false⟩),
    .addRequest .U64 "refused" (some ⟨"1", false⟩), .addRequest .RawValue "b" (some ⟨"[1]", false⟩)]

theorem build_lays_out_mixed :
    ∃ (batch : Batch basicTypes) (m' : RequestIdManager),
      (ofCalls mixedCalls).build .checked ⟨5⟩ = (.ok (some batch), m') ∧
      batch.items = [.Request ⟨{}, ⟨5⟩, "a", none⟩,
        .Request ⟨{}, ⟨6⟩, "b", some ⟨.arr [] (.num ⟨false, .pos ⟨0x31, rfl⟩ [], none, none⟩)
          [] .nil, rfl⟩⟩,
        .Notification ⟨{}, "n", some ⟨.objNil [], rfl⟩⟩] ∧
      batch.parsers = [parseAs (R := basicTypes) .U64, parseAs (R := basicTypes) .RawValue] ∧
      batch.request_id_range = some ⟨⟨5⟩, ⟨6⟩⟩ ∧
      m'.current_id.toNat = 7 :=
  build_lays_out .checked mixedCalls ⟨5⟩ (by decide +kernel) (by decide +kernel)

/-! ## The end of the ids -/

/-- Neither operation of `start + count - 1` leaves the `u64`s. -/
def NoOverflow (start count : UInt64) : Prop :=
  ((Profile.checked.add start count).bind (Profile.checked.sub · 1)).isSome = true

theorem noOverflow_iff {start count : UInt64} (h0 : 0 < count.toNat) :
    NoOverflow start count ↔ start.toNat + count.toNat < 2 ^ 64 := by
  unfold NoOverflow
  by_cases h : start.toNat + count.toNat < 2 ^ 64
  · have hle : (1 : UInt64).toNat ≤ (start + count).toNat := by
      rw [toNat_add_of_lt h, UInt64.toNat_one]; omega
    refine iff_of_true ?_ h
    rw [Profile.add_of_lt _ h, Option.bind_some, Profile.sub_of_le _ hle]; rfl
  · refine iff_of_false ?_ h
    simp only [Profile.add, h, ↓reduceIte, Option.bind_none, Option.isSome_none]
    exact Bool.false_ne_true

/-- A call on the id manager. -/
inductive Reserve where
  | id
  | range (count : UInt64)

/-- The manager after a sequence of calls, starting with a new one. -/
def after (p : Profile) (reserves : List Reserve) : RequestIdManager :=
  reserves.foldl (fun m r =>
    match r with
    | .id => m.reserveId.2
    | .range count => (m.reserveRange p count).2) .new

/-- Every queued request is in the batch, under an id of its own, and the range is not reversed. -/
structure Whole (b : BatchBuilder R) (batch : Batch R) : Prop where
  items : ∃ ids : List RequestId, ids.Nodup ∧ ids.length = b.requests.length ∧
    batch.items = List.zipWith QueuedRequest.toOutgoing b.requests ids ++
      b.notifications.map QueuedNotification.toOutgoing
  range : ∀ range ∈ batch.request_id_range, range.start ≤ range.last

/-- No request of `b` gets lost when it is built on `m`. -/
structure NoneDropped (p : Profile) (m : RequestIdManager) (b : BatchBuilder R) : Prop where
  fits : m.current_id.toNat + b.requests.length ≤ 2 ^ 64 →
    (m.reserveRange p (UInt64.ofNat b.requests.length)).1 =
      some (some ⟨m.currentId, .ofNat (m.current_id.toNat + b.requests.length - 1)⟩) ∧
    NoOverflow m.current_id (UInt64.ofNat b.requests.length)
  whole : ∀ batch, (b.build p m).1 = .ok (some batch) → b.Whole batch

section
variable {p : Profile} {m : RequestIdManager} {b : BatchBuilder R}

/-- With a panic there is no batch, and otherwise the batch is on the range that was reserved. -/
theorem build_reserved {batch : Batch R} (hb : b.Valid) (h0 : 0 < b.requests.length)
    {reserved : Option (Option RangeInclusive)}
    (hres : (m.reserveRange p (UInt64.ofNat b.requests.length)).1 = reserved) :
    (b.build p m).1 = .ok (some batch) ↔ ∃ range, reserved = some range ∧
      batch = ⟨range, (b.requests.zip (range.elim [] RangeInclusive.ids)).map (fun x => x.1.parser),
        (b.requests.zip (range.elim [] RangeInclusive.ids)).map (fun x => x.1.toOutgoing x.2) ++
          b.notifications.map QueuedNotification.toOutgoing⟩ := by
  have hne : b.requests.isEmpty = false := by
    cases hreq : b.requests with
    | nil => rw [hreq] at h0; simp at h0
    | cons => rfl
  simp only [build, hne, Bool.false_and, Bool.false_eq_true, ↓reduceIte]
  rcases hr : m.reserveRange p (UInt64.ofNat b.requests.length) with ⟨_ | range, m'⟩
  · rw [hr] at hres
    subst hres
    simp [Outcome.ok]
  · rw [hr] at hres
    subst hres
    simp only [hb.assemble_eq, Except.map, Outcome.ok, Outcome.ret.injEq, Except.ok.injEq,
      Option.some.injEq, exists_eq_left']
    exact eq_comm

theorem none_dropped_of_lt (hb : b.Valid) (h0 : 0 < b.requests.length)
    (hm : m.current_id.toNat + b.requests.length < 2 ^ 64) : NoneDropped p m b := by
  have hcount : (UInt64.ofNat b.requests.length).toNat = b.requests.length :=
    UInt64.toNat_ofNat_of_lt' (show _ < 2 ^ 64 by omega)
  obtain ⟨range, hres, hstart, hlast⟩ :=
    @RequestIdManager.reserveRange_spec p m (UInt64.ofNat b.requests.length) (by omega) (by omega)
  rw [hcount] at hlast
  have hrange : range = ⟨m.currentId, .ofNat (m.current_id.toNat + b.requests.length - 1)⟩ := by
    obtain ⟨s, l⟩ := range
    simp only at hstart hlast
    rw [RangeInclusive.mk.injEq, ← RequestId.toNat_inj, ← RequestId.toNat_inj,
      RequestId.toNat_ofNat (by omega)]
    exact ⟨hstart, by omega⟩
  refine ⟨fun _ => ⟨by rw [hres, hrange], (noOverflow_iff (by omega)).2 (by omega)⟩, ?_⟩
  intro batch hbatch
  obtain ⟨o, ho, rfl⟩ := (build_reserved hb h0 (congrArg Prod.fst hres)).1 hbatch
  cases ho
  refine ⟨⟨range.ids, range.nodup_ids, by rw [RangeInclusive.length_ids]; omega, ?_⟩, ?_⟩
  · simp [List.zip, List.map_zipWith]
  · rintro r ⟨⟩
    rw [RequestId.le_iff]; omega

/-- Past the end a build without overflow checks reserves a reversed range, whose ids no request is
paired with. -/
theorem reserveRange_wrapped (h0 : 0 < b.requests.length) (hlen : b.requests.length < 2 ^ 64)
    (hm : 2 ^ 64 < m.current_id.toNat + b.requests.length) :
    ∃ range : RangeInclusive, range.last < range.start ∧
      (m.reserveRange .wrapping (UInt64.ofNat b.requests.length)).1 = some (some range) := by
  have hcount : (UInt64.ofNat b.requests.length).toNat = b.requests.length :=
    UInt64.toNat_ofNat_of_lt' hlen
  have hne : UInt64.ofNat b.requests.length ≠ 0 := by
    intro h; rw [h] at hcount; simp at hcount; omega
  have hsum : (m.current_id + UInt64.ofNat b.requests.length).toNat =
      m.current_id.toNat + b.requests.length - 2 ^ 64 := by
    have hlt := m.current_id.toNat_lt
    rw [UInt64.toNat_add, hcount]; omega
  have hsub : (1 : UInt64).toNat ≤ (m.current_id + UInt64.ofNat b.requests.length).toNat := by
    rw [hsum, UInt64.toNat_one]; omega
  refine ⟨⟨m.currentId, ⟨m.current_id + UInt64.ofNat b.requests.length - 1⟩⟩, ?_, ?_⟩
  · rw [RequestId.lt_iff]
    simp only [RequestId.toNat, RequestIdManager.currentId, toNat_sub_of_le hsub, hsum,
      UInt64.toNat_one]
    omega
  · simp [RequestIdManager.reserveRange, RequestIdManager.fetchAdd, hne, Profile.add, Profile.sub,
      RequestIdManager.currentId]

/-- Past the end a build with overflow checks panics. -/
theorem reserveRange_panics (h0 : 0 < b.requests.length) (hlen : b.requests.length < 2 ^ 64)
    (hm : 2 ^ 64 ≤ m.current_id.toNat + b.requests.length) :
    (m.reserveRange .checked (UInt64.ofNat b.requests.length)).1 = none := by
  have hcount : (UInt64.ofNat b.requests.length).toNat = b.requests.length :=
    UInt64.toNat_ofNat_of_lt' hlen
  have hne : UInt64.ofNat b.requests.length ≠ 0 := by
    intro h; rw [h] at hcount; simp at hcount; omega
  have hsum : ¬ m.current_id.toNat + (UInt64.ofNat b.requests.length).toNat < 2 ^ 64 := by omega
  simp only [RequestIdManager.reserveRange, RequestIdManager.fetchAdd, hne, ↓reduceIte, Profile.add,
    hsum, Option.bind_none]

end

/-- **When no request is dropped at the end of the ids**: as long as the counter stays below
`2^64`, and beyond that only where the sum panics. At `2^64` itself the ids would still fit. -/
theorem none_dropped_iff (p : Profile) (reserves : List Reserve) (calls : List (Call R))
    (h0 : 0 < (ofCalls calls).requests.length)
    (hlen : (ofCalls calls).requests.length < 2 ^ 64) :
    NoneDropped p (after p reserves) (ofCalls calls) ↔
      (after p reserves).current_id.toNat + (ofCalls calls).requests.length < 2 ^ 64 ∨
      (2 ^ 64 < (after p reserves).current_id.toNat + (ofCalls calls).requests.length ∧
        p = .checked) := by
  have hb := valid_ofCalls calls
  generalize ofCalls calls = b at *
  generalize after p reserves = m
  have hcount : (UInt64.ofNat b.requests.length).toNat = b.requests.length :=
    UInt64.toNat_ofNat_of_lt' hlen
  rcases Nat.lt_trichotomy (m.current_id.toNat + b.requests.length) (2 ^ 64) with hlt | heq | hgt
  · exact iff_of_true (none_dropped_of_lt hb h0 hlt) (.inl hlt)
  · -- the ids still fit, but their sum overflows
    refine iff_of_false (fun h => ?_) (by omega)
    have := (noOverflow_iff (by omega)).1 (h.fits (by omega)).2
    omega
  · cases p with
    | checked =>
      refine iff_of_true ⟨fun h => by omega, fun batch hbatch => ?_⟩ (.inr ⟨hgt, rfl⟩)
      obtain ⟨_, ho, -⟩ :=
        (build_reserved hb h0 (reserveRange_panics h0 hlen (by omega))).1 hbatch
      cases ho
    | wrapping =>
      refine iff_of_false (fun h => ?_) (by simp; omega)
      obtain ⟨range, hrev, hres⟩ := reserveRange_wrapped h0 hlen hgt
      have := (h.whole _ ((build_reserved hb h0 hres).2 ⟨_, rfl, rfl⟩)).range range rfl
      rw [RequestId.lt_iff] at hrev
      rw [RequestId.le_iff] at this
      omega

theorem none_dropped_iff_fresh : NoneDropped .checked (after .checked [.id]) (ofCalls mixedCalls) :=
  (none_dropped_iff .checked [.id] mixedCalls (by decide +kernel) (by decide +kernel)).2
    (.inl (by decide +kernel))

/-- Every id but `u64::MAX` is reserved. -/
def lastId (p : Profile) : RequestIdManager := after p [.range 18446744073709551615]

def oneCall : Call basicTypes := .addRequest .U64 "a" none

/-- **On the last id a checked build panics for one request, and a wrapping one makes a batch
without either of two.** -/
theorem last_requests_dropped :
    ((ofCalls [oneCall]).build .checked (lastId .checked)).1 = .panic ∧
    ¬ NoneDropped .checked (lastId .checked) (ofCalls [oneCall]) ∧
    ((ofCalls [oneCall, oneCall]).build .wrapping (lastId .wrapping)).1 =
      .ok (some ⟨some ⟨⟨18446744073709551615⟩, ⟨0⟩⟩, [], []⟩) ∧
    ¬ NoneDropped .wrapping (lastId .wrapping) (ofCalls [oneCall, oneCall]) := by
  have hlost : ((ofCalls [oneCall, oneCall]).build .wrapping (lastId .wrapping)).1 =
      .ok (some ⟨some ⟨⟨18446744073709551615⟩, ⟨0⟩⟩, [], []⟩) := rfl
  refine ⟨rfl, ?_, hlost, ?_⟩
  · rintro ⟨hfits, -⟩
    have h := (hfits (by decide +kernel)).1
    cases h
  · rintro ⟨-, hwhole⟩
    exact absurd ((hwhole _ hlost).range _ rfl) (by decide)

end BatchBuilder

end JsonRpc
