import JsonRpcClient.Core.TryFrom

/-!
# What an accepted text says

The shapes a decoded message stands for, read off the text's members (`IsMessage`), and when an
accepted text has the shape it was decoded to.

A derived struct is filled from an object by key, and just as well from an array by position. The
decoder never asks which: a batch item may be an array, and so may the `error` of a message. Main
theorem **soundly_decoded_iff**: those are the only accepted texts that are not what they are taken
for.
-/

namespace JsonRpc
open Json

/-! ## The shapes -/

def HasVersion (l : Located) : Prop := ∃ x, l.HasMember "jsonrpc" x ∧ x.IsString JSONRPC_VERSION

structure IsResponse (l : Located) (r : JsonRpcResponse) : Prop where
  version : HasVersion l
  result : ∃ x, l.HasMember "result" x ∧ r.result.raw.json = x.value
  id : ∃ x, l.HasMember "id" x ∧ x.IsNat r.id.val.toNat
  error : ∀ x, l.HasMember "error" x → x.value = .null

structure IsErrorResponse (l : Located) (e : JsonRpcErrorResponse) : Prop where
  version : HasVersion l
  error : ∃ x, l.HasMember "error" x ∧ (∃ c, x.HasMember "code" c ∧ c.IsInt e.error.code) ∧
    ∃ m, x.HasMember "message" m ∧ m.IsString e.error.message
  id : ∀ id, e.id = some id ↔ ∃ x, l.HasMember "id" x ∧ x.IsNat id.val.toNat

structure IsNotification (l : Located) (n : JsonRpcNotification RawSpan) : Prop where
  version : HasVersion l
  method : ∃ x, l.HasMember "method" x ∧ x.IsString n.method
  id : ∀ x, ¬ l.HasMember "id" x
  result : ∀ x, ¬ l.HasMember "result" x
  error : ∀ x, l.HasMember "error" x → x.value = .null

def IsItem (l : Located) : JsonRpcBatchResponse → Prop
  | .Response r => IsResponse l r
  | .ErrorResponse e => IsErrorResponse l e

/-- `t` is a text of the message `msg`: an object, or an array of objects for a batch. -/
def IsMessage (t : Text) : JsonRpcIncoming → Prop
  | .Response r => IsResponse t.root r
  | .ErrorResponse e => IsErrorResponse t.root e
  | .Notification n => IsNotification t.root n
  | .BatchResponse items => ∃ es, t.root.elements = some es ∧ List.Forall₂ IsItem es items

/-- Nothing a struct of the decoder is filled from is an array: neither the message `l` nor its
`error`. -/
def FilledByKey (l : Located) : Prop :=
  l.value.isObject = true ∧ ∀ x, l.HasMember "error" x → x.value.isArray = false

/-- No message of the text is filled by position. -/
def AllFilledByKey (t : Text) : Prop :=
  match t.root.elements with
  | some es => ∀ l ∈ es, FilledByKey l
  | none => FilledByKey t.root

instance (l : Located) : Decidable (FilledByKey l) :=
  decidable_of_iff (l.value.isObject = true ∧
      ∀ f ∈ l.fields.getD [], f.key.decode = some "error" → f.value.value.isArray = false) <| by
    apply and_congr_right
    intro hl
    obtain ⟨fs, hfs⟩ := Option.isSome_iff_exists.1 (l.fields_isSome.trans hl)
    simp only [hfs, Option.getD_some, Located.HasMember, Option.some.injEq, exists_eq_left']
    exact ⟨fun h x ⟨f, hf, hn, hx⟩ => hx ▸ h f hf hn, fun h f hf hn => h _ ⟨f, hf, hn, rfl⟩⟩

instance (t : Text) : Decidable (AllFilledByKey t) :=
  match h : t.root.elements with
  | some es => decidable_of_iff (∀ l ∈ es, FilledByKey l) (by simp [AllFilledByKey, h])
  | none => decidable_of_iff (FilledByKey t.root) (by simp [AllFilledByKey, h])

/-! ## What a probe says about the object it was filled from -/

theorem Serde.str_isString {l : Located} {m : String} (h : Serde.str l = some m) :
    l.IsString m := by
  obtain ⟨s, hs, -, hm⟩ := Serde.str_eq_some.1 h
  exact ⟨s, hs, hm⟩

theorem Serde.i64_isInt {l : Located} {k : Int} (h : Serde.i64 l = some k) : l.IsInt k := by
  obtain ⟨n, hn, hk⟩ := Serde.i64_eq_some.1 h
  exact ⟨n, hn, (Serde.numI64_eq_some.1 hk).1⟩

/-- An id that is there is never `Absent`, and a `Value` when it is an unsigned integer literal. -/
theorem deserializeProbeId_eq_some {J : SerdeJson} {level : Nat} {l : Located} {p : ProbeId}
    (h : deserializeProbeId J level l = some p) :
    p ≠ .Absent ∧ ∀ id, p = .Value id ↔ l.IsNat id.val.toNat := by
  unfold deserializeProbeId at h
  split at h
  · rename_i hv
    cases h
    refine ⟨by simp, fun id => ⟨fun h => (by cases h), ?_⟩⟩
    rintro ⟨n, hn, -⟩
    rw [hv] at hn; cases hn
  · split at h
    · cases hu : Serde.u64 l.value with
      | none =>
        rw [hu] at h
        cases h
        refine ⟨by simp, fun id => ⟨fun h => (by cases h), fun hid => ?_⟩⟩
        rw [Serde.u64_eq_some.2 hid] at hu; cases hu
      | some k =>
        rw [hu] at h
        cases h
        refine ⟨by simp, fun id => ?_⟩
        rw [← Serde.u64_eq_some, hu]
        cases id; simp
    · cases h

/-- A struct filled by key and read as an error is an object with an integer `code` and a string
`message`. -/
theorem ProbeError.deserialize_members {x : Located} {e : ProbeError}
    (h : ProbeError.deserialize x = some e)
    (hx : x.value.isObject = true) : (∃ c, x.HasMember "code" c ∧ c.IsInt e.code) ∧
      ∃ m, x.HasMember "message" m ∧ m.IsString e.message := by
  obtain ⟨f, hf, hc, hm, -⟩ := ProbeError.deserialize_eq_some.1 h
  obtain ⟨c, hc, hcode⟩ := Serde.required_eq_some.1 hc
  obtain ⟨m, hm, hmessage⟩ := Serde.required_eq_some.1 hm
  exact ⟨⟨c, (Serde.struct_hasMember hf hx (by simp)).1 hc, Serde.i64_isInt hcode⟩,
    ⟨m, (Serde.struct_hasMember hf hx (by simp)).1 hm, Serde.str_isString hmessage⟩⟩

/-- What a probe that was filled by key says about its object. -/
structure Probe.Of (l : Located) (probe : Probe) : Prop where
  version : HasVersion l
  absent : probe.id = .Absent → ∀ x, ¬ l.HasMember "id" x
  id : ∀ id, probe.id = .Value id ↔ ∃ x, l.HasMember "id" x ∧ x.IsNat id.val.toNat
  method : ∀ m, probe.method = some m → ∃ x, l.HasMember "method" x ∧ x.IsString m
  result : ∀ r, probe.result = some r → ∃ x, l.HasMember "result" x ∧ r.raw.json = x.value
  noResult : probe.result = none → ∀ x, ¬ l.HasMember "result" x
  error : ∀ e, probe.error = some e →
    ∃ x, (∀ y, l.HasMember "error" y ↔ y = x) ∧ ProbeError.deserialize x = some e
  noError : probe.error = none → ∀ x, l.HasMember "error" x → x.value = .null

theorem Probe.of_deserialize {J : SerdeJson} {level : Nat} {l : Located} {probe : Probe}
    (h : Probe.deserialize J level l = some probe) (hl : l.value.isObject = true) : probe.Of l := by
  obtain ⟨f, hf, hj, hi, hm, -, hr, he⟩ := Probe.deserialize_eq_some.1 h
  obtain ⟨jsonrpc, id, method, params, result, error⟩ := probe
  have member : ∀ n ∈ probeFields, ∀ x,
      f n = some x ↔ l.HasMember n x := fun n hn x => Serde.struct_hasMember hf hl hn
  simp only at hj hi hm hr he
  refine ⟨?_, ?_, ?_, ?_, ?_, ?_, ?_, ?_⟩
  · obtain ⟨x, hx, hv⟩ := Serde.required_eq_some.1 hj
    exact ⟨x, (member _ (by simp) x).1 hx,
      Serde.str_isString (JsonRpcVersion.deserialize_eq_some.1 hv)⟩
  · rintro rfl x hx
    rw [(member _ (by simp) x).2 hx] at hi
    exact (deserializeProbeId_eq_some hi).1 rfl
  · intro k
    constructor
    · rintro rfl
      obtain ⟨-, h⟩ | ⟨x, hx, hid⟩ := Serde.default_eq_some.1 hi
      · cases h
      · exact ⟨x, (member _ (by simp) x).1 hx, ((deserializeProbeId_eq_some hid).2 k).1 rfl⟩
    · rintro ⟨x, hx, hk⟩
      rw [(member _ (by simp) x).2 hx] at hi
      exact ((deserializeProbeId_eq_some hi).2 k).2 hk
  · rintro m rfl
    obtain ⟨x, hx, -, hs⟩ := Serde.optional_eq_some.1 hm
    exact ⟨x, (member _ (by simp) x).1 hx, Serde.str_isString hs⟩
  · rintro r rfl
    obtain ⟨-, h⟩ | ⟨x, hx, hr⟩ := Serde.default_eq_some.1 hr
    · cases h
    · obtain ⟨r', hr', h⟩ := Option.map_eq_some_iff.1 hr
      cases h
      exact ⟨x, (member _ (by simp) x).1 hx, Serde.rawValue_json hr'⟩
  · rintro rfl x hx
    rw [(member _ (by simp) x).2 hx] at hr
    obtain ⟨r', -, h⟩ := Option.map_eq_some_iff.1 hr
    cases h
  · rintro e rfl
    obtain ⟨x, hx, -, hd⟩ := Serde.optional_eq_some.1 he
    refine ⟨x, fun y => ?_, hd⟩
    rw [← member _ (by simp) y, hx, Option.some.injEq, eq_comm]
  · rintro rfl x hx
    exact Serde.optional_eq_none.1 he x ((member _ (by simp) x).2 hx)

theorem Probe.deserialize_isStructured {J : SerdeJson} {level : Nat} {l : Located} {probe : Probe}
    (h : Probe.deserialize J level l = some probe) : l.value.isObject = true ∨
    l.value.isArray = true := by
  obtain ⟨f, hf, -⟩ := Probe.deserialize_eq_some.1 h
  exact Serde.struct_isStructured hf

theorem ProbeError.deserialize_isStructured {x : Located} {e : ProbeError}
    (h : ProbeError.deserialize x = some e) : x.value.isObject = true ∨ x.value.isArray = true := by
  obtain ⟨f, hf, -⟩ := ProbeError.deserialize_eq_some.1 h
  exact Serde.struct_isStructured hf

/-! ## Messages -/

theorem ProbeId.value_eq_some {p : ProbeId} {id : RequestId} : p.value = some id ↔
    p = .Value id := by
  cases p <;> simp [ProbeId.value]

/-- An object read as a response is one unless its `error` is an array. -/
theorem Probe.Of.isItem_iff {l : Located} {probe : Probe} {item : JsonRpcBatchResponse}
    (hp : probe.Of l) (h : probeAsResponse probe = some (.ok item)) :
    IsItem l item ↔ ∀ x, l.HasMember "error" x → x.value.isArray = false := by
  rcases probeAsResponse_eq_ok.1 h with ⟨e, he, rfl⟩ | ⟨he, r, id, hr, hid, rfl⟩
  · obtain ⟨x, hx, hd⟩ := hp.error e he
    constructor
    · rintro ⟨-, ⟨y, hy, ⟨c, hc, -⟩, -⟩, -⟩ z hz
      obtain rfl := (hx y).1 hy
      obtain rfl := (hx z).1 hz
      exact Value.isArray_of_isObject hc.isObject
    · intro harr
      have hmem := (hx x).2 rfl
      have hobj : x.value.isObject = true := by
        rcases ProbeError.deserialize_isStructured hd with h | h
        · exact h
        · rw [harr x hmem] at h; cases h
      exact ⟨hp.version, ⟨x, hmem, ProbeError.deserialize_members hd hobj⟩,
        fun id => ProbeId.value_eq_some.trans (hp.id id)⟩
  · have hnull := hp.noError he
    constructor
    · intro _ x hx
      rw [hnull x hx]; rfl
    · intro _
      exact ⟨hp.version, hp.result r hr, (hp.id id).1 hid, hnull⟩

theorem IsItem.version {l : Located} {item : JsonRpcBatchResponse}
    (h : IsItem l item) : HasVersion l := by
  cases item with
  | Response r => exact IsResponse.version h
  | ErrorResponse e => exact IsErrorResponse.version h

theorem HasVersion.isObject {l : Located} (h : HasVersion l) : l.value.isObject = true := by
  obtain ⟨x, hx, -⟩ := h
  exact hx.isObject

/-- An element of a batch is what it was decoded to unless it, or its `error`, is an array. -/
theorem DecodesItem.isItem_iff {J : SerdeJson} {l : Located} {item : JsonRpcBatchResponse}
    (h : DecodesItem J l item) : IsItem l item ↔ FilledByKey l := by
  obtain ⟨probe, hprobe, hitem⟩ := h
  have hiff (hl : l.value.isObject = true) :=
    (Probe.of_deserialize hprobe hl).isItem_iff (processBatchItem_eq_ok.1 hitem)
  constructor
  · intro h
    exact ⟨h.version.isObject, (hiff h.version.isObject).1 h⟩
  · rintro ⟨hl, herr⟩
    exact (hiff hl).2 herr

theorem forall₂_isItem_iff {J : SerdeJson} {es : List Located} {items : List JsonRpcBatchResponse}
    (h : List.Forall₂ (DecodesItem J) es items) :
    List.Forall₂ IsItem es items ↔ ∀ l ∈ es, FilledByKey l := by
  induction h with
  | nil => simp
  | cons hitem _ ih => simp [hitem.isItem_iff, ih]

/-- A message on its own is an object already, so only its `error` may be an array. -/
theorem processProbe_isMessage_iff {t : Text} {probe : Probe} {msg : JsonRpcIncoming}
    (hp : probe.Of t.root) (h : processProbe probe = .ok msg) :
    IsMessage t msg ↔ ∀ x, t.root.HasMember "error" x → x.value.isArray = false := by
  rcases processProbe_eq_ok.1 h with ⟨item, hitem, rfl⟩ | ⟨hnone, method, hm, hid, rfl⟩
  · have hiff := hp.isItem_iff hitem
    cases item <;> exact hiff
  · obtain ⟨he, hr⟩ := probeAsResponse_eq_none.1 hnone
    constructor
    · intro _ x hx
      rw [hp.noError he x hx]; rfl
    · intro _
      exact ⟨hp.version, hp.method method hm, hp.absent hid, hp.noResult hr, hp.noError he⟩

/-- An accepted text is a text of the message it is decoded to unless part of it is filled by
position. -/
theorem isMessage_iff {J : SerdeJson} {t : Text} {msg : JsonRpcIncoming}
    (h : JsonRpcIncoming.tryFromBytes J t.render = .ok msg) : IsMessage t msg ↔
    AllFilledByKey t := by
  rcases JsonRpcIncoming.tryFromBytes_eq_ok.1 h with
    ⟨-, t', es, items, ht, hes, hitems, rfl⟩ | ⟨hbatch, t', probe, ht, hprobe, hmsg⟩
  all_goals
    rw [read_render] at ht
    obtain rfl := Option.some.inj ht
  · simp only [IsMessage, AllFilledByKey, hes, Option.some.injEq, exists_eq_left']
    exact forall₂_isItem_iff hitems
  · have harr : t.root.value.isArray = false := by rw [isBatch_render] at hbatch; exact hbatch
    have hobj : t.root.value.isObject = true := by
      rcases Probe.deserialize_isStructured hprobe with h | h
      · exact h
      · rw [harr] at h; cases h
    have hnone : t.root.elements = none := by
      rw [← Option.isNone_iff_eq_none, ← Option.not_isSome, Located.elements_isSome, harr]; rfl
    simp only [AllFilledByKey, hnone, FilledByKey, hobj, true_and]
    exact processProbe_isMessage_iff (Probe.of_deserialize hprobe hobj) hmsg

/-- **What is accepted is JSON, and says what it is decoded to just when no batch item and no
`error` is written as an array.** -/
theorem soundly_decoded_iff {J : SerdeJson} {input : Input} {msg : JsonRpcIncoming}
    (h : JsonRpcIncoming.tryFrom J input = .ok msg) :
    ∃ t : Text, t.render = input.text ∧ (IsMessage t msg ↔ AllFilledByKey t) := by
  rw [JsonRpcIncoming.tryFrom_text] at h
  have hread : ∃ t, Json.read input.text = some t := by
    rcases JsonRpcIncoming.tryFromBytes_eq_ok.1 h with ⟨-, t, _, _, ht, -⟩ | ⟨-, t, _, ht, -⟩
    all_goals exact ⟨t, ht⟩
  obtain ⟨t, ht⟩ := hread
  have hs := read_eq_some_iff.1 ht
  exact ⟨t, hs, isMessage_iff (hs ▸ h)⟩

/-- A plain reply says what it is decoded to. -/
theorem soundly_decoded_iff_reply : ∃ t : Text,
    t.render = bytesOf "\x7b\"jsonrpc\":\"2.0\",\"id\":1,\"result\":true\x7d" ∧
      (IsMessage t (.Response ⟨{}, ⟨1⟩, ⟨33, ⟨.bool true, by decide⟩⟩⟩) ↔ AllFilledByKey t) :=
  @soundly_decoded_iff ⟨fun _ => true⟩
    (.str "\x7b\"jsonrpc\":\"2.0\",\"id\":1,\"result\":true\x7d") _
    (by decide +kernel)

/-- A batch whose item lists its fields' values. -/
def arrayItem : String := "[[\"2.0\",1,null,null,true]]"

/-- A reply whose `error` lists its fields' values. -/
def arrayError : String := "\x7b\"jsonrpc\":\"2.0\",\"id\":1,\"error\":[-1,\"x\"]\x7d"

/-- **Both are accepted, the first as a response and the second as an error response.** -/
theorem arrays_are_accepted :
    (∃ msg t, JsonRpcIncoming.tryFrom ⟨fun _ => true⟩ (.str arrayItem) = .ok msg ∧
      t.render = bytesOf arrayItem ∧ ¬ IsMessage t msg) ∧
    (∃ msg t, JsonRpcIncoming.tryFrom ⟨fun _ => true⟩ (.str arrayError) = .ok msg ∧
      t.render = bytesOf arrayError ∧ ¬ IsMessage t msg) := by
  have key : ∀ (s : String) (msg : JsonRpcIncoming),
      JsonRpcIncoming.tryFrom ⟨fun _ => true⟩ (.str s) = .ok msg →
      (Json.read (bytesOf s)).any (fun t => ¬ AllFilledByKey t) = true →
      ∃ msg t, JsonRpcIncoming.tryFrom ⟨fun _ => true⟩ (.str s) = .ok msg ∧
        t.render = bytesOf s ∧ ¬ IsMessage t msg := by
    intro s msg hmsg hany
    obtain ⟨t, ht, hnot⟩ := (Option.any_eq_true _ _).1 hany
    have hs := read_eq_some_iff.1 ht
    refine ⟨msg, t, hmsg, hs, ?_⟩
    rw [JsonRpcIncoming.tryFrom_text, Input.text, ← hs] at hmsg
    rw [isMessage_iff hmsg]
    exact of_decide_eq_true hnot
  exact ⟨key arrayItem (.BatchResponse [.Response ⟨{}, ⟨1⟩, ⟨20, ⟨.bool true, by decide⟩⟩⟩])
      (by decide +kernel) (by decide +kernel),
    key arrayError (.ErrorResponse ⟨{}, some ⟨1⟩, ⟨-1, "x", none⟩⟩) (by decide +kernel)
      (by decide +kernel)⟩

end JsonRpc
