import JsonRpcClient.Core.TryFrom

/-!
# A batch is decoded item by item (decode.rs:240-277)

A message on its own and one in a batch go through different functions, and `batch_itemwise` says
that they are decoded alike: where the message stands only moves what it borrows (`shift`). Alike up
to one limit, that is. `serde_json` counts the brackets of the array too when it counts how deep an
`id` is nested, and an id it just about accepts in a message is too deep for it in a batch.
-/

namespace JsonRpc
open Json

/-! ## The same message elsewhere -/

def ProbeError.shift (d : Nat) (e : ProbeError) : ProbeError :=
  { e with data := e.data.map (RawSpan.shift d) }

def Probe.shift (d : Nat) (probe : Probe) : Probe :=
  { probe with
    params := probe.params.map (RawSpan.shift d)
    result := probe.result.map (RawSpan.shift d)
    error := probe.error.map (ProbeError.shift d) }

def JsonRpcBatchResponse.shift (d : Nat) : JsonRpcBatchResponse → JsonRpcBatchResponse
  | .Response r => .Response { r with result := r.result.shift d }
  | .ErrorResponse e =>
    .ErrorResponse { e with error := { e.error with data := e.error.data.map (RawSpan.shift d) } }

theorem JsonRpcBatchResponse.toIncoming_inj {item item' : JsonRpcBatchResponse}
    (h : item.toIncoming = item'.toIncoming) : item = item' := by
  cases item <;> cases item' <;> cases h <;> rfl

namespace Serde
variable {α : Type} {d : Nat}

theorem required_shift (f : Located → Option α) (x : Option Located) :
    required f (x.map (Located.shift d)) = required (f ∘ Located.shift d) x := by
  cases x <;> rfl

theorem default_shift (a : α) (f : Located → Option α) (x : Option Located) :
    default a f (x.map (Located.shift d)) = default a (f ∘ Located.shift d) x := by
  cases x <;> rfl

/-- An optional field, when what it holds moves along. -/
theorem optional_shift {f : Located → Option α} {g : α → α}
    (hf : ∀ l, f (l.shift d) = (f l).map g) (x : Option Located) :
    default none (option f) (x.map (Located.shift d)) =
      (default none (option f) x).map (Option.map g) := by
  cases x with
  | none => rfl
  | some l =>
    simp only [Option.map_some, default, option, Located.shift_value]
    split
    · rfl
    · rw [hf]; cases f l <;> rfl

end Serde

theorem ProbeError.deserialize_shift (d : Nat) (l : Located) :
    deserialize (l.shift d) = (deserialize l).map (ProbeError.shift d) := by
  unfold deserialize
  rw [Serde.struct_shift]
  cases Serde.struct ["code", "message", "data"] l with
  | none => rfl
  | some f =>
    simp only [Option.map_some, Option.bind_eq_bind, Option.bind_some, Option.pure_def,
      Serde.required_shift, Serde.optional_shift (Serde.rawValue_shift d), Option.map_bind,
      Option.bind_map, Function.comp_def]
    rfl

theorem deserializePresentRaw_shift (d : Nat) (l : Located) :
    deserializePresentRaw (l.shift d) =
      (deserializePresentRaw l).map (Option.map (RawSpan.shift d)) := by
  unfold deserializePresentRaw
  rw [Serde.rawValue_shift, Option.map_map, Option.map_map]
  rfl

theorem Probe.deserialize_shift (J : SerdeJson) (level d : Nat) (l : Located) :
    deserialize J level (l.shift d) = (deserialize J level l).map (Probe.shift d) := by
  unfold deserialize
  rw [Serde.struct_shift]
  cases Serde.struct probeFields l with
  | none => rfl
  | some f =>
    have hresult : Serde.default none deserializePresentRaw ((f "result").map (Located.shift d)) =
        (Serde.default none deserializePresentRaw (f "result")).map
          (Option.map (RawSpan.shift d)) := by
      cases f "result" with
      | none => rfl
      | some x => exact deserializePresentRaw_shift d x
    simp only [Option.map_some, Option.bind_eq_bind, Option.bind_some, Option.pure_def,
      Serde.required_shift, Serde.default_shift, hresult,
      Serde.optional_shift (Serde.rawValue_shift d), Option.map_bind,
      Serde.optional_shift (ProbeError.deserialize_shift d), Option.bind_map, Function.comp_def]
    rfl

theorem probeAsResponse_shift (d : Nat) (probe : Probe) :
    probeAsResponse (probe.shift d) =
      (probeAsResponse probe).map (Except.map (JsonRpcBatchResponse.shift d)) := by
  obtain ⟨jsonrpc, id, method, params, result, error⟩ := probe
  cases error with
  | some e => rfl
  | none =>
    cases result with
    | none => rfl
    | some r => cases id <;> rfl

theorem processBatchItem_shift (d : Nat) (probe : Probe) :
    processBatchItem (probe.shift d) =
      (processBatchItem probe).map (JsonRpcBatchResponse.shift d) := by
  simp only [processBatchItem, probeAsResponse_shift]
  cases probeAsResponse probe <;> rfl

/-! ## One level deeper -/

/-- The object's `id` is nested so deep that one more bracket around it is one too many. -/
def IdTooDeep (l : Located) : Prop :=
  ∃ x, l.HasMember "id" x ∧ Serde.depth x.value = recursionLimit - 2

theorem deserializeProbeId_two {J : SerdeJson} {x : Located} {id : ProbeId} :
    deserializeProbeId J 2 x = some id ↔
      deserializeProbeId J 1 x = some id ∧ Serde.depth x.value ≠ recursionLimit - 2 := by
  obtain ⟨p, v⟩ := x
  have hcontent : Serde.content J 2 v = true ↔
      Serde.content J 1 v = true ∧ Serde.depth v ≠ recursionLimit - 2 := by
    simp only [Serde.content, Bool.and_eq_true, decide_eq_true_eq, and_assoc]
    apply and_congr_right
    intro _
    unfold recursionLimit
    omega
  cases v with
  | null => simp [deserializeProbeId, Serde.depth, recursionLimit]
  | _ => simp only [deserializeProbeId, Option.ite_none_right_eq_some, hcontent]; tauto

theorem Probe.deserialize_two {J : SerdeJson} {l : Located} (hobj : l.value.isObject = true)
    {probe : Probe} :
    deserialize J 2 l = some probe ↔ deserialize J 1 l = some probe ∧ ¬ IdTooDeep l := by
  have hid : ∀ {f : String → Option Located},
      Serde.struct probeFields l = some f →
      (Serde.default .Absent (deserializeProbeId J 2) (f "id") = some probe.id ↔
        Serde.default .Absent (deserializeProbeId J 1) (f "id") = some probe.id ∧
          ¬ IdTooDeep l) := by
    intro f hf
    have hmem : ∀ x, f "id" = some x ↔ l.HasMember "id" x :=
      fun x => Serde.struct_hasMember hf hobj (by simp)
    simp only [IdTooDeep, ← hmem]
    cases f "id" with
    | none => simp [Serde.default]
    | some x => simp [Serde.default, deserializeProbeId_two]
  simp only [deserialize_eq_some]
  constructor
  · rintro ⟨f, hf, hj, hi, hrest⟩
    obtain ⟨hi, hdeep⟩ := (hid hf).1 hi
    exact ⟨⟨f, hf, hj, hi, hrest⟩, hdeep⟩
  · rintro ⟨⟨f, hf, hj, hi, hrest⟩, hdeep⟩
    exact ⟨f, hf, hj, (hid hf).2 ⟨hi, hdeep⟩, hrest⟩

/-! ## An object alone and in an array -/

/-- An object on its own is decoded to a response just when its probe makes a batch item. -/
theorem decodes_alone_iff {J : SerdeJson} {v : Value} (hobj : v.isObject = true)
    {item : JsonRpcBatchResponse} :
    JsonRpcIncoming.tryFromBytes J v.render = .ok item.toIncoming ↔
      ∃ probe, Probe.deserialize J 1 ⟨0, v⟩ = some probe ∧ processBatchItem probe = .ok item := by
  have hrender : v.render = Text.render ⟨[], v, []⟩ := by simp [Text.render]
  have hbatch : isBatch v.render = false := by
    rw [hrender, isBatch_render]; exact Value.isArray_of_isObject hobj
  have hread : Json.read v.render = some ⟨[], v, []⟩ := by rw [hrender]; exact read_render _
  rw [JsonRpcIncoming.tryFromBytes_eq_ok]
  constructor
  · rintro (⟨h, -⟩ | ⟨-, t, probe, ht, hprobe, hmsg⟩)
    · rw [hbatch] at h; cases h
    · rw [hread] at ht
      cases ht
      refine ⟨probe, hprobe, processBatchItem_eq_ok.2 ?_⟩
      rcases processProbe_eq_ok.1 hmsg with ⟨item', hitem, heq⟩ | ⟨-, method, -, -, heq⟩
      · rwa [JsonRpcBatchResponse.toIncoming_inj heq]
      · cases item <;> cases heq
  · rintro ⟨probe, hprobe, hitem⟩
    exact .inr ⟨hbatch, _, probe, hread, hprobe,
      processProbe_eq_ok.2 (.inl ⟨item, processBatchItem_eq_ok.1 hitem, rfl⟩)⟩

theorem decodesItem_iff {J : SerdeJson} {d : Nat} {v : Value} (hobj : v.isObject = true)
    {item : JsonRpcBatchResponse} :
    DecodesItem J ⟨d, v⟩ item ↔ ¬ IdTooDeep ⟨0, v⟩ ∧
      ∃ alone : JsonRpcBatchResponse,
        JsonRpcIncoming.tryFromBytes J v.render = .ok alone.toIncoming ∧
        item = alone.shift d := by
  have hprobe : ∀ probe, Probe.deserialize J 2 ⟨d, v⟩ = some probe ↔
      ∃ q, (Probe.deserialize J 1 ⟨0, v⟩ = some q ∧ ¬ IdTooDeep ⟨0, v⟩) ∧ q.shift d = probe := by
    intro probe
    rw [show (⟨d, v⟩ : Located) = Located.shift d ⟨0, v⟩ from rfl, Probe.deserialize_shift,
      Option.map_eq_some_iff]
    simp only [Probe.deserialize_two (show (⟨0, v⟩ : Located).value.isObject = true from hobj)]
  simp only [DecodesItem, hprobe, decodes_alone_iff hobj]
  constructor
  · rintro ⟨_, ⟨q, ⟨hq, hdeep⟩, rfl⟩, hitem⟩
    rw [processBatchItem_shift] at hitem
    cases hp : processBatchItem q with
    | error e => rw [hp] at hitem; cases hitem
    | ok alone =>
      rw [hp] at hitem
      cases hitem
      exact ⟨hdeep, alone, ⟨q, hq, hp⟩, rfl⟩
  · rintro ⟨hdeep, alone, ⟨q, hq, hp⟩, rfl⟩
    refine ⟨q.shift d, ⟨q, ⟨hq, hdeep⟩, rfl⟩, ?_⟩
    rw [processBatchItem_shift, hp]; rfl

/-! ## The text of an array -/

/-- `[p1,...,pn]`: the values `ps`, each with its whitespace around it. -/
def arrayText (pre ws : Ws) (ps : List Text) (post : Ws) : Bytes :=
  raw pre ++ 0x5b :: ((if ps = [] then raw ws else [0x2c].intercalate (ps.map Text.render)) ++
    0x5d :: raw post)

/-- Where the values start when the bracket or comma before them is at `p`. -/
def itemStarts (p : Nat) : List Text → List Nat
  | [] => []
  | t :: ts => (p + 1 + t.pre.length) :: itemStarts (p + 1 + t.render.length) ts

theorem length_itemStarts : ∀ (p : Nat) (ts : List Text), (itemStarts p ts).length = ts.length
  | _, [] => rfl
  | p, t :: ts => by simp [itemStarts, length_itemStarts _ ts]

def elemsOf : List Text → Elems
  | [] => .nil
  | t :: ts => .cons t.pre t.value t.post (elemsOf ts)

def arrayOf (ws : Ws) : List Text → Value
  | [] => .arrNil ws
  | t :: ts => .arr t.pre t.value t.post (elemsOf ts)

theorem elemsOf_render : ∀ ts : List Text,
    (elemsOf ts).render = (ts.map fun t => 0x2c :: t.render).flatten ++ [0x5d]
  | [] => rfl
  | t :: ts => by
    simp [elemsOf, Elems.render, elemsOf_render ts, Text.render]

theorem intercalate_cons {α : Type} (c : α) (l : List α) : ∀ ls : List (List α),
    [c].intercalate (l :: ls) = l ++ (ls.map (c :: ·)).flatten
  | [] => by simp [List.intercalate]
  | l' :: ls => by
    have ih := intercalate_cons c l' ls
    simp only [List.intercalate, List.intersperse_cons_cons, List.flatten_cons] at ih ⊢
    simp [ih]

theorem arrayText_eq (pre ws : Ws) (ps : List Text) (post : Ws) :
    arrayText pre ws ps post = Text.render ⟨pre, arrayOf ws ps, post⟩ := by
  cases ps with
  | nil => simp [arrayText, Text.render, arrayOf, Value.render]
  | cons t ts =>
    simp [arrayText, Text.render, arrayOf, Value.render, elemsOf_render, intercalate_cons,
      Function.comp_def]

theorem elemsOf_located : ∀ (p : Nat) (ts : List Text),
    (elemsOf ts).located p = List.zipWith (fun start t => ⟨start, t.value⟩) (itemStarts p ts) ts
  | _, [] => rfl
  | p, t :: ts => by
    have hnext : p + 1 + t.pre.length + t.value.render.length + t.post.length =
        p + 1 + t.render.length := by simp [Text.render]; omega
    simp only [elemsOf, Elems.located, itemStarts, List.zipWith_cons_cons, hnext,
      elemsOf_located _ ts]

theorem arrayOf_elements (p : Nat) (ws : Ws) (ps : List Text) :
    (⟨p, arrayOf ws ps⟩ : Located).elements =
      some (List.zipWith (fun start t => ⟨start, t.value⟩) (itemStarts p ps) ps) := by
  cases ps with
  | nil => rfl
  | cons t ts => exact congrArg some (elemsOf_located p (t :: ts))

/-! ## Itemwise decoding -/

/-- The elements of the array are decoded one by one as they are alone. -/
theorem forall₂_decodesItem_iff {J : SerdeJson} : ∀ {ps : List Text} {p : Nat}
    {items : List JsonRpcBatchResponse}, (∀ t ∈ ps, t.value.isObject = true) →
    (List.Forall₂ (DecodesItem J)
        (List.zipWith (fun start (t : Text) => ⟨start, t.value⟩) (itemStarts p ps) ps) items ↔
      (∀ t ∈ ps, ¬ IdTooDeep ⟨0, t.value⟩) ∧ ∃ alone : List JsonRpcBatchResponse,
        List.Forall₂ (fun t item => JsonRpcIncoming.tryFromBytes J t.value.render =
          .ok item.toIncoming) ps alone ∧
        items = List.zipWith JsonRpcBatchResponse.shift (itemStarts p ps) alone)
  | [], p, items, _ => by
    simp only [itemStarts, List.zipWith_nil_left, List.forall₂_nil_left_iff, List.not_mem_nil]
    simp
  | t :: ps, p, items, hobj => by
    have ih := @forall₂_decodesItem_iff J ps (p + 1 + t.render.length)
    simp only [itemStarts, List.zipWith_cons_cons, List.forall₂_cons_left_iff,
      decodesItem_iff (hobj t List.mem_cons_self),
      ih fun x hx => hobj x (List.mem_cons_of_mem t hx), List.forall_mem_cons]
    constructor
    · rintro ⟨_, _, ⟨hdeep, a, ha, rfl⟩, ⟨hdeeps, as, has, rfl⟩, rfl⟩
      exact ⟨⟨hdeep, hdeeps⟩, a :: as, ⟨a, as, ha, has, rfl⟩, rfl⟩
    · rintro ⟨⟨hdeep, hdeeps⟩, _, ⟨a, as, ha, has, rfl⟩, rfl⟩
      exact ⟨_, _, ⟨hdeep, a, ha, rfl⟩, ⟨hdeeps, as, has, rfl⟩, rfl⟩

theorem decodes_array_iff {J : SerdeJson} {pre ws post : Ws} {ps : List Text}
    {msg : JsonRpcIncoming} :
    JsonRpcIncoming.tryFromBytes J (arrayText pre ws ps post) = .ok msg ↔
      ∃ items, List.Forall₂ (DecodesItem J) (List.zipWith (fun start (t : Text) => ⟨start, t.value⟩)
        (itemStarts pre.length ps) ps) items ∧ msg = .BatchResponse items := by
  have harr : (arrayOf ws ps).isArray = true := by cases ps <;> rfl
  have hbatch : isBatch (arrayText pre ws ps post) = true := by
    rw [arrayText_eq, isBatch_render]; exact harr
  have hread : Json.read (arrayText pre ws ps post) = some ⟨pre, arrayOf ws ps, post⟩ := by
    rw [arrayText_eq]; exact read_render _
  rw [JsonRpcIncoming.tryFromBytes_eq_ok]
  constructor
  · rintro (⟨-, t, es, items, ht, hes, hitems, rfl⟩ | ⟨h, -⟩)
    · rw [hread] at ht
      cases ht
      rw [Text.root, arrayOf_elements] at hes
      cases hes
      exact ⟨items, hitems, rfl⟩
    · rw [hbatch] at h; cases h
  · rintro ⟨items, hitems, rfl⟩
    exact .inl ⟨hbatch, _, _, items, hread, arrayOf_elements _ _ _, hitems, rfl⟩

/-- **Batch decoding is itemwise**, an id apart that is nested too deep inside of an array: the
array is decoded to a batch just when each of its objects is decoded to a response alone, and then
to these responses; one notification or one error among them makes it an error. -/
theorem batch_itemwise (J : SerdeJson) (pre ws post : Ws) (ps : List Text)
    (hobj : ∀ t ∈ ps, t.value.isObject = true) :
    ((∃ items, JsonRpcIncoming.tryFromBytes J (arrayText pre ws ps post) =
        .ok (.BatchResponse items)) ↔
      ∀ t ∈ ps, (∃ item : JsonRpcBatchResponse,
        JsonRpcIncoming.tryFromBytes J t.value.render = .ok item.toIncoming) ∧
          ¬ IdTooDeep ⟨0, t.value⟩) ∧
    (∀ items, JsonRpcIncoming.tryFromBytes J (arrayText pre ws ps post) =
        .ok (.BatchResponse items) →
      items.length = ps.length ∧ ∃ alone : List JsonRpcBatchResponse,
        List.Forall₂ (fun t item => JsonRpcIncoming.tryFromBytes J t.value.render =
          .ok item.toIncoming) ps alone ∧
        items = List.zipWith JsonRpcBatchResponse.shift (itemStarts pre.length ps) alone) ∧
    ((∃ t ∈ ps, (∃ n, JsonRpcIncoming.tryFromBytes J t.value.render = .ok (.Notification n)) ∨
        ∃ e, JsonRpcIncoming.tryFromBytes J t.value.render = .error e) →
      ∃ e, JsonRpcIncoming.tryFromBytes J (arrayText pre ws ps post) = .error e) := by
  have hitems : ∀ items, JsonRpcIncoming.tryFromBytes J (arrayText pre ws ps post) =
      .ok (.BatchResponse items) ↔ _ := fun items =>
    decodes_array_iff.trans (by simpa using forall₂_decodesItem_iff hobj)
  have hok : ∀ items, JsonRpcIncoming.tryFromBytes J (arrayText pre ws ps post) =
      .ok (.BatchResponse items) → ∀ t ∈ ps, ∃ item : JsonRpcBatchResponse,
        JsonRpcIncoming.tryFromBytes J t.value.render = .ok item.toIncoming := by
    intro items h t ht
    obtain ⟨-, alone, halone, -⟩ := (hitems items).1 h
    obtain ⟨item, -, hitem⟩ := Traverse.mem_of_forall₂ halone.flip ht
    exact ⟨item, hitem⟩
  refine ⟨⟨?_, ?_⟩, ?_, ?_⟩
  · rintro ⟨items, h⟩ t ht
    exact ⟨hok items h t ht, ((hitems items).1 h).1 t ht⟩
  · intro h
    obtain ⟨alone, halone⟩ := Traverse.exists_forall₂ fun t ht => (h t ht).1
    exact ⟨_, (hitems _).2 ⟨fun t ht => (h t ht).2, alone, halone, rfl⟩⟩
  · intro items h
    obtain ⟨-, alone, halone, rfl⟩ := (hitems items).1 h
    refine ⟨?_, alone, halone, rfl⟩
    rw [List.length_zipWith, length_itemStarts, ← halone.length_eq, Nat.min_self]
  · rintro ⟨t, ht, hbad⟩
    cases hdec : JsonRpcIncoming.tryFromBytes J (arrayText pre ws ps post) with
    | error e => exact ⟨e, rfl⟩
    | ok msg =>
      obtain ⟨items, -, rfl⟩ := decodes_array_iff.1 hdec
      obtain ⟨item, hitem⟩ := hok items hdec t ht
      rcases hbad with ⟨n, hn⟩ | ⟨e, he⟩
      · rw [hitem] at hn
        cases item <;> cases hn
      · rw [hitem] at he; cases he

/-- A response and an error response, with spaces around the first. -/
def oneOfEach : List Text :=
  [" \x7b\"jsonrpc\":\"2.0\",\"id\":1,\"result\":null\x7d ",
    "\x7b\"jsonrpc\":\"2.0\",\"id\":[],\"error\":\x7b\"code\":1,\"message\":\"m\"\x7d\x7d"].filterMap
      fun s => Json.read (bytesOf s)

theorem batch_itemwise_one_of_each :
    (∃ items, JsonRpcIncoming.tryFromBytes ⟨fun _ => true⟩ (arrayText [] [] oneOfEach []) =
        .ok (.BatchResponse items)) ↔
      ∀ t ∈ oneOfEach, (∃ item : JsonRpcBatchResponse,
        JsonRpcIncoming.tryFromBytes ⟨fun _ => true⟩ t.value.render = .ok item.toIncoming) ∧
          ¬ IdTooDeep ⟨0, t.value⟩ :=
  (batch_itemwise ⟨fun _ => true⟩ [] [] [] oneOfEach (by decide +kernel)).1

/-- An error whose `id` is 126 arrays inside of each other. -/
def deepError : Bytes :=
  bytesOf "\x7b\"jsonrpc\":\"2.0\",\"id\":" ++ List.replicate 126 0x5b ++ List.replicate 126 0x5d ++
    bytesOf ",\"error\":\x7b\"code\":1,\"message\":\"m\"\x7d\x7d"

/-- **The array of one object that is decoded alone is refused.** -/
theorem deep_id_only_alone :
    (Json.read deepError).any (fun t => t.value.isObject) = true ∧
    (∃ e, JsonRpcIncoming.tryFromBytes ⟨fun _ => true⟩ deepError = .ok (.ErrorResponse e)) ∧
    ∃ e, JsonRpcIncoming.tryFromBytes ⟨fun _ => true⟩ (0x5b :: deepError ++ [0x5d]) = .error e :=
  ⟨by decide +kernel, ⟨⟨{}, none, ⟨1, "m", none⟩⟩, by decide +kernel⟩, .SerdeError,
    by decide +kernel⟩

end JsonRpc
