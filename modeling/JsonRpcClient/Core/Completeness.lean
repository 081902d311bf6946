import JsonRpcClient.Core.Soundness

/-!
# Which texts of a message are accepted

`Inbound` is what this client is meant to accept, and `Denotes` relates a message to each of its
texts: any white space, any order of the members, any escapes. A value inside a message is kept as
it is spelled.

The decoder borrows `jsonrpc`, `method` and an error's `message` as `&str`, which only works for a
literal with no escape sequence, and buffers an `id` to look at it. Main theorem
**decoded_iff_readable**: a text of a message is decoded to it just when these members can be read
so.
-/

namespace JsonRpc
open Json

/-! ## Messages and their texts -/

/-- An answer to one call. -/
inductive Answer where
  | success (id : UInt64) (result : Value)
  | failure (id : Option Value) (code : Int64) (message : String) (data : Option Value)

inductive Inbound where
  | answer (r : Answer)
  | notification (method : String) (params : Option { v : Value // v.isStructured = true })
  | batch (rs : List Answer)

def versionMember : String × (Located → Prop) := ("jsonrpc", fun x => x.IsString JSONRPC_VERSION)

/-- A member that may be absent. -/
def spelledMember (n : String) (v : Option Value) : List (String × (Located → Prop)) :=
  v.toList.map fun v => (n, fun x => x.value = v)

def errorMembers (code : Int64) (message : String) (data : Option Value) :
    List (String × (Located → Prop)) :=
  ("code", fun x => x.IsInt code.toInt) :: ("message", fun x => x.IsString message) ::
    spelledMember "data" data

def Answer.members : Answer → List (String × (Located → Prop))
  | .success id result =>
    [versionMember, ("id", fun x => x.IsNat id.toNat), ("result", fun x => x.value = result)]
  | .failure id code message data =>
    versionMember :: ("error", fun x => x.HasMembers (errorMembers code message data)) ::
      spelledMember "id" id

def notificationMembers (method : String) (params : Option Value) :
    List (String × (Located → Prop)) :=
  versionMember :: ("method", fun x => x.IsString method) :: spelledMember "params" params

/-- `t` is a text of the message. -/
def Denotes (t : Text) : Inbound → Prop
  | .answer r => t.root.HasMembers r.members
  | .notification method params =>
    t.root.HasMembers (notificationMembers method (params.map Subtype.val))
  | .batch rs =>
    ∃ es, t.root.elements = some es ∧ List.Forall₂ (fun l r => l.HasMembers r.members) es rs

/-- The decoded item is the answer. An `id` this client cannot have issued is reported as none, a
`null` `data` as absent. -/
def Answer.DecodedTo : Answer → JsonRpcBatchResponse → Prop
  | .success id result, .Response r => r.id = ⟨id⟩ ∧ r.result.raw.json = result
  | .failure id code message data, .ErrorResponse e =>
    e.id = id.bind (fun v => (Serde.u64 v).map RequestId.mk) ∧ e.error.code = code.toInt ∧
      e.error.message = message ∧ e.error.data.map (·.raw.json) = data.filter (· ≠ .null)
  | _, _ => False

/-- The decoded message is the one sent. -/
def Inbound.DecodedTo : Inbound → JsonRpcIncoming → Prop
  | .answer r, msg => ∃ item, r.DecodedTo item ∧ msg = item.toIncoming
  | .notification method params, msg => ∃ n, msg = .Notification n ∧ n.method = method ∧
      n.params.map (·.raw.json) = params.map Subtype.val
  | .batch rs, msg => ∃ items, msg = .BatchResponse items ∧ List.Forall₂ Answer.DecodedTo rs items

/-! ## What the decoder can read -/

/-- No escape sequence, if this is a string. -/
def Unescaped (l : Located) : Prop := ∀ s, l.value = .str s → s.unescaped = true

/-- Not `-0`, which is read as a float. -/
def NotNegativeZero (l : Located) : Prop := ∀ n, l.value = .num n → n.neg = true → n.int? ≠ some 0

structure ReadableError (l : Located) : Prop where
  code : ∀ x, l.HasMember "code" x → NotNegativeZero x
  message : ∀ x, l.HasMember "message" x → Unescaped x

/-- The members that are borrowed as strings are written without escapes, `code` is written as an
integer is, and an `id` can be buffered inside `level` arrays and objects. -/
structure Readable (J : SerdeJson) (level : Nat) (l : Located) : Prop where
  jsonrpc : ∀ x, l.HasMember "jsonrpc" x → Unescaped x
  method : ∀ x, l.HasMember "method" x → Unescaped x
  id : ∀ x, l.HasMember "id" x → x.value = .null ∨ Serde.content J level x.value = true
  error : ∀ x, l.HasMember "error" x → ReadableError x

def AllReadable (J : SerdeJson) (t : Text) : Prop :=
  match t.root.elements with
  | some es => ∀ l ∈ es, Readable J 2 l
  | none => Readable J 1 t.root

/-! ## Whatever is accepted was readable -/

theorem unescaped_of_str {l : Located} {m : String} (h : Serde.str l = some m) : Unescaped l := by
  obtain ⟨s, hs, hu, -⟩ := Serde.str_eq_some.1 h
  intro s' hs'
  rw [hs] at hs'
  cases hs'; exact hu

theorem notNegativeZero_of_i64 {l : Located} {k : Int} (h : Serde.i64 l = some k) :
    NotNegativeZero l := by
  obtain ⟨n, hn, hk⟩ := Serde.i64_eq_some.1 h
  obtain ⟨hint, -, -, hneg⟩ := Serde.numI64_eq_some.1 hk
  intro n' hn' hneg' h0
  rw [hn] at hn'
  cases hn'
  rw [hint, Option.some.injEq] at h0
  exact hneg hneg' h0

theorem ProbeError.readable {l : Located} {e : ProbeError} (h : ProbeError.deserialize l = some e) :
    ReadableError l := by
  obtain ⟨f, hf, hc, hm, -⟩ := ProbeError.deserialize_eq_some.1 h
  constructor
  · intro x hx
    rw [Serde.struct_field hf (by simp) hx] at hc
    exact notNegativeZero_of_i64 hc
  · intro x hx
    rw [Serde.struct_field hf (by simp) hx] at hm
    exact unescaped_of_str hm

theorem unescaped_of_null {l : Located} (h : l.value = .null) : Unescaped l := by
  intro s hs
  rw [h] at hs; cases hs

theorem readableError_of_null {l : Located} (h : l.value = .null) : ReadableError l := by
  have hno : ∀ n x, ¬ l.HasMember n x := by
    intro n x hx
    have hobj := hx.isObject
    rw [h] at hobj; cases hobj
  exact ⟨fun x hx => absurd hx (hno _ x), fun x hx => absurd hx (hno _ x)⟩

/-- An optional field that was read is `null` or has the value it was read as. -/
theorem Serde.option_some {α : Type} {f : Located → Option α} {l : Located} {o : Option α}
    (h : Serde.option f l = some o) : l.value = .null ∨ ∃ a, f l = some a := by
  unfold Serde.option at h
  split at h
  · rename_i hn; exact .inl hn
  · obtain ⟨a, ha, -⟩ := Option.map_eq_some_iff.1 h
    exact .inr ⟨a, ha⟩

theorem deserializeProbeId_readable {J : SerdeJson} {level : Nat} {l : Located} {p : ProbeId}
    (h : deserializeProbeId J level l = some p) : l.value = .null ∨
    Serde.content J level l.value = true := by
  unfold deserializeProbeId at h
  split at h
  · rename_i hn; exact .inl hn
  · split at h
    · rename_i hc; exact .inr hc
    · cases h

theorem Probe.readable {J : SerdeJson} {level : Nat} {l : Located} {probe : Probe}
    (h : Probe.deserialize J level l = some probe) : Readable J level l := by
  obtain ⟨f, hf, hj, hi, hm, -, -, he⟩ := Probe.deserialize_eq_some.1 h
  constructor
  · intro x hx
    rw [Serde.struct_field hf (by simp) hx] at hj
    exact unescaped_of_str (JsonRpcVersion.deserialize_eq_some.1 hj)
  · intro x hx
    rw [Serde.struct_field hf (by simp) hx] at hm
    rcases Serde.option_some hm with h | ⟨m, h⟩
    · exact unescaped_of_null h
    · exact unescaped_of_str h
  · intro x hx
    rw [Serde.struct_field hf (by simp) hx] at hi
    exact deserializeProbeId_readable hi
  · intro x hx
    rw [Serde.struct_field hf (by simp) hx] at he
    rcases Serde.option_some he with h | ⟨e, h⟩
    · exact readableError_of_null h
    · exact ProbeError.readable h

theorem allReadable {J : SerdeJson} {t : Text} {msg : JsonRpcIncoming}
    (h : JsonRpcIncoming.tryFromBytes J t.render = .ok msg) : AllReadable J t := by
  rcases JsonRpcIncoming.tryFromBytes_eq_ok.1 h with
    ⟨-, t', es, items, ht, hes, hitems, -⟩ | ⟨hbatch, t', probe, ht, hprobe, -⟩
  all_goals
    rw [read_render] at ht
    obtain rfl := Option.some.inj ht
  · simp only [AllReadable, hes]
    intro l hl
    obtain ⟨item, -, probe, hprobe, -⟩ := Traverse.mem_of_forall₂ hitems.flip hl
    exact Probe.readable hprobe
  · have hnone : t.root.elements = none := by
      rw [← Option.isNone_iff_eq_none, ← Option.not_isSome, Located.elements_isSome]
      rw [isBatch_render] at hbatch
      exact congrArg not hbatch
    simp only [AllReadable, hnone]
    exact Probe.readable hprobe

/-! ## The fields of a struct filled from a listed object -/

section
variable {l : Located} {ms : List (String × (Located → Prop))} {names : List String}
  {f : String → Option Located}

/-- A member that may be absent, as the field it fills. -/
theorem field_spelled {n : String} {v : Option Value} (h : l.HasMembers ms)
    (hf : Serde.struct names l = some f) (hn : n ∈ names) (hv : ∀ m ∈ spelledMember n v, m ∈ ms)
    (hno : v = none → n ∉ ms.map Prod.fst) : (f n).map Located.value = v := by
  cases v with
  | none => rw [field_absent h hf hn (hno rfl)]; rfl
  | some v =>
    obtain ⟨x, hx, -, hxv⟩ :=
      field_of_mem h hf (hv (n, fun x => x.value = v) (by simp [spelledMember])) hn
    rw [hx]; exact congrArg some hxv

end

/-! ## What is readable is read -/

theorem str_of_unescaped {l : Located} {m : String} (h : l.IsString m) (hu : Unescaped l) :
    Serde.str l = some m := by
  obtain ⟨s, hs, hm⟩ := h
  exact Serde.str_eq_some.2 ⟨s, hs, hu s hs, hm⟩

theorem i64_of_notNegativeZero {l : Located} {k : Int64} (h : l.IsInt k.toInt)
    (hz : NotNegativeZero l) :
    Serde.i64 l = some k.toInt := by
  obtain ⟨n, hn, hk⟩ := h
  refine Serde.i64_eq_some.2 ⟨n, hn, Serde.numI64_eq_some.2 ⟨hk, k.le_toInt, k.toInt_lt, ?_⟩⟩
  intro hneg h0
  exact hz n hn hneg (h0 ▸ hk)

theorem rawValue_of_isUtf8 {l : Located} (h : isUtf8 l.value.render = true) :
    ∃ r, Serde.rawValue l = some r ∧ r.raw.json = l.value :=
  ⟨⟨l.start, ⟨l.value, h⟩⟩, by simp [Serde.rawValue, h]⟩

theorem optional_rawValue {x : Option Located}
    (h : ∀ l, x = some l → isUtf8 l.value.render = true) :
    ∃ o, Serde.default none (Serde.option Serde.rawValue) x = some o ∧
      o.map (·.raw.json) = (x.map Located.value).filter (· ≠ .null) := by
  cases x with
  | none => exact ⟨none, rfl, rfl⟩
  | some l =>
    by_cases hn : l.value = .null
    · refine ⟨none, Serde.optional_eq_none.2 ?_, by simp [Option.filter, hn]⟩
      rintro _ ⟨⟩; exact hn
    · obtain ⟨r, hr, hj⟩ := rawValue_of_isUtf8 (h l rfl)
      exact ⟨some r, Serde.optional_eq_some.2 ⟨l, rfl, hn, hr⟩, by simp [Option.filter, hn, hj]⟩

theorem optional_probeId {J : SerdeJson} {level : Nat} {x : Option Located}
    (h : ∀ l, x = some l → l.value = .null ∨ Serde.content J level l.value = true) :
    ∃ p, Serde.default .Absent (deserializeProbeId J level) x = some p ∧
      p.value = (x.map Located.value).bind fun v => (Serde.u64 v).map RequestId.mk := by
  cases x with
  | none => exact ⟨.Absent, rfl, rfl⟩
  | some l =>
    simp only [Serde.default, Option.map_some, Option.bind_some]
    unfold deserializeProbeId
    split
    · rename_i hn
      exact ⟨.Null, rfl, by rw [hn]; rfl⟩
    · rename_i hn
      have hc : Serde.content J level l.value = true := (h l rfl).resolve_left hn
      rw [if_pos hc]
      cases Serde.u64 l.value with
      | none => exact ⟨.Other, rfl, rfl⟩
      | some k => exact ⟨.Value ⟨k⟩, rfl, rfl⟩

theorem Occurs.hasMember {s : Bytes} {l x : Located} {n : String} (h : Occurs s l)
    (hx : l.HasMember n x) :
    Occurs s x := by
  obtain ⟨fs, hfs, f, hf, -, rfl⟩ := hx
  exact h.fields hfs f hf

theorem field_isUtf8 {s : Bytes} {names : List String} {l x : Located} {f : String → Option Located}
    {n : String} (hs : isUtf8 s = true) (hl : Occurs s l) (hf : Serde.struct names l = some f)
    (hx : f n = some x) : isUtf8 x.value.render = true := (Serde.struct_occurs hl hf hx).isUtf8 hs

/-- The `error` of a failure is read when its literals can be. -/
theorem probeError_of_members {s : Bytes} {l : Located} {code : Int64} {message : String}
    {data : Option Value}
    (hs : isUtf8 s = true) (hl : Occurs s l) (h : l.HasMembers (errorMembers code message data))
    (hr : ReadableError l) : ∃ e, ProbeError.deserialize l = some e ∧ e.code = code.toInt ∧
    e.message = message ∧
      e.data.map (·.raw.json) = data.filter (· ≠ .null) := by
  have hnd : ((errorMembers code message data).map Prod.fst).Nodup := by
    cases data <;> simp [errorMembers, spelledMember]
  obtain ⟨f, hf⟩ := struct_of_hasMembers h hnd ["code", "message", "data"]
  obtain ⟨c, hc, hcm, hcode⟩ := field_of_mem h hf (m := ("code", _)) List.mem_cons_self (by simp)
  obtain ⟨m, hm, hmm, hmsg⟩ := field_of_mem h hf (m := ("message", _))
    (List.mem_cons_of_mem _ List.mem_cons_self) (by simp)
  have hdata : (f "data").map Located.value = data :=
    field_spelled h hf (by simp) (fun m hm => List.mem_cons_of_mem _ (List.mem_cons_of_mem _ hm))
      (by rintro rfl; simp [errorMembers, spelledMember])
  obtain ⟨d, hd, hdj⟩ := optional_rawValue fun x hx => field_isUtf8 hs hl hf hx
  refine ⟨⟨code.toInt, message, d⟩, ProbeError.deserialize_eq_some.2 ⟨f, hf, ?_, ?_, hd⟩,
    rfl, rfl, ?_⟩
  · exact Serde.required_eq_some.2 ⟨c, hc, i64_of_notNegativeZero hcode (hr.code c hcm)⟩
  · exact Serde.required_eq_some.2 ⟨m, hm, str_of_unescaped hmsg (hr.message m hmm)⟩
  · rw [hdj, hdata]

/-! ## A readable text is decoded to its message -/

section
variable {J : SerdeJson} {level : Nat} {s : Bytes} {l : Located} (hs : isUtf8 s = true)
  (hl : Occurs s l)
  (hr : Readable J level l)
include hr

theorem version_of_members {ms : List (String × (Located → Prop))} {f : String → Option Located}
    (h : l.HasMembers ms) (hf : Serde.struct probeFields l = some f) (hm : versionMember ∈ ms) :
    Serde.required JsonRpcVersion.deserialize (f "jsonrpc") = some {} := by
  obtain ⟨x, hx, hxm, hv⟩ := field_of_mem h hf hm (by simp [versionMember, probeFields])
  exact Serde.required_eq_some.2
    ⟨x, hx, JsonRpcVersion.deserialize_eq_some.2 (str_of_unescaped hv (hr.jsonrpc x hxm))⟩

include hs hl

theorem success_decoded {id : UInt64} {result : Value}
    (h : l.HasMembers (Answer.success id result).members) :
    ∃ probe item, Probe.deserialize J level l = some probe ∧
    probeAsResponse probe = some (.ok item) ∧
      (Answer.success id result).DecodedTo item := by
  have hnd : ((Answer.success id result).members.map Prod.fst).Nodup := by
    simp [Answer.members, versionMember]
  obtain ⟨f, hf⟩ := struct_of_hasMembers h hnd probeFields
  obtain ⟨i, hi, him, hid⟩ := field_of_mem h hf (m := ("id", _))
    (List.mem_cons_of_mem _ List.mem_cons_self) (by simp [probeFields])
  obtain ⟨x, hx, -, hres⟩ := field_of_mem h hf (m := ("result", _))
    (List.mem_cons_of_mem _ (List.mem_cons_of_mem _ List.mem_cons_self)) (by simp [probeFields])
  have habsent : ∀ n ∈ ["method", "params", "error"], f n = none := by
    intro n hn
    apply field_absent h hf (by revert n; simp [probeFields])
    revert n; simp [Answer.members, versionMember]
  have hbuffered : ∀ y, f "id" = some y → y.value = .null ∨
      Serde.content J level y.value = true := by
    intro y hy
    rw [hi] at hy
    cases hy
    exact hr.id i him
  obtain ⟨p, hp, hpv⟩ := optional_probeId hbuffered
  have hpid : p = .Value ⟨id⟩ := by
    rw [← ProbeId.value_eq_some, hpv, hi]
    simp [Serde.u64_eq_some.2 hid]
  obtain ⟨r, hraw, hj⟩ := rawValue_of_isUtf8 (field_isUtf8 hs hl hf hx)
  refine ⟨⟨{}, p, none, none, some r, none⟩, .Response ⟨{}, ⟨id⟩, r⟩, Probe.deserialize_eq_some.2
    ⟨f, hf, version_of_members hr h hf List.mem_cons_self, hp, ?_, ?_, ?_, ?_⟩,
    probeAsResponse_eq_ok.2 (.inr ⟨rfl, r, ⟨id⟩, rfl, hpid, rfl⟩), rfl, hj.trans hres⟩
  · rw [habsent "method" (by simp)]; rfl
  · rw [habsent "params" (by simp)]; rfl
  · rw [hx]; simp [Serde.default, deserializePresentRaw, hraw]
  · rw [habsent "error" (by simp)]; rfl

theorem failure_decoded {id : Option Value} {code : Int64} {message : String} {data : Option Value}
    (h : l.HasMembers (Answer.failure id code message data).members) :
    ∃ probe item, Probe.deserialize J level l = some probe ∧
    probeAsResponse probe = some (.ok item) ∧
      (Answer.failure id code message data).DecodedTo item := by
  have hnd : ((Answer.failure id code message data).members.map Prod.fst).Nodup := by
    cases id <;> simp [Answer.members, versionMember, spelledMember]
  obtain ⟨f, hf⟩ := struct_of_hasMembers h hnd probeFields
  obtain ⟨x, hx, hxm, herr⟩ := field_of_mem h hf (m := ("error", _))
    (List.mem_cons_of_mem _ List.mem_cons_self) (by simp [probeFields])
  have hid : (f "id").map Located.value = id :=
    field_spelled h hf (by simp [probeFields])
      (fun m hm => List.mem_cons_of_mem _ (List.mem_cons_of_mem _ hm))
      (by rintro rfl; simp [Answer.members, versionMember, spelledMember])
  have habsent : ∀ n ∈ ["method", "params", "result"], f n = none := by
    intro n hn
    apply field_absent h hf (by revert n; simp [probeFields])
    revert n; cases id <;> simp [Answer.members, versionMember, spelledMember]
  have hlobj : l.value.isObject = true := hxm.isObject
  have hbuffered : ∀ y, f "id" = some y → y.value = .null ∨ Serde.content J level y.value = true :=
    fun y hy => hr.id y ((Serde.struct_hasMember hf hlobj (by simp [probeFields])).1 hy)
  obtain ⟨p, hp, hpv⟩ := optional_probeId hbuffered
  obtain ⟨e, he, hcode, hmsg, hdata⟩ :=
    probeError_of_members hs (Occurs.hasMember hl hxm) herr (hr.error x hxm)
  have hnull : x.value ≠ .null := by
    intro hn
    rcases ProbeError.deserialize_isStructured he with h | h <;> rw [hn] at h <;> cases h
  refine ⟨⟨{}, p, none, none, none, some e⟩,
    .ErrorResponse ⟨{}, p.value, ⟨e.code, e.message, e.data⟩⟩,
    Probe.deserialize_eq_some.2
      ⟨f, hf, version_of_members hr h hf List.mem_cons_self, hp, ?_, ?_, ?_, ?_⟩,
    probeAsResponse_eq_ok.2 (.inl ⟨e, rfl, rfl⟩), ?_, hcode, hmsg, hdata⟩
  · rw [habsent "method" (by simp)]; rfl
  · rw [habsent "params" (by simp)]; rfl
  · rw [habsent "result" (by simp)]; rfl
  · exact Serde.optional_eq_some.2 ⟨x, hx, hnull, he⟩
  · rw [← hid]; exact hpv

theorem answer_decoded {r : Answer} (h : l.HasMembers r.members) :
    ∃ probe item, Probe.deserialize J level l = some probe ∧
    probeAsResponse probe = some (.ok item) ∧
      r.DecodedTo item := by
  cases r with
  | success id result => exact success_decoded hs hl hr h
  | failure id code message data => exact failure_decoded hs hl hr h

theorem notification_decoded {method : String}
    {params : Option { v : Value // v.isStructured = true }}
    (h : l.HasMembers (notificationMembers method (params.map Subtype.val))) :
    ∃ probe n, Probe.deserialize J level l = some probe ∧
    processProbe probe = .ok (.Notification n) ∧
      n.method = method ∧ n.params.map (·.raw.json) = params.map Subtype.val := by
  have hnd : ((notificationMembers method (params.map Subtype.val)).map Prod.fst).Nodup := by
    cases params <;> simp [notificationMembers, versionMember, spelledMember]
  obtain ⟨f, hf⟩ := struct_of_hasMembers h hnd probeFields
  obtain ⟨m, hm, hmm, hmethod⟩ := field_of_mem h hf (m := ("method", _))
    (List.mem_cons_of_mem _ List.mem_cons_self) (by simp [probeFields])
  have hparams : (f "params").map Located.value = params.map Subtype.val :=
    field_spelled h hf (by simp [probeFields])
      (fun m hm => List.mem_cons_of_mem _ (List.mem_cons_of_mem _ hm))
      (by intro hn; simp [notificationMembers, versionMember, spelledMember, hn])
  have habsent : ∀ n ∈ ["id", "result", "error"], f n = none := by
    intro n hn
    apply field_absent h hf (by revert n; simp [probeFields])
    revert n; cases params <;> simp [notificationMembers, versionMember, spelledMember]
  obtain ⟨p, hp, hpj⟩ := optional_rawValue fun x hx => field_isUtf8 hs hl hf (n := "params") hx
  have hnull : m.value ≠ .null := by
    obtain ⟨y, hy, -⟩ := hmethod
    rw [hy]; simp
  refine ⟨⟨{}, .Absent, some method, p, none, none⟩, ⟨{}, method, p⟩, Probe.deserialize_eq_some.2
    ⟨f, hf, version_of_members hr h hf List.mem_cons_self, ?_, ?_, hp, ?_, ?_⟩,
    processProbe_eq_ok.2 (.inr ⟨rfl, method, rfl, rfl, rfl⟩), rfl, ?_⟩
  · rw [habsent "id" (by simp)]; rfl
  · exact Serde.optional_eq_some.2 ⟨m, hm, hnull, str_of_unescaped hmethod (hr.method m hmm)⟩
  · rw [habsent "result" (by simp)]; rfl
  · rw [habsent "error" (by simp)]; rfl
  · rw [hpj, hparams]
    cases params with
    | none => rfl
    | some v =>
      have hv : v.val ≠ .null := by
        intro hn
        have hst := v.property
        rw [hn] at hst; cases hst
      simp [Option.filter, hv]

end

theorem HasMembers.isObject {l : Located} {ms : List (String × (Located → Prop))}
    (h : l.HasMembers ms) :
    l.value.isObject = true := by
  obtain ⟨fs, -, hfs, -⟩ := h
  rw [← l.fields_isSome, hfs]; rfl

theorem elements_of_isObject {l : Located} (h : l.value.isObject = true) : l.elements = none := by
  rw [← Option.isNone_iff_eq_none, ← Option.not_isSome, l.elements_isSome,
    Value.isArray_of_isObject h]; rfl

/-- A single object that is readable is decoded as its probe is classified. -/
theorem tryFromBytes_object {J : SerdeJson} {t : Text} {probe : Probe} {msg : JsonRpcIncoming}
    (hobj : t.root.value.isObject = true) (hp : Probe.deserialize J 1 t.root = some probe)
    (h : processProbe probe = .ok msg) : JsonRpcIncoming.tryFromBytes J t.render = .ok msg :=
  JsonRpcIncoming.tryFromBytes_eq_ok.2 (.inr
    ⟨(isBatch_render t).trans (Value.isArray_of_isObject hobj), t, probe, read_render t, hp, h⟩)

theorem items_decoded {J : SerdeJson} {s : Bytes} (hs : isUtf8 s = true) {es : List Located}
    {rs : List Answer}
    (h : List.Forall₂ (fun l r => l.HasMembers r.members) es rs) (hocc : ∀ l ∈ es, Occurs s l)
    (hr : ∀ l ∈ es, Readable J 2 l) :
    ∃ items, List.Forall₂ (DecodesItem J) es items ∧ List.Forall₂ Answer.DecodedTo rs items := by
  induction h with
  | nil => exact ⟨[], .nil, .nil⟩
  | @cons l r es rs hlr _ ih =>
    obtain ⟨items, h1, h2⟩ := ih (fun l hl => hocc l (List.mem_cons_of_mem _ hl))
      (fun l hl => hr l (List.mem_cons_of_mem _ hl))
    obtain ⟨probe, item, hprobe, hitem, hdec⟩ :=
      answer_decoded hs (hocc l List.mem_cons_self) (hr l List.mem_cons_self) hlr
    exact ⟨item :: items, .cons ⟨probe, hprobe, processBatchItem_eq_ok.2 hitem⟩ h1, .cons hdec h2⟩

theorem decoded_of_readable {J : SerdeJson} {t : Text} {m : Inbound} (hs : isUtf8 t.render = true)
    (hm : Denotes t m) (hr : AllReadable J t) :
    ∃ msg, JsonRpcIncoming.tryFromBytes J t.render = .ok msg ∧ m.DecodedTo msg := by
  cases m with
  | answer r =>
    have hobj := HasMembers.isObject hm
    simp only [AllReadable, elements_of_isObject hobj] at hr
    obtain ⟨probe, item, hprobe, hitem, hdec⟩ := answer_decoded hs (Occurs.root t) hr hm
    exact ⟨item.toIncoming, tryFromBytes_object hobj hprobe
      (processProbe_eq_ok.2 (.inl ⟨item, hitem, rfl⟩)),
      item, hdec, rfl⟩
  | notification method params =>
    have hobj := HasMembers.isObject hm
    simp only [AllReadable, elements_of_isObject hobj] at hr
    obtain ⟨probe, n, hprobe, hn, hdec⟩ := notification_decoded hs (Occurs.root t) hr hm
    exact ⟨.Notification n, tryFromBytes_object hobj hprobe hn, n, rfl, hdec⟩
  | batch rs =>
    obtain ⟨es, hes, hrs⟩ := hm
    simp only [AllReadable, hes] at hr
    obtain ⟨items, hitems, hdec⟩ := items_decoded hs hrs ((Occurs.root t).elements hes) hr
    have hbatch : isBatch t.render = true := by
      rw [isBatch_render]
      exact t.root.elements_isSome.symm.trans (by rw [hes]; rfl)
    exact ⟨.BatchResponse items, JsonRpcIncoming.tryFromBytes_eq_ok.2
      (.inl ⟨hbatch, t, es, items, read_render t, hes, hitems, rfl⟩), items, rfl, hdec⟩

/-- **A text of a message is decoded to that message just when it is readable**: when none of its
borrowed strings is written with an escape, no `code` as `-0`, and every `id` can be buffered. -/
theorem decoded_iff_readable {J : SerdeJson} {u : String} {t : Text} {m : Inbound} {input : Input}
    (hu : t.render = bytesOf u) (hi : input.text = bytesOf u) (hm : Denotes t m) :
    (∃ msg, JsonRpcIncoming.tryFrom J input = .ok msg ∧ m.DecodedTo msg) ↔ AllReadable J t := by
  rw [JsonRpcIncoming.tryFrom_text, hi, ← hu]
  constructor
  · rintro ⟨msg, hmsg, -⟩
    exact allReadable hmsg
  · exact decoded_of_readable (hu ▸ isUtf8_bytesOf u) hm

/-- A string literal's body with no escapes. -/
def plainBody (s : String) : Str :=
  (bytesOf s).filterMap fun b => if h : isPlain b = true then some (.plain ⟨b, h⟩) else none

def one : Number := ⟨false, .pos ⟨0x31, by decide⟩ [], none, none⟩

/-- An error reply to call 1 with code 1, its message spelled `message`. -/
def errorText (message : Str) : Text :=
  ⟨[], .obj [] (plainBody "jsonrpc") [] [] (.str (plainBody "2.0")) []
    (.cons [] (plainBody "error") [] []
    (.obj [] (plainBody "code") [] [] (.num one) []
      (.cons [] (plainBody "message") [] [] (.str message) [] .nil)) []
    (.cons [] (plainBody "id") [] [] (.num one) [] .nil)), []⟩

theorem denotes_errorText {body : Str} {message : String} (h : body.decode = some message) :
    Denotes (errorText body) (.answer (.failure (some (.num one)) 1 message none)) := by
  have plain : ∀ n ∈ ["jsonrpc", "2.0", "error", "code", "message", "id"],
      (plainBody n).decode = some n := by
    decide +kernel
  have herror : ∀ p, Located.HasMembers ⟨p, .obj [] (plainBody "code") [] [] (.num one) []
      (.cons [] (plainBody "message") [] [] (.str body) [] .nil)⟩
        (errorMembers 1 message none) := by
    intro p
    exact ⟨_, _, rfl, .refl _, .cons ⟨plain _ (by simp), one, rfl, by decide⟩
      (.cons ⟨plain _ (by simp), body, rfl, h⟩ .nil)⟩
  exact ⟨_, _, rfl, .refl _, .cons ⟨plain _ (by simp), _, rfl, plain _ (by simp)⟩
    (.cons ⟨plain _ (by simp), herror _⟩ (.cons ⟨plain _ (by simp), rfl⟩ .nil))⟩

/-- A message without escapes. -/
theorem decoded_iff_readable_plain :
    (∃ msg, JsonRpcIncoming.tryFrom ⟨fun _ => true⟩
        (.str "\x7b\"jsonrpc\":\"2.0\",\"error\":\x7b\"code\":1,\"message\":\"no\"\x7d,\"id\":1\x7d") = .ok msg ∧
      (Inbound.answer (.failure (some (.num one)) 1 "no" none)).DecodedTo msg) ↔
    AllReadable ⟨fun _ => true⟩ (errorText (plainBody "no")) :=
  decoded_iff_readable (t := errorText (plainBody "no")) (by decide +kernel) rfl
    (denotes_errorText (by decide +kernel))

/-- `a"b`, whose quote has to be escaped. -/
def quotedBody : Str := plainBody "a" ++ .esc .quote :: plainBody "b"

/-- **An error reply whose message holds a quote is refused, whichever way it comes in.** -/
theorem escaped_message_refused :
    (errorText quotedBody).render = bytesOf
        "\x7b\"jsonrpc\":\"2.0\",\"error\":\x7b\"code\":1,\"message\":\"a\\\"b\"\x7d,\"id\":1\x7d" ∧
      Denotes (errorText quotedBody) (.answer (.failure (some (.num one)) 1 "a\"b" none)) ∧
      ∀ input : Input, input.text = (errorText quotedBody).render →
        JsonRpcIncoming.tryFrom ⟨fun _ => true⟩ input = .error .SerdeError := by
  refine ⟨by decide +kernel, denotes_errorText (by decide +kernel), ?_⟩
  intro input hi
  rw [JsonRpcIncoming.tryFrom_text, hi]
  decide +kernel

end JsonRpc
