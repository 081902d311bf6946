import JsonRpcClient.Core.Decode

/-!
# `params` are structured (params.rs)

A caller's value enters as what `serde_json` makes of it: the text it writes, and whether it fails
after that. Both helpers accept the texts of arrays and objects and nothing else
(`serializeParams_ok`), and `serialize_params` gives its own results back unchanged
(`serializeParams_raw`), which is what lets `BatchBuilder::build` serialize twice.

| here | there |
| --- | --- |
| `isObjectOrArray`  | `is_object_or_array` (params.rs:49) |
| `serializeParams`  | `serialize_params` (params.rs:58) |
| `paramsToRawValue` | `params_to_raw_value` (params.rs:71) |
-/

namespace JsonRpc
open Json

/-- A value handed to `serde_json`: the text written for it, and whether writing ends in an error.
-/
structure Serialized where
  written : String
  failed : Bool
deriving DecidableEq, Repr

/-- `serde_json::to_string`. -/
def Serialized.toString? (value : Serialized) : Option String :=
  if value.failed then none else some value.written

/-- A `RawValue` is serialized as its own text. -/
def RawValue.serialized (r : RawValue) : Serialized := ⟨r.get, false⟩

/-- `char::is_whitespace`: the Unicode property `White_Space`. -/
def isWhitespace (c : Char) : Bool :=
  (0x09 ≤ c.toNat && c.toNat ≤ 0x0d) || c.toNat == 0x20 || c.toNat == 0x85 || c.toNat == 0xa0 ||
    c.toNat == 0x1680 || (0x2000 ≤ c.toNat && c.toNat ≤ 0x200a) || c.toNat == 0x2028 ||
    c.toNat == 0x2029 || c.toNat == 0x202f || c.toNat == 0x205f || c.toNat == 0x3000

/-- `str::trim_start`, as characters. -/
def trimStart (s : String) : List Char := s.toList.dropWhile isWhitespace

/-- Whether the first character that is not whitespace opens an object or an array. -/
def isObjectOrArray (data : String) : Bool :=
  match trimStart data with
  | c :: _ => c == '{' || c == '['
  | [] => false

/-- `RawValue::from_string`: one JSON value; whitespace around it is dropped. -/
def RawValue.fromString (s : String) : Option RawValue :=
  match h : Json.read (bytesOf s) with
  | some t => some ⟨t.value, (Occurs.root t).isUtf8 (render_of_read h ▸ isUtf8_bytesOf s)⟩
  | none => none

def serializeParams (value : Serialized) : Result RawValue := do
  let json ← serdeOk value.toString?
  if !isObjectOrArray json then .error .InvalidParams
  else serdeOk (RawValue.fromString json)

/-- `params.map(|p| serialize_params(&p)).transpose()`. -/
def serializeOptParams : Option Serialized → Result (Option RawValue)
  | none => .ok none
  | some value => (serializeParams value).map some

/-- The text read back: everything the buffer holds after `value` is written behind its contents. -/
def readParams (value : Serialized) (buf : Bytes) : Result RawValue :=
  if value.failed then .error .SerdeError
  else
    match utf8? buf with
    | none => .error .InvalidUTF8Str
    | some json =>
      if !isObjectOrArray json then .error .InvalidParams
      else serdeOk (RawValue.fromString json)

/-- The buffer keeps what was written to it, also when the call fails. -/
def paramsToRawValue (value : Serialized) (buf : Bytes) : Result RawValue × Bytes :=
  let buf := buf ++ bytesOf value.written
  (readParams value buf, buf)

/-! ## What `is_object_or_array` decides -/

theorem isWhitespace_of_isWs {b : UInt8} (h : isWs b = true) :
    isWhitespace (Char.ofNat b.toNat) = true := by
  simp only [isWs, Bool.or_eq_true, beq_iff_eq] at h
  rcases h with ((rfl | rfl) | rfl) | rfl <;> decide

theorem dropWhile_ws : ∀ {cs : List Char} {ws : Ws} {t : Bytes},
    cs.flatMap String.utf8EncodeChar = raw ws ++ t →
    ∃ cs' : List Char, cs'.flatMap String.utf8EncodeChar = t ∧
    cs.dropWhile isWhitespace = cs'.dropWhile isWhitespace
  | cs, [], _, h => ⟨cs, h, rfl⟩
  | cs, w :: ws, t, h => by
    have hw : w.val < 0x80 := by
      have := w.property
      simp only [isWs, Bool.or_eq_true, beq_iff_eq] at this
      rcases this with ((h | h) | h) | h <;> rw [h] <;> decide
    obtain ⟨cs', rfl, hcs'⟩ := flatMap_eq_cons hw (t := raw ws ++ t) (by simpa using h)
    obtain ⟨cs'', h1, h2⟩ := dropWhile_ws hcs'
    exact ⟨cs'', h1, by rw [List.dropWhile_cons_of_pos (isWhitespace_of_isWs w.property), h2]⟩

/-- On a JSON text `trim_start` stops at the value's first byte. -/
theorem trimStart_of_read {s : String} {t : Text} (h : Json.read (bytesOf s) = some t) :
    ∃ (b : UInt8) (cs : List Char), trimStart s = Char.ofNat b.toNat :: cs ∧ b.toNat < 0x80 ∧
      (b = 0x7b ↔ t.value.isObject = true) ∧ (b = 0x5b ↔ t.value.isArray = true) := by
  have hs := read_eq_some_iff.1 h
  rw [bytesOf_eq, Text.render] at hs
  obtain ⟨cs, hcs, hdrop⟩ := dropWhile_ws hs.symm
  obtain ⟨b, u, hb, h20, h80, hobj, harr⟩ := t.value.render_head
  have hb80 : b < 0x80 := UInt8.lt_iff_toNat_lt.2 h80
  obtain ⟨cs', rfl, -⟩ := flatMap_eq_cons hb80 (t := u ++ raw t.post) (by rw [hcs, hb]; rfl)
  have hnw : ¬ isWhitespace (Char.ofNat b.toNat) = true := by
    simp only [isWhitespace, toNat_ofNat_ascii h80]
    simp; omega
  exact ⟨b, cs', by rw [trimStart, hdrop, List.dropWhile_cons_of_neg hnw], h80, hobj, harr⟩

/-- On a JSON text the test on the first character is the test on the value. -/
theorem isObjectOrArray_eq {s : String} {t : Text} (h : Json.read (bytesOf s) = some t) :
    isObjectOrArray s = t.value.isStructured := by
  obtain ⟨b, cs, hcs, hb, hobj, harr⟩ := trimStart_of_read h
  simp only [isObjectOrArray, hcs]
  rw [Bool.eq_iff_iff, Value.isStructured_iff, ← hobj, ← harr, Bool.or_eq_true, beq_iff_eq,
    beq_iff_eq]
  exact or_congr (ofNat_ascii_inj hb (by decide : (0x7b : UInt8).toNat < 128))
    (ofNat_ascii_inj hb (by decide : (0x5b : UInt8).toNat < 128))

theorem RawValue.fromString_some {s : String} {r : RawValue} (h : RawValue.fromString s = some r) :
    ∃ t, Json.read (bytesOf s) = some t ∧ r.json = t.value := by
  unfold RawValue.fromString at h
  split at h
  · rename_i t ht; exact ⟨t, ht, by cases h; rfl⟩
  · cases h

/-- A `RawValue`'s own text is read back as itself. -/
theorem RawValue.read_get (r : RawValue) : Json.read (bytesOf r.get) = some ⟨[], r.json, []⟩ := by
  rw [read_eq_some_iff, r.bytesOf_get]
  simp [Text.render, RawValue.bytes]

theorem RawValue.fromString_get (r : RawValue) : RawValue.fromString r.get = some r := by
  unfold RawValue.fromString
  split
  · rename_i t ht
    rw [r.read_get] at ht
    cases ht; rfl
  · rename_i h; rw [r.read_get] at h; cases h

theorem serializeParams_false (s : String) : serializeParams ⟨s, false⟩ =
    if !isObjectOrArray s then .error .InvalidParams else serdeOk (RawValue.fromString s) := rfl

/-- What `serialize_params` returns is an array or an object. -/
theorem serializeParams_ok {value : Serialized} {r : RawValue} (h : serializeParams value = .ok r) :
    r.json.isStructured = true := by
  obtain ⟨s, failed⟩ := value
  cases failed with
  | true => cases h
  | false =>
    rw [serializeParams_false] at h
    split at h
    · cases h
    · rename_i hs
      obtain ⟨t, ht, hr⟩ := RawValue.fromString_some (serdeOk_eq_ok.1 h)
      rw [isObjectOrArray_eq ht] at hs
      rw [hr]; simpa using hs

/-- Serializing validated params again gives them back. -/
theorem serializeParams_raw {r : RawValue} (h : r.json.isStructured = true) :
    serializeParams r.serialized = .ok r := by
  have hs : isObjectOrArray r.get = true := by rw [isObjectOrArray_eq r.read_get, h]
  rw [RawValue.serialized, serializeParams_false]
  simp [hs, serdeOk, RawValue.fromString_get]

/-- So is what `params_to_raw_value` reads back. -/
theorem readParams_ok {value : Serialized} {buf : Bytes} {r : RawValue}
    (h : readParams value buf = .ok r) : r.json.isStructured = true := by
  unfold readParams at h
  split at h
  · cases h
  · split at h
    · cases h
    · rename_i json _
      split at h
      · cases h
      · rename_i hs
        obtain ⟨t, ht, hr⟩ := RawValue.fromString_some (serdeOk_eq_ok.1 h)
        rw [isObjectOrArray_eq ht] at hs
        rw [hr]; simpa using hs

/-- How the helpers fail. -/
theorem readParams_error {value : Serialized} {buf : Bytes} {e : Error}
    (h : readParams value buf = .error e) :
    e = .SerdeError ∨ e = .InvalidUTF8Str ∨ e = .InvalidParams := by
  unfold readParams at h
  split at h
  · cases h; exact .inl rfl
  · split at h
    · cases h; exact .inr (.inl rfl)
    · split at h
      · cases h; exact .inr (.inr rfl)
      · rename_i json _ _
        cases hr : RawValue.fromString json with
        | none => rw [hr] at h; cases h; exact .inl rfl
        | some r => rw [hr] at h; cases h

theorem serializeOptParams_isSome {params : Option Serialized} {o : Option RawValue}
    (h : serializeOptParams params = .ok o) : o.isSome = params.isSome := by
  cases params with
  | none => cases h; rfl
  | some value =>
    simp only [serializeOptParams] at h
    cases hv : serializeParams value with
    | error e => rw [hv] at h; cases h
    | ok r => rw [hv] at h; cases h; rfl

theorem serializeOptParams_ok {params : Option Serialized} {o : Option RawValue}
    (h : serializeOptParams params = .ok o) : ∀ r ∈ o, r.json.isStructured = true := by
  cases params with
  | none => cases h; simp
  | some value =>
    simp only [serializeOptParams] at h
    cases hv : serializeParams value with
    | error e => rw [hv] at h; cases h
    | ok r => rw [hv] at h; cases h; simpa using serializeParams_ok hv

theorem serializeOptParams_raw {o : Option RawValue} (h : ∀ r ∈ o, r.json.isStructured = true) :
    serializeOptParams (o.map RawValue.serialized) = .ok o := by
  cases o with
  | none => rfl
  | some r => simp [serializeOptParams, serializeParams_raw (h r rfl), Except.map]

end JsonRpc
