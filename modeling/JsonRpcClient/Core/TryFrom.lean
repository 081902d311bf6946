import JsonRpcClient.Core.Params

/-!
# The decoder's two entry points: `TryFrom<&str>` and `TryFrom<&[u8]>` (decode.rs:253-292)

They look for a batch differently: a string is searched for its first character that is not Unicode
white space, bytes for the first that is not ASCII whitespace. On a JSON text both find the value's
first byte, and what is no JSON text is refused on either path, so a string is decoded as its bytes
are (`tryFromStr_bytes`).
-/

namespace JsonRpc
open Json

/-- `s.trim_start().starts_with('[')` (decode.rs:258). -/
def isBatchStr (s : String) : Bool := (trimStart s).head? == some '['

/-- `TryFrom<&str> for JsonRpcIncoming` (decode.rs:253). -/
def JsonRpcIncoming.tryFromStr (J : SerdeJson) (s : String) : Result JsonRpcIncoming :=
  if isBatchStr s then do
    let probes ← serdeOk (Serde.fromSlice (Serde.vec (Probe.deserialize J 2)) (bytesOf s))
    processBatch probes
  else do
    let probe ← serdeOk (Serde.fromSlice (Probe.deserialize J 1) (bytesOf s))
    processProbe probe

/-- What `try_from` is given. -/
inductive Input where
  | str (s : String)
  | bytes (b : Bytes)

def Input.text : Input → Bytes
  | .str s => bytesOf s
  | .bytes b => b

/-- `JsonRpcIncoming::try_from`. -/
def JsonRpcIncoming.tryFrom (J : SerdeJson) : Input → Result JsonRpcIncoming
  | .str s => tryFromStr J s
  | .bytes b => tryFromBytes J b

/-! ## A text is a batch when it is an array -/

theorem isAsciiWhitespace_of_isWs {b : UInt8} (h : isWs b = true) : isAsciiWhitespace b = true := by
  simp only [isWs, Bool.or_eq_true, beq_iff_eq] at h
  rcases h with ((rfl | rfl) | rfl) | rfl <;> decide

theorem isBatch_ws (ws : Ws) (s : Bytes) : isBatch (raw ws ++ s) = isBatch s := by
  induction ws with
  | nil => rfl
  | cons w ws ih => simpa [isBatch, isAsciiWhitespace_of_isWs w.property] using ih

theorem isBatch_render (t : Text) : isBatch t.render = t.value.isArray := by
  obtain ⟨b, u, hb, h20, -, -, harr⟩ := t.value.render_head
  have hnw : isAsciiWhitespace b = false := by
    cases hw : isAsciiWhitespace b with
    | false => rfl
    | true =>
      simp only [isAsciiWhitespace, Bool.or_eq_true, beq_iff_eq] at hw
      rcases hw with (((rfl | rfl) | rfl) | rfl) | rfl <;> simp at h20
  rw [Text.render, isBatch_ws, hb, Bool.eq_iff_iff, ← harr]
  simp [isBatch, hnw]

theorem isBatchStr_of_read {s : String} {t : Text} (h : Json.read (bytesOf s) = some t) :
    isBatchStr s = t.value.isArray := by
  obtain ⟨b, cs, hcs, hb, -, harr⟩ := trimStart_of_read h
  rw [isBatchStr, hcs, Bool.eq_iff_iff, ← harr]
  simpa using ofNat_ascii_inj hb (by decide : (0x5b : UInt8).toNat < 128)

theorem isBatchStr_eq {s : String} {t : Text} (h : Json.read (bytesOf s) = some t) :
    isBatchStr s = isBatch (bytesOf s) := by
  rw [isBatchStr_of_read h, ← read_eq_some_iff.1 h, isBatch_render]

/-- What is no JSON text is refused, whichever path it takes. -/
theorem JsonRpcIncoming.tryFrom_not_json {J : SerdeJson} {s : String}
    (h : Json.read (bytesOf s) = none) :
    tryFromStr J s = .error .SerdeError ∧ tryFromBytes J (bytesOf s) = .error .SerdeError := by
  have hnone : ∀ {α : Type} (f : Located → Option α), Serde.fromSlice f (bytesOf s) = none := by
    intro α f; simp [Serde.fromSlice, h]
  unfold tryFromStr tryFromBytes
  simp only [hnone]
  constructor <;> split <;> rfl

theorem JsonRpcIncoming.tryFromStr_bytes (J : SerdeJson) (s : String) :
    tryFromStr J s = tryFromBytes J (bytesOf s) := by
  cases h : Json.read (bytesOf s) with
  | some t => rw [tryFromStr, tryFromBytes, isBatchStr_eq h]
  | none => rw [(tryFrom_not_json h).1, (tryFrom_not_json h).2]

theorem JsonRpcIncoming.tryFrom_text (J : SerdeJson) (input : Input) :
    tryFrom J input = tryFromBytes J input.text := by
  cases input with
  | str s => exact tryFromStr_bytes J s
  | bytes b => rfl

/-- **The two entry points agree on every string.** Where one takes it for a batch and the other
does not, both refuse it. -/
theorem JsonRpcIncoming.entry_points_agree (J : SerdeJson) (s : String) :
    tryFrom J (.str s) = tryFrom J (.bytes (bytesOf s)) ∧
      (isBatchStr s = isBatch (bytesOf s) ∨ tryFrom J (.str s) = .error .SerdeError) := by
  refine ⟨tryFromStr_bytes J s, ?_⟩
  cases h : Json.read (bytesOf s) with
  | some t => exact .inl (isBatchStr_eq h)
  | none => exact .inr (tryFrom_not_json h).1

/-- A vertical tab is white space to `trim_start` only, and JSON to neither. -/
example : isBatchStr "\x0b[]" = true ∧ isBatch (bytesOf "\x0b[]") = false := by decide

end JsonRpc
