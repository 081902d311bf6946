import JsonRpcClient.Json.Meaning

/-!
# Writing JSON in its compact form

The spelling a compact writer gives to strings, unsigned integers, arrays and objects: the
two-character escapes where there is one, `\u00xx` in lower case for the other control characters,
every other byte as it is, decimal digits without leading zeros, and no whitespace.

What is written means what was meant: `Str.decode_ofString`, `Number.nat?_ofU64`,
`elements_compactArr`, `hasMembers_compactObj`.
-/

namespace Json

/-! ## Strings -/

def HexDigit.ofFin (n : Fin 16) : HexDigit :=
  ⟨if n.val < 10 then 0x30 + UInt8.ofNat n else 0x57 + UInt8.ofNat n, by revert n; decide⟩

/-- The escape a writer uses for a byte. A slash is written as it is. -/
def Escape.ofByte (b : UInt8) : Option Escape :=
  if b = 0x22 then some .quote
  else if b = 0x5c then some .backslash
  else if b = 0x08 then some .backspace
  else if b = 0x0c then some .formFeed
  else if b = 0x0a then some .lineFeed
  else if b = 0x0d then some .carriageReturn
  else if b = 0x09 then some .tab
  else none

def StrItem.ofByte (b : UInt8) : StrItem :=
  match Escape.ofByte b with
  | some e => .esc e
  | none =>
    if h : Json.isPlain b = true then .plain ⟨b, h⟩
    else .unicode (.ofFin 0) (.ofFin 0) (.ofFin (Fin.ofNat 16 (b.toNat / 16)))
      (.ofFin (Fin.ofNat 16 b.toNat))

/-- The literal a string is written as. -/
def Str.ofString (s : String) : Str := (bytesOf s).map StrItem.ofByte

theorem HexDigit.toNat_ofFin (n : Fin 16) : HexDigit.toNat (.ofFin n) = n := by
  revert n; decide

theorem Escape.byte_of_ofByte {b : UInt8} {e : Escape} (h : Escape.ofByte b = some e) :
    e.byte = b := by
  unfold Escape.ofByte at h
  repeat' split at h
  all_goals first | (injection h with h; subst h; simp_all [Escape.byte]) | cases h

/-- Only control characters have neither a letter nor stand for themselves. -/
theorem control_of_ofByte {b : UInt8} (h : Escape.ofByte b = none) (hp : ¬ isPlain b = true) :
    b.toNat < 0x20 := by
  have h1 : b ≠ 0x22 := by rintro rfl; cases h
  have h2 : b ≠ 0x5c := by rintro rfl; cases h
  simp only [isPlain, Bool.and_eq_true, decide_eq_true_eq, bne_iff_ne, ne_eq, h1, h2,
    not_false_eq_true, and_true, UInt8.not_le] at hp
  exact UInt8.lt_iff_toNat_lt.1 hp

theorem codeUnit_control {n : Nat} (h : n < 0x20) :
    codeUnit (.ofFin 0) (.ofFin 0) (.ofFin (Fin.ofNat 16 (n / 16))) (.ofFin (Fin.ofNat 16 n)) =
      n := by
  simp only [codeUnit, HexDigit.toNat_ofFin, Fin.ofNat, Fin.val_zero]
  omega

theorem unescape_ofByte (b : UInt8) (s : Str) :
    unescape (StrItem.ofByte b :: s) = (unescape s).map (b :: ·) := by
  unfold StrItem.ofByte
  cases he : Escape.ofByte b with
  | some e => simp only [unescape, Escape.byte_of_ofByte he]
  | none =>
    by_cases hp : isPlain b = true
    · simp only [hp, ↓reduceDIte, unescape]
    · have hlt := control_of_ofByte he hp
      have htrail : isTrail b.toNat = false := by simp [isTrail]; omega
      have hlead : isLead b.toNat = false := by simp [isLead]; omega
      simp only [hp, Bool.false_eq_true, ↓reduceDIte]
      rw [unescape.eq_def]
      simp only [codeUnit_control hlt, htrail, hlead, Bool.false_eq_true, ↓reduceIte,
        utf8EncodeChar_ofNat (show b.toNat < 128 by omega), UInt8.ofNat_toNat, List.cons_append,
        List.nil_append]

theorem unescape_ofBytes (b : Bytes) : unescape (b.map StrItem.ofByte) = some b := by
  induction b with
  | nil => rfl
  | cons b bs ih => rw [List.map_cons, unescape_ofByte, ih]; rfl

/-- **A written string denotes what was written.** -/
theorem Str.decode_ofString (s : String) : (Str.ofString s).decode = some s := by
  rw [Str.decode, Str.ofString, unescape_ofBytes, Option.bind_some, utf8?_bytesOf]

/-! ## Integers -/

def Digit.ofFin (n : Fin 10) : Digit := ⟨0x30 + UInt8.ofNat n, by revert n; decide⟩

theorem Digit.toNat_ofFin (n : Fin 10) : (Digit.ofFin n).toNat = n := by revert n; decide

/-- One more digit behind an integer. -/
def IntPart.push : IntPart → Digit → IntPart
  | .zero, d => if h : isDigit19 d.val = true then .pos ⟨d.val, h⟩ [] else .zero
  | .pos h t, d => .pos h (t ++ [d])

/-- A number's decimal digits, at most `fuel` of them. -/
def IntPart.ofNat : (fuel : Nat) → Nat → IntPart
  | 0, _ => .zero
  | fuel + 1, n =>
    if n = 0 then .zero else (IntPart.ofNat fuel (n / 10)).push (.ofFin (Fin.ofNat 10 n))

/-- A `u64` has at most 20 digits. -/
def Number.ofU64 (k : UInt64) : Number := ⟨false, .ofNat 20 k.toNat, none, none⟩

theorem IntPart.toNat_push (i : IntPart) (d : Digit) :
    (i.push d).toNat = i.toNat * 10 + d.toNat := by
  cases i with
  | pos h t => simp [push, toNat, digitsToNat]
  | zero =>
    simp only [push]
    split
    · simp [toNat, digitsToNat, Digit.toNat]
    · -- the only digit that is none of `1` to `9`
      rename_i h
      obtain ⟨d, hd⟩ := d
      have h0 : d = 0x30 := by
        simp only [isDigit, isDigit19, Bool.and_eq_true, decide_eq_true_eq,
          UInt8.le_iff_toNat_le] at hd h
        rw [← UInt8.toNat_inj]
        simp at hd h ⊢; omega
      subst h0; rfl

theorem IntPart.toNat_ofNat : ∀ {fuel n : Nat}, n < 10 ^ fuel → (IntPart.ofNat fuel n).toNat = n
  | 0, n, h => by
    obtain rfl : n = 0 := by omega
    rfl
  | fuel + 1, n, h => by
    rw [Nat.pow_succ] at h
    have ih := @toNat_ofNat fuel (n / 10) (by omega)
    unfold IntPart.ofNat
    split
    · rename_i h0; rw [h0]; rfl
    · rw [toNat_push, ih, Digit.toNat_ofFin, Fin.val_ofNat]; omega

/-- **A written `u64` is an integer literal of its value.** -/
theorem Number.nat?_ofU64 (k : UInt64) : (Number.ofU64 k).nat? = some k.toNat := by
  have hk : k.toNat < 10 ^ 20 := by have := k.toNat_lt; omega
  simp [Number.nat?, Number.isInt, Number.ofU64, IntPart.toNat_ofNat hk]

/-! ## Arrays -/

def Elems.compact : List Value → Elems
  | [] => .nil
  | v :: vs => .cons [] v [] (.compact vs)

/-- An array of the given values, without whitespace. -/
def Value.compactArr : List Value → Value
  | [] => .arrNil []
  | v :: vs => .arr [] v [] (.compact vs)

theorem Elems.located_compact : ∀ (vs : List Value) (p : Nat),
    ((Elems.compact vs).located p).map Located.value = vs
  | [], _ => rfl
  | v :: vs, _ => congrArg (v :: ·) (Elems.located_compact vs _)

/-- **A written array has the elements it was written with.** -/
theorem elements_compactArr (p : Nat) (vs : List Value) :
    ∃ es, Located.elements ⟨p, .compactArr vs⟩ = some es ∧ es.map Located.value = vs := by
  cases vs with
  | nil => exact ⟨[], rfl, rfl⟩
  | cons v vs => exact ⟨_, rfl, Elems.located_compact (v :: vs) p⟩

/-! ## Objects -/

def Members.compact : List (String × Value) → Members
  | [] => .nil
  | (n, v) :: ms => .cons [] (.ofString n) [] [] v [] (.compact ms)

/-- An object with the given members, without whitespace. -/
def Value.compactObj : List (String × Value) → Value
  | [] => .objNil []
  | (n, v) :: ms => .obj [] (.ofString n) [] [] v [] (.compact ms)

theorem Members.located_compact : ∀ (ms : List (String × Value)) (p : Nat),
    List.Forall₂ (fun f m => f.key.decode = some m.1 ∧ f.value.value = m.2)
      ((Members.compact ms).located p) ms
  | [], _ => .nil
  | (n, _) :: ms, _ => .cons ⟨Str.decode_ofString n, rfl⟩ (Members.located_compact ms _)

/-- **A written object has the members it was written with.** -/
theorem hasMembers_compactObj (p : Nat) (ms : List (String × Value)) :
    Located.HasMembers ⟨p, .compactObj ms⟩ (ms.map fun m => (m.1, fun x => x.value = m.2)) := by
  cases ms with
  | nil => exact ⟨[], [], rfl, .nil, .nil⟩
  | cons m ms =>
    refine ⟨_, _, rfl, .rfl, ?_⟩
    rw [List.forall₂_map_right_iff]
    exact Members.located_compact (m :: ms) p

end Json
