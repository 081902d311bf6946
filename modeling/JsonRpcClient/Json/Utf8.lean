import JsonRpcClient.Json.Syntax

/-!
# UTF-8 on byte lists

`utf8?` is `str::from_utf8` for byte lists, with Lean's own `String` as the result; `bytesOf` goes
back. The only fact about the encoding that a JSON reader needs is `isUtf8_split`: an ASCII byte
is never part of a longer character, so a valid text may be cut at any of them.
-/

namespace Json

def utf8? (b : Bytes) : Option String := String.fromUTF8? b.toByteArray
def bytesOf (s : String) : Bytes := s.toByteArray.data.toList
def isUtf8 (b : Bytes) : Bool := (utf8? b).isSome

theorem utf8?_eq_some_iff {b : Bytes} {s : String} : utf8? b = some s ↔ bytesOf s = b := by
  unfold utf8? bytesOf String.fromUTF8?
  constructor
  · intro h
    split at h
    · cases h; simp [String.fromUTF8]
    · cases h
  · rintro rfl
    have hb : s.toByteArray.data.toList.toByteArray = s.toByteArray := by
      rw [← List.toByteArray_inj.2 rfl]; ext1; simp
    simp only [hb, s.isValidUTF8, ↓reduceDIte]
    rfl

theorem utf8?_bytesOf (s : String) : utf8? (bytesOf s) = some s := utf8?_eq_some_iff.2 rfl

theorem isUtf8_bytesOf (s : String) : isUtf8 (bytesOf s) = true := by simp [isUtf8, utf8?_bytesOf]

theorem bytesOf_injective {s t : String} (h : bytesOf s = bytesOf t) : s = t := by
  have hs := utf8?_bytesOf s
  rw [h, utf8?_bytesOf] at hs
  exact (Option.some.inj hs).symm

theorem isUtf8_iff {b : Bytes} :
    isUtf8 b = true ↔ ∃ cs : List Char, b = cs.flatMap String.utf8EncodeChar := by
  unfold isUtf8 utf8? String.fromUTF8?
  constructor
  · intro h
    split at h
    · rename_i hv
      obtain ⟨cs, hcs⟩ := hv
      exact ⟨cs, List.toByteArray_inj.1 hcs⟩
    · cases h
  · rintro ⟨cs, rfl⟩
    have hv : (cs.flatMap String.utf8EncodeChar).toByteArray.IsValidUTF8 := ⟨cs, rfl⟩
    simp [hv]

/-- A byte below `0x80` in a character's encoding is all of it. -/
theorem utf8EncodeChar_of_mem {ch : Char} {c : UInt8} (h : c ∈ String.utf8EncodeChar ch)
    (hc : c < 0x80) : String.utf8EncodeChar ch = [c] := by
  have hc' : c.toNat < 128 := UInt8.lt_iff_toNat_lt.1 hc
  unfold String.utf8EncodeChar at h ⊢
  dsimp only at h ⊢
  set v := ch.val.toNat with hvdef
  have big : ∀ n, 128 ≤ n → n < 256 → c ≠ UInt8.ofNat n := by
    rintro n h1 h2 rfl
    rw [UInt8.toNat_ofNat_of_lt' h2] at hc'; omega
  have hv : v < 1114112 := by
    have := ch.valid
    simp only [UInt32.isValidChar, Nat.isValidChar] at this
    show ch.val.toNat < _
    omega
  split at h
  · rename_i h1; simp only [h1, ↓reduceIte]; simpa [eq_comm] using h
  · split at h
    · simp only [List.mem_cons, List.not_mem_nil, or_false] at h
      rcases h with h | h <;> exact absurd h (big _ (by omega) (by omega))
    · split at h
      · simp only [List.mem_cons, List.not_mem_nil, or_false] at h
        rcases h with h | h | h <;> exact absurd h (big _ (by omega) (by omega))
      · simp only [List.mem_cons, List.not_mem_nil, or_false] at h
        rcases h with h | h | h | h <;> exact absurd h (big _ (by omega) (by omega))

/-- A valid text may be cut before any of its ASCII bytes. -/
theorem isUtf8_split {u w : Bytes} {c : UInt8} (hc : c < 0x80) (h : isUtf8 (u ++ c :: w) = true) :
    isUtf8 u = true ∧ isUtf8 w = true := by
  obtain ⟨cs, hcs⟩ := isUtf8_iff.1 h
  clear h
  induction cs generalizing u with
  | nil => simp at hcs
  | cons ch cs ih =>
    rw [List.flatMap_cons] at hcs
    rcases List.append_eq_append_iff.1 hcs with ⟨a, ha, hw⟩ | ⟨a, ha, hw⟩
    · -- `u` ends inside or at the end of the first character
      cases a with
      | nil =>
        obtain ⟨h1, h2⟩ := ih (u := []) (by simpa using hw)
        refine ⟨isUtf8_iff.2 ⟨[ch], ?_⟩, h2⟩
        simpa using ha.symm
      | cons x a =>
        simp only [List.cons_append, List.cons.injEq] at hw
        obtain ⟨rfl, hw⟩ := hw
        have hone := @utf8EncodeChar_of_mem ch c (by simp [ha]) hc
        rw [hone] at ha
        have hu : u = [] ∧ a = [] := by
          cases u with
          | nil => simpa using ha
          | cons y u => simp at ha
        exact ⟨by rw [hu.1]; rfl, isUtf8_iff.2 ⟨cs, by rw [hw, hu.2]; rfl⟩⟩
    · obtain ⟨h1, h2⟩ := ih (u := a) hw.symm
      obtain ⟨cs', h1⟩ := isUtf8_iff.1 h1
      exact ⟨isUtf8_iff.2 ⟨ch :: cs', by simp [ha, h1]⟩, h2⟩

theorem isUtf8_append {u w : Bytes} (hu : isUtf8 u = true) (hw : isUtf8 w = true) :
    isUtf8 (u ++ w) = true := by
  obtain ⟨cs, rfl⟩ := isUtf8_iff.1 hu
  obtain ⟨ds, rfl⟩ := isUtf8_iff.1 hw
  exact isUtf8_iff.2 ⟨cs ++ ds, by simp⟩

/-- What precedes a valid end of a valid text is valid: no character straddles the cut, because the
first byte of one never continues another. -/
theorem isUtf8_of_append {u w : Bytes} (h : isUtf8 (u ++ w) = true) (hw : isUtf8 w = true) :
    isUtf8 u = true := by
  obtain ⟨cs, hcs⟩ := isUtf8_iff.1 h
  obtain ⟨ds, hds⟩ := isUtf8_iff.1 hw
  clear h hw
  cases ds with
  | nil => exact isUtf8_iff.2 ⟨cs, by simpa [hds] using hcs⟩
  | cons d ds =>
    induction cs generalizing u with
    | nil => simp at hcs; rw [hcs.1]; rfl
    | cons c cs ih =>
      rw [List.flatMap_cons] at hcs
      rcases List.append_eq_append_iff.1 hcs with ⟨a, ha, hwa⟩ | ⟨a, ha, hwa⟩
      · cases a with
        | nil => exact isUtf8_iff.2 ⟨[c], by simpa using ha.symm⟩
        | cons x a =>
          have hpos : 0 < (String.utf8EncodeChar d).length := by
            rw [String.length_utf8EncodeChar]; exact d.utf8Size_pos
          have hx : (String.utf8EncodeChar d)[0] = x := by
            have hhead := congrArg List.head? (hds.symm.trans hwa)
            rw [List.flatMap_cons, List.head?_append_of_ne_nil _ (List.ne_nil_of_length_pos hpos),
              List.head?_eq_getElem?, List.getElem?_eq_getElem hpos] at hhead
            simpa using hhead
          have hlt : u.length < (String.utf8EncodeChar c).length := by rw [ha]; simp
          have hx' : (String.utf8EncodeChar c)[u.length] = x := by simp [ha]
          have h0 : u.length = 0 := by
            rw [← @UInt8.isUTF8FirstByte_getElem_utf8EncodeChar c _ hlt, hx', ← hx]
            exact UInt8.isUTF8FirstByte_getElem_utf8EncodeChar.2 rfl
          rw [List.length_eq_zero_iff.1 h0]; rfl
      · obtain ⟨es, h1⟩ := isUtf8_iff.1 (ih hwa.symm)
        exact isUtf8_iff.2 ⟨c :: es, by rw [ha, h1]; rfl⟩

theorem toNat_ofNat_ascii {n : Nat} (h : n < 128) : (Char.ofNat n).toNat = n := by
  have hn : n.isValidChar := .inl (by omega)
  simp only [Char.ofNat, hn, ↓reduceDIte]
  rfl

/-- ASCII bytes are told apart as characters. -/
theorem ofNat_ascii_inj {b d : UInt8} (hb : b.toNat < 128) (hd : d.toNat < 128) :
    Char.ofNat b.toNat = Char.ofNat d.toNat ↔ b = d := by
  refine ⟨fun h => ?_, fun h => by rw [h]⟩
  rw [← UInt8.toNat_inj, ← toNat_ofNat_ascii hb, ← toNat_ofNat_ascii hd, h]

theorem utf8EncodeChar_ofNat {n : Nat} (h : n < 128) :
    String.utf8EncodeChar (Char.ofNat n) = [UInt8.ofNat n] := by
  have hv : (Char.ofNat n).val.toNat = n := toNat_ofNat_ascii h
  simp only [String.utf8EncodeChar, hv, show n ≤ 127 by omega, ↓reduceIte]

theorem isUtf8_ascii : ∀ {b : Bytes}, (∀ c ∈ b, c < 0x80) → isUtf8 b = true
  | [], _ => rfl
  | c :: b, h => by
    have hc : c.toNat < 128 := UInt8.lt_iff_toNat_lt.1 (h c (by simp))
    have hone : isUtf8 [c] = true :=
      isUtf8_iff.2 ⟨[Char.ofNat c.toNat], by simp [utf8EncodeChar_ofNat hc]⟩
    exact isUtf8_append (u := [c]) hone (isUtf8_ascii fun x hx => h x (by simp [hx]))

/-! ## A string's characters from its bytes -/

theorem bytesOf_eq (s : String) : bytesOf s = s.toList.flatMap String.utf8EncodeChar := by
  have h : s.toByteArray = s.toList.utf8Encode := String.utf8Encode_toList.symm
  rw [bytesOf, h]
  simp [List.utf8Encode]

theorem bytesOf_append (s t : String) : bytesOf (s ++ t) = bytesOf s ++ bytesOf t := by
  simp [bytesOf_eq]

theorem bytesOf_ofList (cs : List Char) :
    bytesOf (String.ofList cs) = cs.flatMap String.utf8EncodeChar := by
  rw [bytesOf_eq, String.toList_ofList]

theorem flatMap_utf8_injective {cs ds : List Char}
    (h : cs.flatMap String.utf8EncodeChar = ds.flatMap String.utf8EncodeChar) : cs = ds := by
  rw [← bytesOf_ofList, ← bytesOf_ofList] at h
  simpa using congrArg String.toList (bytesOf_injective h)

/-- An ASCII byte at the front of a string's bytes is its first character. -/
theorem flatMap_eq_cons {cs : List Char} {b : UInt8} {t : Bytes} (hb : b < 0x80)
    (h : cs.flatMap String.utf8EncodeChar = b :: t) :
    ∃ cs', cs = Char.ofNat b.toNat :: cs' ∧ cs'.flatMap String.utf8EncodeChar = t := by
  cases cs with
  | nil => simp at h
  | cons c cs =>
    rw [List.flatMap_cons] at h
    have hmem : b ∈ String.utf8EncodeChar c := by
      have hpos := c.utf8Size_pos
      rw [← String.length_utf8EncodeChar] at hpos
      cases he : String.utf8EncodeChar c with
      | nil => simp [he] at hpos
      | cons x xs => simp [he] at h; simp [h.1]
    have hone := utf8EncodeChar_of_mem hmem hb
    rw [hone] at h
    simp only [List.cons_append, List.nil_append, List.cons.injEq, true_and] at h
    refine ⟨cs, ?_, h⟩
    have hb' : b.toNat < 128 := UInt8.lt_iff_toNat_lt.1 hb
    have henc := utf8EncodeChar_ofNat hb'
    rw [UInt8.ofNat_toNat, ← hone] at henc
    have hcs := @flatMap_utf8_injective [c] [Char.ofNat b.toNat] (by simpa using henc.symm)
    simpa using hcs

end Json
