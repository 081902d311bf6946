import JsonRpcClient.Json.Syntax

/-!
# Reading a JSON text, and why there is only one way to

`read` takes bytes to the tree that spells them. The recursion is on a fuel that the length of
the input always covers (`size_le_length`), so `read` is total and accepts every JSON text.

Main theorem `read_eq_some_iff`: `read s = some t` exactly when `s` is the spelling of `t`. So the
trees of `Syntax.lean` and the JSON texts are the same thing, and any reader that accepts exactly
the JSON texts is this one.
-/

namespace Json

/-! ## Whitespace, digits, string bodies and numbers -/

/-- The longest run of bytes of one class, and what is left. -/
def span (p : UInt8 → Bool) : Bytes → List { b : UInt8 // p b = true } × Bytes
  | [] => ([], [])
  | b :: r => if h : p b = true then (⟨b, h⟩ :: (span p r).1, (span p r).2) else ([], b :: r)

abbrev spanWs (s : Bytes) : Ws × Bytes := span isWs s
abbrev spanDigits (s : Bytes) : List Digit × Bytes := span isDigit s

/-- A string literal's body up to and including the closing quote. -/
def readBody : Bytes → Option (Str × Bytes)
  | [] => none
  | b :: r =>
    if b = 0x22 then some ([], r)
    else if b = 0x5c then
      match r with
      | [] => none
      | e :: r =>
        if e = 0x75 then
          match r with
          | h₁ :: h₂ :: h₃ :: h₄ :: r =>
            if h : isHex h₁ = true ∧ isHex h₂ = true ∧ isHex h₃ = true ∧ isHex h₄ = true then
              (readBody r).map fun (s, r) =>
                (.unicode ⟨h₁, h.1⟩ ⟨h₂, h.2.1⟩ ⟨h₃, h.2.2.1⟩ ⟨h₄, h.2.2.2⟩ :: s, r)
            else none
          | _ => none
        else
          match Escape.ofLetter e with
          | some e => (readBody r).map fun (s, r) => (.esc e :: s, r)
          | none => none
    else if h : isPlain b = true then (readBody r).map fun (s, r) => (.plain ⟨b, h⟩ :: s, r)
    else none

def readDigits : Bytes → Option (Digits × Bytes)
  | [] => none
  | b :: r =>
    if h : isDigit b = true then some (⟨⟨b, h⟩, (spanDigits r).1⟩, (spanDigits r).2) else none

def readInt : Bytes → Option (IntPart × Bytes)
  | [] => none
  | b :: r =>
    if b = 0x30 then some (.zero, r)
    else if h : isDigit19 b = true then some (.pos ⟨b, h⟩ (spanDigits r).1, (spanDigits r).2)
    else none

def readFrac : Bytes → Option (Option Digits × Bytes)
  | [] => some (none, [])
  | b :: r =>
    if b = 0x2e then (readDigits r).map fun (d, r) => (some d, r) else some (none, b :: r)

def readSign : Bytes → Option Bool × Bytes
  | [] => (none, [])
  | b :: r =>
    if b = 0x2d then (some true, r) else if b = 0x2b then (some false, r) else (none, b :: r)

def readExp : Bytes → Option (Option Exp × Bytes)
  | [] => some (none, [])
  | b :: r =>
    if b = 0x45 ∨ b = 0x65 then
      (readDigits (readSign r).2).map fun (d, r') => (some ⟨b == 0x45, (readSign r).1, d⟩, r')
    else some (none, b :: r)

def readMinus : Bytes → Bool × Bytes
  | [] => (false, [])
  | b :: r => if b = 0x2d then (true, r) else (false, b :: r)

def readNum (s : Bytes) : Option (Number × Bytes) := do
  let (i, r) ← readInt (readMinus s).2
  let (f, r) ← readFrac r
  let (e, r) ← readExp r
  return (⟨(readMinus s).1, i, f, e⟩, r)

/-! ## Values -/

/-- A fixed keyword. -/
def expect (kw : Bytes) (s : Bytes) : Option Bytes :=
  if kw.isPrefixOf s then some (s.drop kw.length) else none

/-- A member name and its colon: everything of a member up to its value's whitespace. -/
def readKey : Bytes → Option (Str × Ws × Bytes)
  | [] => none
  | b :: r =>
    if b = 0x22 then
      match readBody r with
      | none => none
      | some (key, r) =>
        match spanWs r with
        | (mid, c :: r) => if c = 0x3a then some (key, mid, r) else none
        | (_, []) => none
    else none

mutual
def readValue : Nat → Bytes → Option (Value × Bytes)
  | 0, _ => none
  | _ + 1, [] => none
  | n + 1, b :: r =>
    if b = 0x6e then (expect [0x75, 0x6c, 0x6c] r).map fun r => (.null, r)
    else if b = 0x74 then (expect [0x72, 0x75, 0x65] r).map fun r => (.bool true, r)
    else if b = 0x66 then (expect [0x61, 0x6c, 0x73, 0x65] r).map fun r => (.bool false, r)
    else if b = 0x22 then (readBody r).map fun (s, r) => (.str s, r)
    else if b = 0x5b then
      match spanWs r with
      | (_, []) => none
      | (pre, c :: r) =>
        if c = 0x5d then some (.arrNil pre, r)
        else do
          let (v, r) ← readValue n (c :: r)
          let (rest, r') ← readElems n (spanWs r).2
          return (.arr pre v (spanWs r).1 rest, r')
    else if b = 0x7b then
      match spanWs r with
      | (_, []) => none
      | (pre, c :: r) =>
        if c = 0x7d then some (.objNil pre, r)
        else do
          let (key, mid, r) ← readKey (c :: r)
          let (v, r₁) ← readValue n (spanWs r).2
          let (rest, r₂) ← readMembers n (spanWs r₁).2
          return (.obj pre key mid (spanWs r).1 v (spanWs r₁).1 rest, r₂)
    else (readNum (b :: r)).map fun (k, r) => (.num k, r)

def readElems : Nat → Bytes → Option (Elems × Bytes)
  | 0, _ => none
  | _ + 1, [] => none
  | n + 1, b :: r =>
    if b = 0x5d then some (.nil, r)
    else if b = 0x2c then do
      let (v, r₁) ← readValue n (spanWs r).2
      let (rest, r₂) ← readElems n (spanWs r₁).2
      return (.cons (spanWs r).1 v (spanWs r₁).1 rest, r₂)
    else none

def readMembers : Nat → Bytes → Option (Members × Bytes)
  | 0, _ => none
  | _ + 1, [] => none
  | n + 1, b :: r =>
    if b = 0x7d then some (.nil, r)
    else if b = 0x2c then do
      let (key, mid, r') ← readKey (spanWs r).2
      let (v, r₁) ← readValue n (spanWs r').2
      let (rest, r₂) ← readMembers n (spanWs r₁).2
      return (.cons (spanWs r).1 key mid (spanWs r').1 v (spanWs r₁).1 rest, r₂)
    else none
end

/-- The tree of a JSON text; `none` when the bytes are no JSON text. -/
def read (s : Bytes) : Option Text :=
  match readValue s.length (spanWs s).2 with
  | none => none
  | some (v, r) => if (spanWs r).2 = [] then some ⟨(spanWs s).1, v, (spanWs r).1⟩ else none

/-! ## Soundness: what is read is spelled by what it was read from -/

theorem span_render (p : UInt8 → Bool) (s : Bytes) : raw (span p s).1 ++ (span p s).2 = s := by
  fun_induction span p s with
  | case1 => rfl
  | case2 b r h ih => simpa using ih
  | case3 b r h => rfl

theorem spanWs_render (s : Bytes) : raw (spanWs s).1 ++ (spanWs s).2 = s := span_render isWs s

theorem readBody_render {s : Bytes} {x : Str} {r : Bytes} (h : readBody s = some (x, r)) :
    s = renderBody x ++ 0x22 :: r := by
  fun_induction readBody s generalizing x r with
  | case2 r' => cases h; rfl
  | case4 h₁ h₂ h₃ h₄ r' hx _ ih =>
    simp only [Option.map_eq_some_iff, Prod.exists, Prod.mk.injEq] at h
    obtain ⟨x', _, hr, rfl, rfl⟩ := h
    rw [ih hr]; rfl
  | case7 e r' hu e' he _ ih =>
    simp only [Option.map_eq_some_iff, Prod.exists, Prod.mk.injEq] at h
    obtain ⟨x', _, hr, rfl, rfl⟩ := h
    rw [ih hr, ← Escape.letter_of_ofLetter he]; rfl
  | case9 b r' _ _ hb ih =>
    simp only [Option.map_eq_some_iff, Prod.exists, Prod.mk.injEq] at h
    obtain ⟨x', _, hr, rfl, rfl⟩ := h
    rw [ih hr]; rfl
  | _ => cases h

theorem readDigits_render {s : Bytes} {d : Digits} {r : Bytes} (h : readDigits s = some (d, r)) :
    s = d.render ++ r := by
  unfold readDigits at h
  split at h
  · cases h
  · split at h
    · cases h; simp [Digits.render, span_render]
    · cases h

theorem readInt_render {s : Bytes} {i : IntPart} {r : Bytes} (h : readInt s = some (i, r)) :
    s = i.render ++ r := by
  unfold readInt at h
  split at h
  · cases h
  · split at h
    · cases h; simp_all [IntPart.render]
    · split at h
      · cases h; simp [IntPart.render, span_render]
      · cases h

theorem readFrac_render {s : Bytes} {f : Option Digits} {r : Bytes} (h : readFrac s = some (f, r)) :
    s = renderFrac f ++ r := by
  unfold readFrac at h
  split at h
  · cases h; rfl
  · split at h
    · simp only [Option.map_eq_some_iff, Prod.exists, Prod.mk.injEq] at h
      obtain ⟨d, _, hd, rfl, rfl⟩ := h
      rw [readDigits_render hd]; simp_all [renderFrac]
    · cases h; rfl

theorem readSign_render (s : Bytes) : renderSign (readSign s).1 ++ (readSign s).2 = s := by
  unfold readSign
  split
  · rfl
  · split
    · simp_all [renderSign]
    · split <;> simp_all [renderSign]

theorem readExp_render {s : Bytes} {e : Option Exp} {r : Bytes} (h : readExp s = some (e, r)) :
    s = renderExp e ++ r := by
  unfold readExp at h
  split at h
  · cases h; rfl
  · rename_i b r'
    split at h
    · rename_i hb
      simp only [Option.map_eq_some_iff, Prod.exists, Prod.mk.injEq] at h
      obtain ⟨d, _, hd, rfl, rfl⟩ := h
      have hmark : (if (b == 0x45) = true then 0x45 else 0x65) = b := by
        rcases hb with rfl | rfl <;> rfl
      simp only [renderExp, Exp.render, hmark, List.cons_append, List.append_assoc]
      rw [← readDigits_render hd, readSign_render]
    · cases h; rfl

theorem readMinus_render (s : Bytes) :
    (if (readMinus s).1 = true then [0x2d] else []) ++ (readMinus s).2 = s := by
  unfold readMinus
  split
  · rfl
  · split <;> simp_all

theorem readNum_render {s : Bytes} {k : Number} {r : Bytes} (h : readNum s = some (k, r)) :
    s = k.render ++ r := by
  simp only [readNum, Option.bind_eq_bind, Option.bind_eq_some_iff, Prod.exists,
    Option.pure_def, Option.some.injEq, Prod.mk.injEq] at h
  obtain ⟨i, r₁, hi, f, r₂, hf, e, r₃, he, rfl, rfl⟩ := h
  have hs := readMinus_render s
  rw [readInt_render hi, readFrac_render hf, readExp_render he] at hs
  exact hs.symm.trans (by simp [Number.render])

theorem expect_render {kw s r : Bytes} (h : expect kw s = some r) : s = kw ++ r := by
  unfold expect at h
  split at h
  · rename_i hk
    obtain ⟨t, rfl⟩ := List.isPrefixOf_iff_prefix.1 hk
    simpa using h
  · cases h

theorem readKey_render {s : Bytes} {key : Str} {mid : Ws} {r : Bytes}
    (h : readKey s = some (key, mid, r)) : s = renderStr key ++ (raw mid ++ 0x3a :: r) := by
  unfold readKey at h
  split at h
  · cases h
  · split at h
    · rename_i b r' hb
      split at h
      · cases h
      · rename_i key' r₁ hk
        split at h
        · rename_i mid' c r₂ hw
          split at h
          · rename_i hc
            cases h
            have hws := spanWs_render r₁
            rw [hw, hc] at hws
            rw [readBody_render hk, ← hws, hb]
            simp [renderStr]
          · cases h
        · cases h
    · cases h


/-- With fuel `n`, whatever the three readers take off the front is spelled by what they return. -/
structure Sound (n : Nat) : Prop where
  value : ∀ {s v r}, readValue n s = some (v, r) → s = v.render ++ r
  elems : ∀ {s es r}, readElems n s = some (es, r) → s = es.render ++ r
  members : ∀ {s ms r}, readMembers n s = some (ms, r) → s = ms.render ++ r

section
variable {n : Nat} (hn : Sound n)
include hn

theorem Sound.wsValue {s v r} (h : readValue n (spanWs s).2 = some (v, r)) :
    raw (spanWs s).1 ++ (v.render ++ r) = s := by rw [← hn.value h, spanWs_render]

theorem Sound.wsElems {s es r} (h : readElems n (spanWs s).2 = some (es, r)) :
    raw (spanWs s).1 ++ (es.render ++ r) = s := by rw [← hn.elems h, spanWs_render]

theorem Sound.wsMembers {s ms r} (h : readMembers n (spanWs s).2 = some (ms, r)) :
    raw (spanWs s).1 ++ (ms.render ++ r) = s := by rw [← hn.members h, spanWs_render]

theorem Sound.elems_succ {s es r} (h : readElems (n + 1) s = some (es, r)) :
    s = es.render ++ r := by
  cases s with
  | nil => simp [readElems] at h
  | cons b t =>
    simp only [readElems] at h
    split at h
    · rename_i hb; cases h; rw [hb]; rfl
    split at h
    · rename_i hb
      simp only [Option.bind_eq_bind, Option.bind_eq_some_iff, Prod.exists, Option.pure_def,
        Option.some.injEq, Prod.mk.injEq] at h
      obtain ⟨v, r₁, hv, es', r₂, he, rfl, rfl⟩ := h
      simp only [Elems.render, List.cons_append, List.append_assoc]
      rw [hn.wsElems he, hn.wsValue hv, hb]
    · cases h

theorem Sound.members_succ {s ms r} (h : readMembers (n + 1) s = some (ms, r)) :
    s = ms.render ++ r := by
  cases s with
  | nil => simp [readMembers] at h
  | cons b t =>
    simp only [readMembers] at h
    split at h
    · rename_i hb; cases h; rw [hb]; rfl
    split at h
    · rename_i hb
      simp only [Option.bind_eq_bind, Option.bind_eq_some_iff, Prod.exists, Option.pure_def,
        Option.some.injEq, Prod.mk.injEq] at h
      obtain ⟨key, mid, r₀, hk, v, r₁, hv, ms', r₂, hm, rfl, rfl⟩ := h
      simp only [Members.render, List.cons_append, List.append_assoc]
      rw [hn.wsMembers hm, hn.wsValue hv, ← readKey_render hk, spanWs_render, hb]
    · cases h

theorem Sound.value_succ {s v r} (h : readValue (n + 1) s = some (v, r)) : s = v.render ++ r := by
  cases s with
  | nil => simp [readValue] at h
  | cons b t =>
    simp only [readValue] at h
    split at h
    · rename_i hb
      obtain ⟨_, he, hv⟩ := Option.map_eq_some_iff.1 h
      cases hv; rw [hb, expect_render he]; rfl
    split at h
    · rename_i hb
      obtain ⟨_, he, hv⟩ := Option.map_eq_some_iff.1 h
      cases hv; rw [hb, expect_render he]; rfl
    split at h
    · rename_i hb
      obtain ⟨_, he, hv⟩ := Option.map_eq_some_iff.1 h
      cases hv; rw [hb, expect_render he]; rfl
    split at h
    · rename_i hb
      obtain ⟨⟨x, _⟩, hx, hv⟩ := Option.map_eq_some_iff.1 h
      cases hv; rw [hb, readBody_render hx]; simp [Value.render, renderStr]
    split at h
    · -- an array: what follows the whitespace decides between `arrNil` and `arr`
      rename_i hb
      have hws := spanWs_render t
      split at h
      · cases h
      · rename_i pre c t' hp
        rw [hp] at hws
        split at h
        · rename_i hc; cases h; rw [← hws, hb, hc]; simp [Value.render]
        · simp only [Option.bind_eq_bind, Option.bind_eq_some_iff, Prod.exists, Option.pure_def,
            Option.some.injEq, Prod.mk.injEq] at h
          obtain ⟨v', r₁, hv, es, r₂, he, rfl, rfl⟩ := h
          simp only [Value.render, List.cons_append, List.append_assoc]
          rw [hn.wsElems he, ← hn.value hv, hws, hb]
    split at h
    · rename_i hb
      have hws := spanWs_render t
      split at h
      · cases h
      · rename_i pre c t' hp
        rw [hp] at hws
        split at h
        · rename_i hc; cases h; rw [← hws, hb, hc]; simp [Value.render]
        · simp only [Option.bind_eq_bind, Option.bind_eq_some_iff, Prod.exists, Option.pure_def,
            Option.some.injEq, Prod.mk.injEq] at h
          obtain ⟨key, mid, r₀, hk, v', r₁, hv, ms, r₂, hm, rfl, rfl⟩ := h
          simp only [Value.render, List.cons_append, List.append_assoc]
          rw [hn.wsMembers hm, hn.wsValue hv, ← readKey_render hk, hws, hb]
    · obtain ⟨⟨k, _⟩, hk, hv⟩ := Option.map_eq_some_iff.1 h
      cases hv; rw [readNum_render hk]; rfl

end

theorem sound : ∀ n, Sound n
  | 0 => ⟨by simp [readValue], by simp [readElems], by simp [readMembers]⟩
  | n + 1 => ⟨(sound n).value_succ, (sound n).elems_succ, (sound n).members_succ⟩

theorem render_of_read {s : Bytes} {t : Text} (h : read s = some t) : t.render = s := by
  unfold read at h
  split at h
  · cases h
  · rename_i v r hv
    split at h
    · rename_i hr
      cases h
      have hws := spanWs_render s
      have hpost := spanWs_render r
      rw [hr, List.append_nil] at hpost
      rw [Text.render, hpost, ← (sound _).value hv, hws]
    · cases h

/-! ## Completeness: the spelling of a tree is read back as that tree

A run of bytes is only read back when what follows does not prolong it, so each lemma about a run
asks for its stop condition on the rest. -/

/-- The next byte, if any, is not of class `p`. -/
def Stops (p : UInt8 → Bool) (r : Bytes) : Prop := ∀ b ∈ r.head?, p b = false

/-- Bytes that may follow a number without prolonging it. -/
def isNumByte (b : UInt8) : Bool := isDigit b || b == 0x2e || b == 0x45 || b == 0x65

@[simp] theorem stops_nil (p : UInt8 → Bool) : Stops p [] := by simp [Stops]

@[simp] theorem stops_cons {p : UInt8 → Bool} {b : UInt8} {r : Bytes} :
    Stops p (b :: r) ↔ p b = false := by simp [Stops]

theorem Stops.mono {p q : UInt8 → Bool} {r : Bytes} (h : Stops q r)
    (hpq : ∀ b, p b = true → q b = true) :
    Stops p r := fun b hb => by
  have := h b hb
  cases hp : p b with
  | false => rfl
  | true => rw [hpq b hp] at this; cases this

theorem span_raw {p : UInt8 → Bool} (l : List { b : UInt8 // p b = true }) {r : Bytes}
    (h : Stops p r) : span p (raw l ++ r) = (l, r) := by
  induction l with
  | nil =>
    cases r with
    | nil => rfl
    | cons b r => simp only [stops_cons] at h; simp [span, h]
  | cons x l ih => simp [span, x.property, ih]

theorem readBody_complete (x : Str) (r : Bytes) : readBody
    (renderBody x ++ 0x22 :: r) = some (x, r) := by
  induction x with
  | nil => rw [renderBody, List.flatMap_nil, List.nil_append, readBody.eq_def]; rfl
  | cons i x ih =>
    have hx : renderBody (i :: x) = i.render ++ renderBody x := rfl
    rw [hx, List.append_assoc]
    cases i with
    | plain b =>
      obtain ⟨b, hb⟩ := b
      have h1 : b ≠ 0x22 := by rintro rfl; exact absurd hb (by decide)
      have h2 : b ≠ 0x5c := by rintro rfl; exact absurd hb (by decide)
      rw [readBody.eq_def]
      simp [StrItem.render, h1, h2, hb, ih]
    | esc e =>
      rw [readBody.eq_def]
      simp [StrItem.render, e.letter_ne_u, e.ofLetter_letter, ih]
    | unicode a b c d =>
      rw [readBody.eq_def]
      simp [StrItem.render, a.property, b.property, c.property, d.property, ih]

theorem readDigits_complete (d : Digits) {r : Bytes} (h : Stops isDigit r) :
    readDigits (d.render ++ r) = some (d, r) := by
  simp [Digits.render, readDigits, d.head.property, span_raw d.tail h]

theorem readInt_complete (i : IntPart) {r : Bytes} (h : Stops isDigit r) :
    readInt (i.render ++ r) = some (i, r) := by
  cases i with
  | zero => simp [IntPart.render, readInt]
  | pos d ds =>
    obtain ⟨d, hd⟩ := d
    have h0 : d ≠ 0x30 := by rintro rfl; exact absurd hd (by decide)
    simp [IntPart.render, readInt, hd, h0, span_raw ds h]

theorem readFrac_complete (f : Option Digits) {r : Bytes} (h : Stops isDigit r)
    (hdot : Stops (· == 0x2e) r) : readFrac (renderFrac f ++ r) = some (f, r) := by
  cases f with
  | none =>
    cases r with
    | nil => rfl
    | cons b r =>
      have hb : b ≠ 0x2e := by simpa using hdot
      simp [renderFrac, readFrac, hb]
  | some d => simp [renderFrac, readFrac, readDigits_complete d h]

theorem readSign_complete (g : Option Bool) (d : Digits) (r : Bytes) :
    readSign (renderSign g ++ (d.render ++ r)) = (g, d.render ++ r) := by
  obtain ⟨⟨b, hb⟩, ds⟩ := d
  have h1 : b ≠ 0x2d := by rintro rfl; exact absurd hb (by decide)
  have h2 : b ≠ 0x2b := by rintro rfl; exact absurd hb (by decide)
  match g with
  | none => simp [renderSign, Digits.render, readSign, h1, h2]
  | some true => simp [renderSign, readSign]
  | some false => simp [renderSign, readSign]

theorem readExp_complete (e : Option Exp) {r : Bytes} (h : Stops isNumByte r) :
    readExp (renderExp e ++ r) = some (e, r) := by
  have hd : Stops isDigit r := h.mono fun b hb => by simp [isNumByte, hb]
  cases e with
  | none =>
    cases r with
    | nil => rfl
    | cons b r =>
      have hb : ¬ (b = 0x45 ∨ b = 0x65) := by
        rintro (rfl | rfl) <;> exact absurd (stops_cons.1 h) (by decide)
      simp [renderExp, readExp, hb]
  | some e =>
    obtain ⟨u, g, d⟩ := e
    cases u <;>
      simp [renderExp, Exp.render, readExp, readSign_complete, readDigits_complete d hd]

theorem readMinus_complete (neg : Bool) (i : IntPart) (r : Bytes) :
    readMinus ((if neg then [0x2d] else []) ++ (i.render ++ r)) = (neg, i.render ++ r) := by
  cases neg with
  | true => simp [readMinus]
  | false =>
    cases i with
    | zero => simp [IntPart.render, readMinus]
    | pos d ds =>
      obtain ⟨d, hd⟩ := d
      have h0 : d ≠ 0x2d := by rintro rfl; exact absurd hd (by decide)
      simp [IntPart.render, readMinus, h0]

/-- After the integer part come a fraction, an exponent or the rest, none of which is a digit. -/
theorem stops_tail (f : Option Digits) (e : Option Exp) {r : Bytes} (h : Stops isNumByte r) :
    Stops isDigit (renderFrac f ++ (renderExp e ++ r)) ∧ Stops isDigit (renderExp e ++ r) ∧
      Stops (· == 0x2e) (renderExp e ++ r) := by
  have hd : Stops isDigit r := h.mono fun b hb => by simp [isNumByte, hb]
  have hdot : Stops (· == 0x2e) r := h.mono fun b hb => by simp_all [isNumByte]
  have he : Stops isDigit (renderExp e ++ r) ∧ Stops (· == 0x2e) (renderExp e ++ r) := by
    cases e with
    | none => exact ⟨hd, hdot⟩
    | some e => obtain ⟨u, _, _⟩ := e; cases u <;> simp [renderExp, Exp.render, isDigit]
  cases f with
  | none => exact ⟨he.1, he⟩
  | some d => exact ⟨by simp [renderFrac, isDigit], he⟩

theorem readNum_complete (k : Number) {r : Bytes} (h : Stops isNumByte r) :
    readNum (k.render ++ r) = some (k, r) := by
  obtain ⟨neg, i, f, e⟩ := k
  obtain ⟨h1, h2, h3⟩ := stops_tail f e h
  simp only [readNum, Number.render, List.append_assoc, readMinus_complete, readInt_complete i h1,
    readFrac_complete f h2 h3, readExp_complete e h, Option.bind_eq_bind, Option.bind_some,
    Option.pure_def]

theorem readKey_complete (key : Str) (mid : Ws) (r : Bytes) :
    readKey (renderStr key ++ (raw mid ++ 0x3a :: r)) = some (key, mid, r) := by
  have hw : spanWs (raw mid ++ 0x3a :: r) = (mid, 0x3a :: r) := span_raw mid (by simp [isWs])
  simp [renderStr, readKey, readBody_complete, hw]

/-! ### The fuel is enough -/

mutual
def Value.size : Value → Nat
  | .arr _ v _ rest => v.size + rest.size + 1
  | .obj _ _ _ _ v _ rest => v.size + rest.size + 1
  | _ => 1

def Elems.size : Elems → Nat
  | .nil => 1
  | .cons _ v _ rest => v.size + rest.size + 1

def Members.size : Members → Nat
  | .nil => 1
  | .cons _ _ _ _ v _ rest => v.size + rest.size + 1
end

theorem Number.render_cons (k : Number) :
    ∃ b t, k.render = b :: t ∧ (b = 0x2d ∨ isDigit b = true) := by
  obtain ⟨neg, i, f, e⟩ := k
  cases neg with
  | true => exact ⟨_, _, rfl, .inl rfl⟩
  | false =>
    cases i with
    | zero => exact ⟨_, _, rfl, .inr (by decide)⟩
    | pos d ds =>
      refine ⟨_, _, rfl, .inr ?_⟩
      have hd := d.property
      simp only [isDigit19, isDigit, Bool.and_eq_true, decide_eq_true_eq] at hd ⊢
      exact ⟨UInt8.le_trans (by decide) hd.1, hd.2⟩

mutual
theorem Value.size_le_length : ∀ v : Value, v.size ≤ v.render.length
  | .null => by simp [Value.size, Value.render]
  | .bool b => by cases b <;> simp [Value.size, Value.render]
  | .num k => by
    obtain ⟨b, t, h, _⟩ := k.render_cons
    simp [Value.size, Value.render, h]
  | .str s => by simp [Value.size, Value.render, renderStr]
  | .arrNil ws => by simp [Value.size, Value.render]
  | .objNil ws => by simp [Value.size, Value.render]
  | .arr pre v post rest => by
    have hv := v.size_le_length
    have hr := rest.size_le_length
    simp only [Value.size, Value.render, List.length_cons, List.length_append]; omega
  | .obj pre key mid pre' v post rest => by
    have hv := v.size_le_length
    have hr := rest.size_le_length
    simp only [Value.size, Value.render, List.length_cons, List.length_append]; omega

theorem Elems.size_le_length : ∀ es : Elems, es.size ≤ es.render.length
  | .nil => by simp [Elems.size, Elems.render]
  | .cons pre v post rest => by
    have hv := v.size_le_length
    have hr := rest.size_le_length
    simp only [Elems.size, Elems.render, List.length_cons, List.length_append]; omega

theorem Members.size_le_length : ∀ ms : Members, ms.size ≤ ms.render.length
  | .nil => by simp [Members.size, Members.render]
  | .cons pre key mid pre' v post rest => by
    have hv := v.size_le_length
    have hr := rest.size_le_length
    simp only [Members.size, Members.render, List.length_cons, List.length_append]; omega
end

/-! ### Values -/

/-- The first byte of a value is neither whitespace nor a closing bracket. -/
theorem Value.render_cons (v : Value) :
    ∃ b t, v.render = b :: t ∧ isWs b = false ∧ b ≠ 0x5d := by
  cases v with
  | num k =>
    obtain ⟨b, t, h, hb⟩ := k.render_cons
    refine ⟨b, t, h, ?_⟩
    rcases hb with rfl | hb
    · decide
    · constructor
      · cases hw : isWs b with
        | false => rfl
        | true =>
          simp only [isWs, Bool.or_eq_true, beq_iff_eq] at hw
          rcases hw with ((rfl | rfl) | rfl) | rfl <;> exact absurd hb (by decide)
      · rintro rfl; exact absurd hb (by decide)
  | bool b => cases b <;> exact ⟨_, _, rfl, by decide⟩
  | _ => exact ⟨_, _, rfl, by decide⟩

/-- What follows an element or a member starts with a comma or a closing bracket. -/
theorem Elems.render_cons (es : Elems) : ∃ b t, es.render = b :: t ∧ isWs b = false ∧
    isNumByte b = false := by
  cases es <;> exact ⟨_, _, rfl, by decide⟩

theorem Members.render_cons (ms : Members) : ∃ b t, ms.render = b :: t ∧ isWs b = false ∧
    isNumByte b = false := by
  cases ms <;> exact ⟨_, _, rfl, by decide⟩

theorem isNumByte_of_isWs {b : UInt8} (h : isWs b = true) : isNumByte b = false := by
  simp only [isWs, Bool.or_eq_true, beq_iff_eq] at h
  rcases h with ((rfl | rfl) | rfl) | rfl <;> decide

/-- A number may be followed by whitespace and then anything that does not prolong it. -/
theorem stops_ws (ws : Ws) {r : Bytes} (h : Stops isNumByte r) : Stops isNumByte (raw ws ++ r) := by
  cases ws with
  | nil => exact h
  | cons w ws => simpa using isNumByte_of_isWs w.property

theorem spanWs_value (ws : Ws) (v : Value) (r : Bytes) :
    spanWs (raw ws ++ (v.render ++ r)) = (ws, v.render ++ r) := by
  obtain ⟨b, t, h, hb, -⟩ := v.render_cons
  exact span_raw ws (by simp [h, hb])

theorem spanWs_key (ws : Ws) (key : Str) (r : Bytes) :
    spanWs (raw ws ++ (renderStr key ++ r)) = (ws, renderStr key ++ r) :=
  span_raw ws (by simp [renderStr, isWs])

theorem spanWs_elems (ws : Ws) (es : Elems) (r : Bytes) :
    spanWs (raw ws ++ (es.render ++ r)) = (ws, es.render ++ r) := by
  obtain ⟨b, t, h, hb, -⟩ := es.render_cons
  exact span_raw ws (by simp [h, hb])

theorem spanWs_members (ws : Ws) (ms : Members) (r : Bytes) :
    spanWs (raw ws ++ (ms.render ++ r)) = (ws, ms.render ++ r) := by
  obtain ⟨b, t, h, hb, -⟩ := ms.render_cons
  exact span_raw ws (by simp [h, hb])

theorem stops_elems (ws : Ws) (es : Elems) (r : Bytes) :
    Stops isNumByte (raw ws ++ (es.render ++ r)) := by
  obtain ⟨b, t, h, -, hb⟩ := es.render_cons
  exact stops_ws ws (by simp [h, hb])

theorem stops_members (ws : Ws) (ms : Members) (r : Bytes) :
    Stops isNumByte (raw ws ++ (ms.render ++ r)) := by
  obtain ⟨b, t, h, -, hb⟩ := ms.render_cons
  exact stops_ws ws (by simp [h, hb])

mutual
theorem readValue_complete : ∀ (v : Value) (n : Nat) (r : Bytes), v.size ≤ n → Stops isNumByte r →
    readValue n (v.render ++ r) = some (v, r)
  | v, 0, _, hn, _ => absurd hn (by cases v <;> simp [Value.size])
  | .null, _ + 1, r, _, _ => by simp [Value.render, readValue, expect]
  | .bool true, _ + 1, r, _, _ => by simp [Value.render, readValue, expect]
  | .bool false, _ + 1, r, _, _ => by simp [Value.render, readValue, expect]
  | .num k, _ + 1, r, _, hr => by
    have hk := readNum_complete k hr
    obtain ⟨b, t, h, hb⟩ := k.render_cons
    have hne : b ≠ 0x6e ∧ b ≠ 0x74 ∧ b ≠ 0x66 ∧ b ≠ 0x22 ∧ b ≠ 0x5b ∧ b ≠ 0x7b := by
      refine ⟨?_, ?_, ?_, ?_, ?_, ?_⟩ <;> rintro rfl <;> exact absurd hb (by decide)
    simp only [Value.render, h, List.cons_append] at hk ⊢
    simp [readValue, hne, hk]
  | .str s, _ + 1, r, _, _ => by
    simp [Value.render, renderStr, readValue, readBody_complete]
  | .arrNil ws, _ + 1, r, _, _ => by
    have hw : spanWs (raw ws ++ 0x5d :: r) = (ws, 0x5d :: r) := span_raw ws (by simp [isWs])
    simp [Value.render, readValue, hw]
  | .objNil ws, _ + 1, r, _, _ => by
    have hw : spanWs (raw ws ++ 0x7d :: r) = (ws, 0x7d :: r) := span_raw ws (by simp [isWs])
    simp [Value.render, readValue, hw]
  | .arr pre v post rest, n + 1, r, hn, _ => by
    simp only [Value.size] at hn
    have hv := readValue_complete v n _ (by omega) (stops_elems post rest r)
    have he := readElems_complete rest n r (by omega)
    have hw := spanWs_value pre v (raw post ++ (rest.render ++ r))
    obtain ⟨b, t, h, -, hb⟩ := v.render_cons
    simp only [Value.render, List.cons_append, List.append_assoc, readValue]
    rw [hw]
    simp only [h, List.cons_append] at hv ⊢
    simp [hb, hv, spanWs_elems, he]
  | .obj pre key mid pre' v post rest, n + 1, r, hn, _ => by
    simp only [Value.size] at hn
    have hv := readValue_complete v n _ (by omega) (stops_members post rest r)
    have hm := readMembers_complete rest n r (by omega)
    have hk := readKey_complete key mid (raw pre' ++ (v.render ++ (raw post ++ (rest.render ++ r))))
    simp only [Value.render, List.cons_append, List.append_assoc, readValue]
    rw [spanWs_key]
    simp only [renderStr, List.cons_append, List.append_assoc, List.nil_append] at hk ⊢
    simp [hk, spanWs_value, hv, spanWs_members, hm]

theorem readElems_complete : ∀ (es : Elems) (n : Nat) (r : Bytes), es.size ≤ n →
    readElems n (es.render ++ r) = some (es, r)
  | es, 0, _, hn => absurd hn (by cases es <;> simp [Elems.size])
  | .nil, _ + 1, r, _ => by simp [Elems.render, readElems]
  | .cons pre v post rest, n + 1, r, hn => by
    simp only [Elems.size] at hn
    have hv := readValue_complete v n _ (by omega) (stops_elems post rest r)
    have he := readElems_complete rest n r (by omega)
    simp [Elems.render, readElems, spanWs_value, hv, spanWs_elems, he]

theorem readMembers_complete : ∀ (ms : Members) (n : Nat) (r : Bytes), ms.size ≤ n →
    readMembers n (ms.render ++ r) = some (ms, r)
  | ms, 0, _, hn => absurd hn (by cases ms <;> simp [Members.size])
  | .nil, _ + 1, r, _ => by simp [Members.render, readMembers]
  | .cons pre key mid pre' v post rest, n + 1, r, hn => by
    simp only [Members.size] at hn
    have hv := readValue_complete v n _ (by omega) (stops_members post rest r)
    have hm := readMembers_complete rest n r (by omega)
    have hk := readKey_complete key mid (raw pre' ++ (v.render ++ (raw post ++ (rest.render ++ r))))
    simp [Members.render, readMembers, spanWs_key, hk, spanWs_value, hv, spanWs_members, hm]
end

theorem read_render (t : Text) : read t.render = some t := by
  obtain ⟨pre, v, post⟩ := t
  have hlen : v.size ≤ (Text.render ⟨pre, v, post⟩).length := by
    have := v.size_le_length
    simp only [Text.render, List.length_append]; omega
  have hpost : spanWs (raw post) = (post, []) := by simpa using span_raw post (stops_nil isWs)
  have hstop : Stops isNumByte (raw post) := by simpa using stops_ws post (stops_nil _)
  have hv := readValue_complete v _ (raw post) hlen hstop
  rw [Text.render] at hv ⊢
  rw [read, spanWs_value, hv]
  simp [hpost]

/-- **Reading is the inverse of spelling.** -/
theorem read_eq_some_iff {s : Bytes} {t : Text} : read s = some t ↔ t.render = s :=
  ⟨render_of_read, fun h => h ▸ read_render t⟩

/-- No two trees have the same spelling. -/
theorem Text.render_injective {t u : Text} (h : t.render = u.render) : t = u := by
  have ht := read_render t
  rw [h, read_render] at ht
  exact (Option.some.inj ht).symm

end Json
