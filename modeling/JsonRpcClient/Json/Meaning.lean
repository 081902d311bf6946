import JsonRpcClient.Json.Read
import JsonRpcClient.Json.Utf8

/-!
# What a spelled JSON value means, and where its parts are

Strings denote Unicode strings (`decode`), except that a literal with a lone surrogate or with
bytes that are not UTF-8 denotes none; number literals without fraction and exponent denote
integers; arrays and objects give their elements and members together with the offset each one
starts at (`elements`, `fields`), so that a part can be cut out of the text again
(`Occurs.elements`, `Occurs.fields`).
-/

namespace Json

/-! ## Strings -/

/-- The byte an escape stands for. -/
def Escape.byte : Escape → UInt8
  | .quote => 0x22
  | .backslash => 0x5c
  | .slash => 0x2f
  | .backspace => 0x08
  | .formFeed => 0x0c
  | .lineFeed => 0x0a
  | .carriageReturn => 0x0d
  | .tab => 0x09

def HexDigit.toNat (d : HexDigit) : Nat :=
  if d.val.toNat < 0x3a then d.val.toNat - 0x30
  else if d.val.toNat < 0x47 then d.val.toNat - 0x37
  else d.val.toNat - 0x57

/-- The UTF-16 code unit of `\uXXXX`. -/
def codeUnit (a b c d : HexDigit) : Nat :=
  ((HexDigit.toNat a * 16 + HexDigit.toNat b) * 16 + HexDigit.toNat c) * 16 + HexDigit.toNat d

def isLead (n : Nat) : Bool := 0xd800 ≤ n && n < 0xdc00
def isTrail (n : Nat) : Bool := 0xdc00 ≤ n && n < 0xe000

/-- The UTF-8 bytes of a body with its escapes replaced; `none` on a lone surrogate. -/
def unescape : Str → Option Bytes
  | [] => some []
  | .plain b :: s => (unescape s).map (b.val :: ·)
  | .esc e :: s => (unescape s).map (e.byte :: ·)
  | .unicode a b c d :: s =>
    if isTrail (codeUnit a b c d) then none
    else if isLead (codeUnit a b c d) then
      match s with
      | .unicode a' b' c' d' :: s =>
        if isTrail (codeUnit a' b' c' d') then
          (unescape s).map (String.utf8EncodeChar (Char.ofNat
            (0x10000 + (codeUnit a b c d - 0xd800) * 0x400 + (codeUnit a' b' c' d' - 0xdc00))) ++ ·)
        else none
      | _ => none
    else (unescape s).map (String.utf8EncodeChar (Char.ofNat (codeUnit a b c d)) ++ ·)

/-- The string a literal denotes. -/
def Str.decode (s : Str) : Option String := (unescape s).bind utf8?

def StrItem.isPlain : StrItem → Bool
  | .plain _ => true
  | _ => false

/-- No escape sequence occurs in the literal. -/
def Str.unescaped (s : Str) : Bool := s.all StrItem.isPlain

/-! ## Integers -/

def Digit.toNat (d : Digit) : Nat := d.val.toNat - 0x30

def digitsToNat (acc : Nat) (ds : List Digit) : Nat := ds.foldl (fun n d => n * 10 + d.toNat) acc

def IntPart.toNat : IntPart → Nat
  | .zero => 0
  | .pos d ds => digitsToNat (d.val.toNat - 0x30) ds

/-- A literal with neither fraction nor exponent. -/
def Number.isInt (n : Number) : Bool := n.frac.isNone && n.exp.isNone

/-- The value of an unsigned integer literal. -/
def Number.nat? (n : Number) : Option Nat := if n.isInt && !n.neg then some n.int.toNat else none

/-- The value of an integer literal. -/
def Number.int? (n : Number) : Option Int :=
  if n.isInt then some (if n.neg then -(n.int.toNat : Int) else n.int.toNat) else none

/-! ## Elements and members, with their offsets -/

/-- A value and the offset of its first byte in the text it is part of. -/
structure Located where
  start : Nat
  value : Value
deriving DecidableEq, Repr

structure Field where
  key : Str
  value : Located
deriving DecidableEq, Repr

def Elems.located (p : Nat) : Elems → List Located
  | .nil => []
  | .cons pre v post rest =>
    ⟨p + 1 + pre.length, v⟩ :: rest.located (p + 1 + pre.length + v.render.length + post.length)

/-- Where a member's value starts when its comma or brace is at `p`. -/
def memberStart (p : Nat) (pre : Ws) (key : Str) (mid pre' : Ws) : Nat :=
  p + 1 + pre.length + (renderStr key).length + mid.length + 1 + pre'.length

def Members.located (p : Nat) : Members → List Field
  | .nil => []
  | .cons pre key mid pre' v post rest =>
    ⟨key, memberStart p pre key mid pre', v⟩ ::
      rest.located (memberStart p pre key mid pre' + v.render.length + post.length)

/-- The elements of an array. -/
def Located.elements (l : Located) : Option (List Located) :=
  match l.value with
  | .arrNil _ => some []
  | .arr pre v post rest => some ((Elems.cons pre v post rest).located l.start)
  | _ => none

/-- The members of an object, in the order they are written. -/
def Located.fields (l : Located) : Option (List Field) :=
  match l.value with
  | .objNil _ => some []
  | .obj pre key mid pre' v post rest =>
    some ((Members.cons pre key mid pre' v post rest).located l.start)
  | _ => none

def Value.isArray : Value → Bool
  | .arrNil _ | .arr .. => true
  | _ => false

def Value.isObject : Value → Bool
  | .objNil _ | .obj .. => true
  | _ => false

/-- An array or an object. -/
def Value.isStructured : Value → Bool
  | .arrNil _ | .arr .. | .objNil _ | .obj .. => true
  | _ => false

theorem Value.isStructured_iff (v : Value) :
    v.isStructured = true ↔ v.isObject = true ∨ v.isArray = true := by
  cases v <;> simp [isStructured, isObject, isArray]

theorem Value.isArray_of_isObject {v : Value} (h : v.isObject = true) : v.isArray = false := by
  cases v <;> first | rfl | cases h

theorem Located.elements_isSome (l : Located) : l.elements.isSome = l.value.isArray := by
  obtain ⟨p, v⟩ := l
  cases v <;> rfl

theorem Located.fields_isSome (l : Located) : l.fields.isSome = l.value.isObject := by
  obtain ⟨p, v⟩ := l
  cases v <;> rfl

/-- `l` is an object with a member `n`, and its value is `x`. -/
def Located.HasMember (l : Located) (n : String) (x : Located) : Prop :=
  ∃ fs, l.fields = some fs ∧ ∃ f ∈ fs, f.key.decode = some n ∧ f.value = x

/-- A string literal denoting `s`. -/
def Located.IsString (l : Located) (s : String) : Prop := ∃ x, l.value = .str x ∧ x.decode = some s

/-- An unsigned integer literal of value `k`. -/
def Located.IsNat (l : Located) (k : Nat) : Prop := ∃ n, l.value = .num n ∧ n.nat? = some k

/-- An integer literal of value `k`. -/
def Located.IsInt (l : Located) (k : Int) : Prop := ∃ n, l.value = .num n ∧ n.int? = some k

theorem Located.HasMember.isObject {l x : Located} {n : String} (h : l.HasMember n x) :
    l.value.isObject = true := by
  obtain ⟨fs, hfs, -⟩ := h
  rw [← l.fields_isSome, hfs]; rfl

/-- The members of the object `l`, in whatever order, are those listed: a name, and what its value
is. -/
def Located.HasMembers (l : Located) (ms : List (String × (Located → Prop))) : Prop :=
  ∃ fs ord, l.fields = some fs ∧ fs.Perm ord ∧
    List.Forall₂ (fun f m => f.key.decode = some m.1 ∧ m.2 f.value) ord ms

/-- What is said about the values may be weakened. -/
theorem Located.HasMembers.imp {l : Located} {ms ms' : List (String × (Located → Prop))}
    (h : l.HasMembers ms)
    (himp : List.Forall₂ (fun m m' => m.1 = m'.1 ∧ ∀ x, m.2 x → m'.2 x) ms ms') :
    l.HasMembers ms' := by
  obtain ⟨fs, ord, hfs, hperm, hord⟩ := h
  refine ⟨fs, ord, hfs, hperm, ?_⟩
  clear hperm
  induction hord generalizing ms' with
  | nil => cases himp; exact .nil
  | cons hfm _ ih =>
    cases himp with
    | cons hm hms => exact .cons ⟨hm.1 ▸ hfm.1, hm.2 _ hfm.2⟩ (ih hms)

def Text.root (t : Text) : Located := ⟨t.pre.length, t.value⟩

/-- `v` is written in `s` at offset `l.start`. -/
def Occurs (s : Bytes) (l : Located) : Prop :=
  ∃ u w, s = u ++ (l.value.render ++ w) ∧ u.length = l.start

theorem Occurs.root (t : Text) : Occurs t.render t.root :=
  ⟨raw t.pre, raw t.post, rfl, by simp [Text.root]⟩

theorem Elems.render_eq (es : Elems) (w : Bytes) :
    ∃ c, es.render ++ w = c :: (es.render.tail ++ w) := by
  obtain ⟨b, t, h, -⟩ := es.render_cons
  exact ⟨b, by rw [h]; rfl⟩

theorem Members.render_eq (ms : Members) (w : Bytes) :
    ∃ c, ms.render ++ w = c :: (ms.render.tail ++ w) := by
  obtain ⟨b, t, h, -⟩ := ms.render_cons
  exact ⟨b, by rw [h]; rfl⟩

/-- Whatever byte `c` opens the list: the bracket for the first element, a comma after that. -/
theorem Occurs.elemsLocated {s : Bytes} : ∀ {es : Elems} {u w : Bytes} {c : UInt8},
    s = u ++ c :: (es.render.tail ++ w) → ∀ l ∈ es.located u.length, Occurs s l
  | .nil, _, _, _, _, l, hl => by simp [Elems.located] at hl
  | .cons pre v post rest, u, w, c, hs, l, hl => by
    simp only [Elems.located, List.mem_cons] at hl
    have hs' : s = (u ++ c :: raw pre) ++ (v.render ++ (raw post ++ (rest.render ++ w))) := by
      rw [hs]; simp [Elems.render]
    rcases hl with rfl | hl
    · exact ⟨_, _, hs', by simp; omega⟩
    · obtain ⟨c', hc'⟩ := rest.render_eq w
      have hs'' : s = (u ++ c :: raw pre ++ v.render ++ raw post) ++
          c' :: (rest.render.tail ++ w) := by
        rw [hs', hc']; simp
      apply elemsLocated hs'' l
      convert hl using 2
      simp; omega

theorem Occurs.membersLocated {s : Bytes} : ∀ {ms : Members} {u w : Bytes} {c : UInt8},
    s = u ++ c :: (ms.render.tail ++ w) → ∀ f ∈ ms.located u.length, Occurs s f.value
  | .nil, _, _, _, _, f, hf => by simp [Members.located] at hf
  | .cons pre key mid pre' v post rest, u, w, c, hs, f, hf => by
    simp only [Members.located, List.mem_cons] at hf
    have hs' : s = (u ++ c :: (raw pre ++ (renderStr key ++ (raw mid ++ 0x3a :: raw pre')))) ++
        (v.render ++ (raw post ++ (rest.render ++ w))) := by
      rw [hs]; simp [Members.render]
    rcases hf with rfl | hf
    · exact ⟨_, _, hs', by simp [memberStart]; omega⟩
    · obtain ⟨c', hc'⟩ := rest.render_eq w
      have hs'' : s = (u ++ c :: (raw pre ++ (renderStr key ++ (raw mid ++ 0x3a :: raw pre'))) ++
          v.render ++ raw post) ++ c' :: (rest.render.tail ++ w) := by
        rw [hs', hc']; simp
      apply membersLocated hs'' f
      convert hf using 2
      simp [memberStart]; omega

theorem Occurs.elements {s : Bytes} {l : Located} {es : List Located} (h : Occurs s l)
    (hes : l.elements = some es) : ∀ e ∈ es, Occurs s e := by
  obtain ⟨p, v⟩ := l
  obtain ⟨u, w, hs, hu⟩ := h
  simp only at hs hu
  subst hu
  unfold Located.elements at hes
  split at hes
  · cases hes; simp
  · rename_i pre v post rest hv
    simp only at hv
    subst hv
    cases hes
    exact elemsLocated (c := 0x5b) (w := w) (by rw [hs]; simp [Value.render, Elems.render])
  · cases hes

theorem Occurs.fields {s : Bytes} {l : Located} {fs : List Field} (h : Occurs s l)
    (hfs : l.fields = some fs) : ∀ f ∈ fs, Occurs s f.value := by
  obtain ⟨p, v⟩ := l
  obtain ⟨u, w, hs, hu⟩ := h
  simp only at hs hu
  subst hu
  unfold Located.fields at hfs
  split at hfs
  · cases hfs; simp
  · rename_i pre key mid pre' v post rest hv
    simp only at hv
    subst hv
    cases hfs
    exact membersLocated (c := 0x7b) (w := w) (by rw [hs]; simp [Value.render, Members.render])
  · cases hfs

/-! ## Offsets -/

/-- The same value, `d` bytes further on. -/
def Located.shift (d : Nat) (l : Located) : Located := ⟨d + l.start, l.value⟩

def Field.shift (d : Nat) (f : Field) : Field := ⟨f.key, f.value.shift d⟩

@[simp] theorem Located.shift_start (d : Nat) (l : Located) : (l.shift d).start = d + l.start := rfl

@[simp] theorem Located.shift_value (d : Nat) (l : Located) : (l.shift d).value = l.value := rfl

@[simp] theorem Field.shift_key (d : Nat) (f : Field) : (f.shift d).key = f.key := rfl

@[simp] theorem Field.shift_value (d : Nat) (f : Field) : (f.shift d).value = f.value.shift d := rfl

theorem Located.eq_shift (l : Located) : l = Located.shift l.start ⟨0, l.value⟩ := rfl

theorem Elems.located_shift (d : Nat) : ∀ (es : Elems) (p : Nat),
    es.located (d + p) = (es.located p).map (Located.shift d)
  | .nil, _ => rfl
  | .cons pre v post rest, p => by
    have ih := rest.located_shift d (p + 1 + pre.length + v.render.length + post.length)
    simp only [Elems.located, List.map_cons, Located.shift, ← ih]
    simp only [Nat.add_assoc]

theorem Members.located_shift (d : Nat) : ∀ (ms : Members) (p : Nat),
    ms.located (d + p) = (ms.located p).map (Field.shift d)
  | .nil, _ => rfl
  | .cons pre key mid pre' v post rest, p => by
    have ih := rest.located_shift d (memberStart p pre key mid pre' + v.render.length + post.length)
    simp only [Members.located, List.map_cons, Field.shift, Located.shift, ← ih]
    simp only [memberStart, Nat.add_assoc]

theorem Located.elements_shift (d : Nat) (l : Located) :
    (l.shift d).elements = l.elements.map (List.map (Located.shift d)) := by
  obtain ⟨p, v⟩ := l
  cases v with
  | arr pre v post rest => exact congrArg some (Elems.located_shift d _ p)
  | _ => rfl

theorem Located.fields_shift (d : Nat) (l : Located) :
    (l.shift d).fields = l.fields.map (List.map (Field.shift d)) := by
  obtain ⟨p, v⟩ := l
  cases v with
  | obj pre key mid pre' v post rest => exact congrArg some (Members.located_shift d _ p)
  | _ => rfl

theorem Elems.located_lt : ∀ {es : Elems} {p : Nat}, ∀ l ∈ es.located p, p < l.start
  | .nil, _, l, hl => by simp [Elems.located] at hl
  | .cons pre v post rest, p, l, hl => by
    simp only [Elems.located, List.mem_cons] at hl
    rcases hl with rfl | hl
    · simp only; omega
    · have ih := rest.located_lt l hl
      omega

/-- The elements of an array do not overlap. -/
theorem Elems.located_pairwise : ∀ (es : Elems) (p : Nat),
    (es.located p).Pairwise fun a b => a.start + a.value.render.length < b.start
  | .nil, _ => by simp [Elems.located]
  | .cons pre v post rest, p => by
    refine List.pairwise_cons.2 ⟨fun b hb => ?_, rest.located_pairwise _⟩
    have hlt := Elems.located_lt b hb
    simp only; omega

theorem Located.elements_pairwise {l : Located} {es : List Located} (h : l.elements = some es) :
    es.Pairwise fun a b => a.start + a.value.render.length < b.start := by
  unfold Located.elements at h
  split at h
  · cases h; exact .nil
  · cases h; exact Elems.located_pairwise _ _
  · cases h

/-- The bytes from `a` up to `b`, as a slice index takes them. -/
def slice (s : Bytes) (a b : Nat) : Bytes := (s.drop a).take (b - a)

/-- Cutting a part out of its text gives back its own spelling. -/
theorem Occurs.slice {s : Bytes} {l : Located} (h : Occurs s l) :
    Json.slice s l.start (l.start + l.value.render.length) = l.value.render ∧
      l.start + l.value.render.length ≤ s.length := by
  obtain ⟨u, w, rfl, hu⟩ := h
  constructor
  · simp [Json.slice, ← hu]
  · simp [← hu]

/-! ## The first byte -/

/-- A value's first byte is printable ASCII, and tells whether the value is an object or an array.
-/
theorem Value.render_head (v : Value) : ∃ b t, v.render = b :: t ∧ 0x20 < b.toNat ∧ b.toNat < 0x80 ∧
    (b = 0x7b ↔ v.isObject = true) ∧ (b = 0x5b ↔ v.isArray = true) := by
  cases v with
  | num k =>
    obtain ⟨b, t, h, hb⟩ := k.render_cons
    refine ⟨b, t, h, ?_⟩
    rcases hb with rfl | hb
    · simp [isObject, isArray]
    · simp only [isDigit, Bool.and_eq_true, decide_eq_true_eq, UInt8.le_iff_toNat_le] at hb
      have h1 : 0x30 ≤ b.toNat := hb.1
      have h2 : b.toNat ≤ 0x39 := hb.2
      refine ⟨by omega, by omega, ?_, ?_⟩
      · refine ⟨?_, fun h => by cases h⟩
        rintro rfl; simp at h2
      · refine ⟨?_, fun h => by cases h⟩
        rintro rfl; simp at h2
  | bool b => cases b <;> exact ⟨_, _, rfl, by decide⟩
  | _ => exact ⟨_, _, rfl, by simp [isObject, isArray]⟩

/-! ## Parts of a UTF-8 text -/

theorem Elems.render_last (es : Elems) : ∃ m, es.render = m ++ [0x5d] := by
  cases es with
  | nil => exact ⟨[], rfl⟩
  | cons pre v post rest =>
    obtain ⟨m, hm⟩ := rest.render_last
    exact ⟨0x2c :: (raw pre ++ (v.render ++ (raw post ++ m))), by simp [Elems.render, hm]⟩

theorem Members.render_last (ms : Members) : ∃ m, ms.render = m ++ [0x7d] := by
  cases ms with
  | nil => exact ⟨[], rfl⟩
  | cons pre key mid pre' v post rest =>
    obtain ⟨m, hm⟩ := rest.render_last
    exact ⟨0x2c :: (raw pre ++ (renderStr key ++ (raw mid ++ 0x3a :: (raw pre' ++
      (v.render ++ (raw post ++ m)))))), by simp [Members.render, hm]⟩

theorem Value.render_last {v : Value} (h : v.isStructured = true) :
    ∃ m c, v.render = m ++ [c] ∧ isWs c = false := by
  cases v with
  | arrNil ws => exact ⟨0x5b :: raw ws, 0x5d, rfl, rfl⟩
  | objNil ws => exact ⟨0x7b :: raw ws, 0x7d, rfl, rfl⟩
  | arr pre v post rest =>
    obtain ⟨m, hm⟩ := rest.render_last
    exact ⟨0x5b :: (raw pre ++ (v.render ++ (raw post ++ m))), 0x5d, by simp [render, hm], rfl⟩
  | obj pre key mid pre' v post rest =>
    obtain ⟨m, hm⟩ := rest.render_last
    exact ⟨0x7b :: (raw pre ++ (renderStr key ++ (raw mid ++ 0x3a :: (raw pre' ++
      (v.render ++ (raw post ++ m)))))), 0x7d, by simp [render, hm], rfl⟩
  | _ => cases h

/-- Whitespace at the end can be told from what it follows. -/
theorem strip_ws {a b : Bytes} {c d : UInt8} {p q : Ws} (hc : isWs c = false) (hd : isWs d = false)
    (h : a ++ c :: raw p = b ++ d :: raw q) : a ++ [c] = b ++ [d] := by
  have hspan : ∀ (a : Bytes) (c : UInt8) (p : Ws), isWs c = false →
      span isWs (a ++ c :: raw p).reverse = (p.reverse, c :: a.reverse) := by
    intro a c p hc
    have hrev : (a ++ c :: raw p).reverse = raw p.reverse ++ c :: a.reverse := by simp [raw]
    rw [hrev]
    exact span_raw p.reverse (by simpa using hc)
  have heq := hspan a c p hc
  rw [h, hspan b d q hd, Prod.mk.injEq] at heq
  simpa using congrArg List.reverse heq.2.symm

/-- What can be put before a text of an array or object without changing the value is whitespace.
-/
theorem isWs_of_same_value {u : Bytes} {t t' : Text} (hs : t.value.isStructured = true)
    (h : u ++ t.render = t'.render) (hv : t'.value = t.value) : ∀ b ∈ u, isWs b = true := by
  obtain ⟨m, c, hm, hc⟩ := t.value.render_last hs
  have hstrip : (u ++ (raw t.pre ++ m)) ++ [c] = (raw t'.pre ++ m) ++ [c] := by
    apply strip_ws (p := t.post) (q := t'.post) hc hc
    have h' : u ++ (raw t.pre ++ ((m ++ [c]) ++ raw t.post)) =
        raw t'.pre ++ ((m ++ [c]) ++ raw t'.post) := by
      rw [← hm]
      conv_rhs => rw [← hv]
      exact h
    simpa using h'
  have hpre : u ++ raw t.pre = raw t'.pre := by
    simpa [← List.append_assoc] using hstrip
  intro b hb
  have hb' : b ∈ raw t'.pre := by rw [← hpre]; exact List.mem_append_left _ hb
  obtain ⟨w, -, rfl⟩ := List.mem_map.1 hb'
  exact w.property

theorem ascii_raw {l : List Digit} : ∀ b ∈ raw l, b < 0x80 := by
  intro b hb
  simp only [raw, List.mem_map] at hb
  obtain ⟨d, -, rfl⟩ := hb
  have := d.property
  simp only [isDigit, Bool.and_eq_true, decide_eq_true_eq] at this
  exact UInt8.lt_of_le_of_lt this.2 (by decide)

theorem Digits.ascii (d : Digits) : ∀ b ∈ d.render, b < 0x80 := by
  obtain ⟨h, t⟩ := d
  exact ascii_raw (l := h :: t)

theorem Number.ascii (n : Number) : ∀ b ∈ n.render, b < 0x80 := by
  obtain ⟨neg, i, f, e⟩ := n
  intro b hb
  simp only [Number.render, List.mem_append] at hb
  rcases hb with hb | hb | hb | hb
  · cases neg <;> simp at hb; subst hb; decide
  · cases i with
    | zero => simp [IntPart.render] at hb; subst hb; decide
    | pos d ds =>
      rcases List.mem_cons.1 hb with rfl | hb
      · have := d.property
        simp only [isDigit19, Bool.and_eq_true, decide_eq_true_eq] at this
        exact UInt8.lt_of_le_of_lt this.2 (by decide)
      · exact ascii_raw b hb
  · cases f with
    | none => simp [renderFrac] at hb
    | some d =>
      rcases List.mem_cons.1 hb with rfl | hb
      · decide
      · exact d.ascii b hb
  · cases e with
    | none => simp [renderExp] at hb
    | some e =>
      obtain ⟨u, g, d⟩ := e
      simp only [renderExp, Exp.render, List.mem_cons, List.mem_append] at hb
      rcases hb with rfl | hb | hb
      · cases u <;> simp only [Bool.false_eq_true, ↓reduceIte] <;> decide
      · cases g with
        | none => simp [renderSign] at hb
        | some minus => cases minus <;> simp [renderSign] at hb <;> subst hb <;> decide
      · exact d.ascii b hb

theorem isUtf8_between {u m w : Bytes} {c d : UInt8} (hc : c < 0x80) (hd : d < 0x80)
    (h : isUtf8 (u ++ (c :: (m ++ [d]) ++ w)) = true) : isUtf8 (c :: (m ++ [d])) = true := by
  rw [List.cons_append, List.append_assoc] at h
  have hm := (isUtf8_split hd (isUtf8_split hc h).2).1
  exact isUtf8_append (u := [c]) (isUtf8_ascii (by simpa using hc))
    (isUtf8_append hm (isUtf8_ascii (by simpa using hd)))

/-- A value written in a UTF-8 text is UTF-8: apart from numbers and keywords, which are ASCII
throughout, it lies between two ASCII bytes. -/
theorem Occurs.isUtf8 {s : Bytes} {l : Located} (h : Occurs s l) (hs : isUtf8 s = true) :
    Json.isUtf8 l.value.render = true := by
  obtain ⟨p, v⟩ := l
  obtain ⟨u, w, rfl, -⟩ := h
  simp only at hs ⊢
  cases v with
  | null => exact isUtf8_ascii (by decide +kernel)
  | bool b => exact isUtf8_ascii (by cases b <;> decide +kernel)
  | num n => exact isUtf8_ascii n.ascii
  | str x => exact isUtf8_between (by decide) (by decide) hs
  | arrNil ws => exact isUtf8_between (by decide) (by decide) hs
  | objNil ws => exact isUtf8_between (by decide) (by decide) hs
  | arr pre v post rest =>
    obtain ⟨m, hm⟩ := rest.render_last
    have hv : (Value.arr pre v post rest).render =
        0x5b :: ((raw pre ++ (v.render ++ (raw post ++ m))) ++ [0x5d]) := by simp [Value.render, hm]
    rw [hv] at hs ⊢
    exact isUtf8_between (by decide) (by decide) hs
  | obj pre key mid pre' v post rest =>
    obtain ⟨m, hm⟩ := rest.render_last
    have hv : (Value.obj pre key mid pre' v post rest).render =
        0x7b :: ((raw pre ++ (renderStr key ++ (raw mid ++ 0x3a :: (raw pre' ++
          (v.render ++ (raw post ++ m)))))) ++ [0x7d]) := by simp [Value.render, hm]
    rw [hv] at hs ⊢
    exact isUtf8_between (by decide) (by decide) hs

end Json
