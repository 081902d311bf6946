import JsonRpcClient.Json.Meaning
import JsonRpcClient.Core.RequestId
import JsonRpcClient.Data.Traverse

/-!
# `serde` / `serde_json` as this crate uses them

`serde_json` is not part of the repository; this is its documented behaviour, over the JSON texts
of `Json/`:

| here | there |
| --- | --- |
| `fromSlice`      | `serde_json::from_slice` / `from_str`: one value between whitespace, nothing after it |
| `Serde.str`      | `<&'de str>::deserialize`: borrows, so the literal must contain no escape sequence |
| `Serde.option`   | `Option<T>::deserialize`: `null` is `None`, anything else is a `T` |
| `Serde.rawValue` | `<&'de RawValue>::deserialize`: the text of whatever value is there, borrowed |
| `Serde.content`  | buffering a value for an untagged enum: it is fully parsed, floats and nesting included |
| `Serde.struct`   | `#[derive(Deserialize)]`: filled from an object by key or from an array by position |

Only success or failure of a deserialization matters to the crate (every `serde_json::Error` becomes
`Error::SerdeError`), so a deserializer is a function to `Option`.
-/

namespace JsonRpc
open Json

/-- What `serde_json` decides beyond the grammar: whether a number literal that is no 64-bit integer
is within the range of `f64` (else `number out of range`). -/
structure SerdeJson where
  inRange : Number → Bool

/-- `serde_json`'s default limit: the 128th nested array or object is refused. -/
def recursionLimit : Nat := 128

/-! ## `RawValue` -/

/-- A `RawValue`: the text of one JSON value, without surrounding whitespace, as a `str`. -/
structure RawValue where
  json : Value
  utf8 : isUtf8 json.render = true
deriving DecidableEq

namespace RawValue

def bytes (r : RawValue) : Bytes := r.json.render

/-- `RawValue::get`. -/
def get (r : RawValue) : String := (utf8? r.bytes).get r.utf8

theorem bytesOf_get (r : RawValue) : bytesOf r.get = r.bytes :=
  utf8?_eq_some_iff.1 (Option.some_get r.utf8).symm

theorem utf8?_bytes (r : RawValue) : utf8? r.bytes = some r.get := (Option.some_get r.utf8).symm

end RawValue

/-- A `&'a RawValue` borrowed from an input: the value and where its text starts there. -/
structure RawSpan where
  start : Nat
  raw : RawValue
deriving DecidableEq

namespace RawSpan

def len (r : RawSpan) : Nat := r.raw.bytes.length

/-- `r` is borrowed from `s`: its text is what `s` holds at its place. -/
def BorrowedFrom (s : Bytes) (r : RawSpan) : Prop := Occurs s ⟨r.start, r.raw.json⟩

theorem BorrowedFrom.slice {s : Bytes} {r : RawSpan} (h : r.BorrowedFrom s) :
    Json.slice s r.start (r.start + r.len) = r.raw.bytes ∧ r.start + r.len ≤ s.length :=
  Occurs.slice h

end RawSpan

namespace Serde

/-! ## Scalars -/

def str (l : Located) : Option String :=
  match l.value with
  | .str s => if s.unescaped then s.decode else none
  | _ => none

/-- A `u64`: an unsigned integer literal below `2^64`. -/
def numU64 (n : Number) : Option UInt64 :=
  match n.nat? with
  | some k => if k < 2 ^ 64 then some (UInt64.ofNat k) else none
  | none => none

def u64 (v : Value) : Option UInt64 :=
  match v with
  | .num n => numU64 n
  | _ => none

/-- An `i64`: an integer literal in range. `-0` is read as a float and so is no integer. -/
def numI64 (n : Number) : Option Int :=
  match n.int? with
  | some k => if -(2 ^ 63) ≤ k ∧ k < 2 ^ 63 ∧ (n.neg → k ≠ 0) then some k else none
  | none => none

def i64 (l : Located) : Option Int :=
  match l.value with
  | .num n => numI64 n
  | _ => none

theorem str_eq_some {l : Located} {m : String} :
    str l = some m ↔ ∃ s, l.value = .str s ∧ s.unescaped = true ∧ s.decode = some m := by
  unfold str
  split
  · rename_i s hs
    split
    · rename_i hu; simp [hs, hu]
    · rename_i hu; simp [hs, hu]
  · rename_i hne
    simp only [reduceCtorEq, false_iff, not_exists, not_and]
    exact fun s hs => absurd hs (hne s)

theorem numU64_eq_some {n : Number} {k : UInt64} : numU64 n = some k ↔ n.nat? = some k.toNat := by
  unfold numU64
  cases n.nat? with
  | none => simp
  | some j =>
    by_cases hj : j < 2 ^ 64
    · simp only [hj, ↓reduceIte, Option.some.injEq]
      constructor
      · rintro rfl; exact (UInt64.toNat_ofNat_of_lt' hj).symm
      · rintro rfl; simp
    · simp only [hj, ↓reduceIte, reduceCtorEq, Option.some.injEq, false_iff]
      rintro rfl; exact hj k.toNat_lt

theorem u64_eq_some {l : Located} {k : UInt64} : u64 l.value = some k ↔ l.IsNat k.toNat := by
  unfold u64
  split
  · rename_i n hn
    simp [Located.IsNat, hn, numU64_eq_some]
  · rename_i hne
    simp only [reduceCtorEq, false_iff]
    exact fun ⟨n, hn, _⟩ => hne n hn

theorem numI64_eq_some {n : Number} {k : Int} :
    numI64 n = some k ↔ n.int? = some k ∧ -(2 ^ 63) ≤ k ∧ k < 2 ^ 63 ∧ (n.neg = true → k ≠ 0) := by
  unfold numI64
  cases n.int? with
  | none => simp
  | some j => grind

theorem i64_eq_some {l : Located} {k : Int} :
    i64 l = some k ↔ ∃ n, l.value = .num n ∧ numI64 n = some k := by
  unfold i64
  split
  · rename_i n hn; simp [hn]
  · rename_i hne
    simp only [reduceCtorEq, false_iff, not_exists, not_and]
    exact fun n hn => absurd hn (hne n)

def option {α : Type} (f : Located → Option α) (l : Located) : Option (Option α) :=
  match l.value with
  | .null => some none
  | _ => (f l).map some

def rawValue (l : Located) : Option RawSpan :=
  if h : isUtf8 l.value.render = true then some ⟨l.start, ⟨l.value, h⟩⟩ else none

/-! ## Buffered values -/

mutual
/-- Every number is representable and every string and member name is a Unicode string. -/
def wellFormed (J : SerdeJson) : Value → Bool
  | .null => true
  | .bool _ => true
  | .num n => (numU64 n).isSome || (numI64 n).isSome || J.inRange n
  | .str s => s.decode.isSome
  | .arrNil _ => true
  | .arr _ v _ rest => wellFormed J v && wellFormedElems J rest
  | .objNil _ => true
  | .obj _ key _ _ v _ rest => key.decode.isSome && wellFormed J v && wellFormedMembers J rest

def wellFormedElems (J : SerdeJson) : Elems → Bool
  | .nil => true
  | .cons _ v _ rest => wellFormed J v && wellFormedElems J rest

def wellFormedMembers (J : SerdeJson) : Members → Bool
  | .nil => true
  | .cons _ key _ _ v _ rest => key.decode.isSome && wellFormed J v && wellFormedMembers J rest
end

mutual
/-- How many arrays and objects are nested in a value. -/
def depth : Value → Nat
  | .arrNil _ => 1
  | .arr _ v _ rest => max (depth v) (depthElems rest) + 1
  | .objNil _ => 1
  | .obj _ _ _ _ v _ rest => max (depth v) (depthMembers rest) + 1
  | _ => 0

def depthElems : Elems → Nat
  | .nil => 0
  | .cons _ v _ rest => max (depth v) (depthElems rest)

def depthMembers : Members → Nat
  | .nil => 0
  | .cons _ _ _ _ v _ rest => max (depth v) (depthMembers rest)
end

/-- A value inside `level` arrays and objects can be buffered. -/
def content (J : SerdeJson) (level : Nat) (v : Value) : Bool :=
  wellFormed J v && level + depth v < recursionLimit

/-! ## Derived structs -/

def isNamed (n : String) (f : Field) : Bool := f.key.decode == some n

/-- The fields a derived visitor is given, by name: from an object by key (an unreadable key or a
repeated field is an error, an unknown one is ignored), or from an array by position (missing
trailing elements are absent fields, surplus ones are an error). -/
def struct (names : List String) (l : Located) : Option (String → Option Located) :=
  match l.fields, l.elements with
  | some fs, _ =>
    if fs.all (fun f => f.key.decode.isSome) && names.all
      (fun n => (fs.filter (isNamed n)).length ≤ 1) then
      some fun n => (fs.find? (isNamed n)).map Field.value
    else none
  | none, some es => if es.length ≤ names.length then some fun n => es[names.idxOf n]? else none
  | none, none => none

theorem isNamed_iff {n : String} {f : Field} : isNamed n f = true ↔ f.key.decode = some n := by
  simp [isNamed]

theorem find?_isNamed {fs : List Field} {n : String} (h : (fs.filter (isNamed n)).length ≤ 1)
    {x : Located} :
    (fs.find? (isNamed n)).map Field.value = some x ↔ ∃ f ∈ fs, f.key.decode = some n ∧
    f.value = x := by
  simp only [Option.map_eq_some_iff]
  constructor
  · rintro ⟨f, hf, rfl⟩
    exact ⟨f, List.mem_of_find?_eq_some hf, isNamed_iff.1 (List.find?_some hf), rfl⟩
  · rintro ⟨f, hf, hn, rfl⟩
    have hmem : f ∈ fs.filter (isNamed n) := List.mem_filter.2 ⟨hf, isNamed_iff.2 hn⟩
    refine ⟨f, ?_, rfl⟩
    rw [← List.head?_filter]
    match hl : fs.filter (isNamed n), hmem, h with
    | [g], hmem, _ => rw [List.mem_singleton.1 hmem]; rfl

/-- From an object a struct is filled with the members of its fields' names. -/
theorem struct_hasMember {names : List String} {l : Located} {f : String → Option Located}
    (h : struct names l = some f) (hl : l.value.isObject = true) {n : String} (hn : n ∈ names)
    {x : Located} :
    f n = some x ↔ l.HasMember n x := by
  rw [← l.fields_isSome] at hl
  obtain ⟨fs, hfs⟩ := Option.isSome_iff_exists.1 hl
  simp only [struct, hfs] at h
  split at h
  · rename_i hc
    cases h
    simp only [Bool.and_eq_true, List.all_eq_true, decide_eq_true_eq] at hc
    simp only [find?_isNamed (hc.2 n hn), Located.HasMember, hfs, Option.some.injEq,
      exists_eq_left']
  · cases h

theorem struct_field {names : List String} {l x : Located} {f : String → Option Located}
    {n : String}
    (h : struct names l = some f) (hn : n ∈ names) (hx : l.HasMember n x) : f n = some x :=
  (struct_hasMember h hx.isObject hn).2 hx

/-- A struct is filled from an object or from an array. -/
theorem struct_isStructured {names : List String} {l : Located} {f : String → Option Located}
    (h : struct names l = some f) : l.value.isObject = true ∨ l.value.isArray = true := by
  rw [← l.fields_isSome, ← l.elements_isSome]
  unfold struct at h
  split at h
  · rename_i fs hfs; exact .inl (by rw [hfs]; rfl)
  · rename_i es _ hes; exact .inr (by rw [hes]; rfl)
  · cases h

/-- A field with no `default`. -/
def required {α : Type} (f : Located → Option α) (x : Option Located) : Option α := x.bind f

/-- A field with `#[serde(default)]`, whose default is `d`. -/
def default {α : Type} (d : α) (f : Located → Option α) (x : Option Located) : Option α :=
  match x with
  | none => some d
  | some l => f l

theorem required_eq_some {α : Type} {f : Located → Option α} {x : Option Located} {a : α} :
    required f x = some a ↔ ∃ l, x = some l ∧ f l = some a := Option.bind_eq_some_iff

theorem default_eq_some {α : Type} {d a : α} {f : Located → Option α} {x : Option Located} :
    default d f x = some a ↔ (x = none ∧ d = a) ∨ ∃ l, x = some l ∧ f l = some a := by
  cases x <;> simp [default]

/-- An optional field is `None` when it is absent or `null`. -/
theorem optional_eq_none {α : Type} {f : Located → Option α} {x : Option Located} :
    default none (option f) x = some none ↔ ∀ l, x = some l → l.value = .null := by
  cases x with
  | none => simp [default]
  | some l =>
    simp only [default, option, Option.some.injEq, forall_eq']
    split
    · rename_i h; simp [h]
    · rename_i h; cases f l <;> simpa using h

theorem optional_eq_some {α : Type} {f : Located → Option α} {x : Option Located} {a : α} :
    default none (option f) x = some (some a) ↔ ∃ l, x = some l ∧ l.value ≠ .null ∧
    f l = some a := by
  cases x with
  | none => simp [default]
  | some l =>
    simp only [default, option, Option.some.injEq, exists_eq_left']
    split
    · rename_i h; simp [h]
    · rename_i h; simpa using fun _ => h

/-- `Vec<T>`. -/
def vec {α : Type} (f : Located → Option α) (l : Located) : Option (List α) := do
  (← l.elements).mapM f

/-- `serde_json::from_slice`, and `from_str` on the string's bytes. -/
def fromSlice {α : Type} (f : Located → Option α) (s : Bytes) : Option α := do
  f (← Json.read s).root

end Serde

/-! ## Offsets -/

/-- The same text, borrowed `d` bytes further on. -/
def RawSpan.shift (d : Nat) (r : RawSpan) : RawSpan := ⟨d + r.start, r.raw⟩

namespace Serde

theorem rawValue_shift (d : Nat) (l : Located) :
    rawValue (l.shift d) = (rawValue l).map (RawSpan.shift d) := by
  by_cases h : isUtf8 l.value.render = true <;> simp [rawValue, h, RawSpan.shift]

theorem isNamed_shift (d : Nat) (n : String) : isNamed n ∘ Field.shift d = isNamed n := rfl

/-- Where a struct is read from changes nothing but the offsets of its fields. -/
theorem struct_shift (d : Nat) (names : List String) (l : Located) :
    struct names (l.shift d) =
      (struct names l).map fun f n => (f n).map (Located.shift d) := by
  unfold struct
  rw [Located.fields_shift, Located.elements_shift]
  cases l.fields with
  | some fs =>
    have hkeys : (fun f : Field => f.key.decode.isSome) ∘ Field.shift d =
        fun f => f.key.decode.isSome := rfl
    have hfind : ∀ n, ((fs.map (Field.shift d)).find? (isNamed n)).map Field.value =
        ((fs.find? (isNamed n)).map Field.value).map (Located.shift d) := by
      intro n
      rw [List.find?_map, isNamed_shift, Option.map_map, Option.map_map]
      rfl
    simp only [Option.map_some, List.all_map, List.filter_map, List.length_map, isNamed_shift,
      hkeys, hfind]
    split <;> rfl
  | none =>
    cases l.elements with
    | none => rfl
    | some es =>
      simp only [Option.map_some, Option.map_none, List.length_map]
      split
      · simp only [Option.map_some, List.getElem?_map]
      · rfl

theorem struct_eq_some_shift {d : Nat} {names : List String} {l : Located}
    {f : String → Option Located} :
    struct names (l.shift d) = some f ↔
      ∃ g, struct names l = some g ∧ f = fun n => (g n).map (Located.shift d) := by
  rw [struct_shift, Option.map_eq_some_iff]
  exact exists_congr fun g => and_congr_right fun _ => eq_comm

end Serde

/-! ## The fields of a struct filled from a listed object -/

section
variable {l : Located} {ms : List (String × (Located → Prop))}

theorem hasMember_of_mem (h : l.HasMembers ms) {m : String × (Located → Prop)} (hm : m ∈ ms) :
    ∃ x, l.HasMember m.1 x ∧ m.2 x := by
  obtain ⟨fs, ord, hfs, hperm, hord⟩ := h
  obtain ⟨f, hf, hkey, hval⟩ := Traverse.mem_of_forall₂ hord hm
  exact ⟨f.value, ⟨fs, hfs, f, hperm.mem_iff.2 hf, hkey, rfl⟩, hval⟩

theorem not_hasMember (h : l.HasMembers ms) {n : String} (hn : n ∉ ms.map Prod.fst) (x : Located) :
    ¬ l.HasMember n x := by
  obtain ⟨fs, ord, hfs, hperm, hord⟩ := h
  rintro ⟨fs', hfs', f, hf, hkey, -⟩
  rw [hfs] at hfs'
  obtain rfl := Option.some.inj hfs'
  obtain ⟨m, hm, hkey', -⟩ := Traverse.mem_of_forall₂ hord.flip (hperm.mem_iff.1 hf)
  rw [hkey] at hkey'
  cases hkey'
  exact hn (List.mem_map_of_mem hm)

theorem countP_isNamed {ord : List Field}
    (h : List.Forall₂ (fun f m => f.key.decode = some m.1 ∧ m.2 f.value) ord ms) (n : String) :
    ord.countP (Serde.isNamed n) = (ms.map Prod.fst).count n := by
  induction h with
  | nil => rfl
  | @cons f m ord ms hfm _ ih =>
    have hiff : Serde.isNamed n f = (m.1 == n) := by
      rw [Bool.eq_iff_iff, Serde.isNamed_iff, hfm.1, Option.some.injEq, beq_iff_eq]
    simp [List.countP_cons, List.count_cons, ih, hiff]

/-- An object with members of distinct names fills any struct. -/
theorem struct_of_hasMembers (h : l.HasMembers ms) (hnd : (ms.map Prod.fst).Nodup)
    (names : List String) :
    ∃ f, Serde.struct names l = some f := by
  obtain ⟨fs, ord, hfs, hperm, hord⟩ := h
  have hkeys : fs.all (fun f => f.key.decode.isSome) = true := by
    rw [List.all_eq_true]
    intro f hf
    obtain ⟨m, -, hkey, -⟩ := Traverse.mem_of_forall₂ hord.flip (hperm.mem_iff.1 hf)
    rw [hkey]; rfl
  have honce : names.all (fun n => (fs.filter (Serde.isNamed n)).length ≤ 1) = true := by
    rw [List.all_eq_true]
    intro n _
    rw [decide_eq_true_eq, ← List.countP_eq_length_filter, hperm.countP_eq, countP_isNamed hord]
    exact List.nodup_iff_count_le_one.1 hnd n
  simp [Serde.struct, hfs, hkeys, honce]

variable {names : List String} {f : String → Option Located}

theorem field_of_mem (h : l.HasMembers ms) (hf : Serde.struct names l = some f)
    {m : String × (Located → Prop)} (hm : m ∈ ms) (hn : m.1 ∈ names) :
    ∃ x, f m.1 = some x ∧ l.HasMember m.1 x ∧ m.2 x := by
  obtain ⟨x, hx, hP⟩ := hasMember_of_mem h hm
  exact ⟨x, Serde.struct_field hf hn hx, hx, hP⟩

theorem field_absent (h : l.HasMembers ms) (hf : Serde.struct names l = some f) {n : String}
    (hn : n ∈ names) (hno : n ∉ ms.map Prod.fst) : f n = none := by
  rw [Option.eq_none_iff_forall_ne_some]
  intro x hx
  obtain ⟨fs, -, hfs, -⟩ := id h
  have hl : l.value.isObject = true := by rw [← l.fields_isSome, hfs]; rfl
  exact not_hasMember h hno x ((Serde.struct_hasMember hf hl hn).1 hx)

end

end JsonRpc
