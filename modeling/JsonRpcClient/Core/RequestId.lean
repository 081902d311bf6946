import Mathlib

/-!
# Request ids: `RequestId`, `RequestIdManager` (request_id.rs)

Ids are `u64`s and the counter is an `AtomicU64`, so `fetch_add` wraps. The arithmetic around it is
plain `+` and `-`, which panics in a build with overflow checks and wraps in one without; `Profile`
says which build is meant, and a panic is `none`.
-/

namespace JsonRpc

/-- `overflow-checks` on (a debug build) or off (a release build). -/
inductive Profile where
  | checked
  | wrapping
deriving DecidableEq, Repr

/-- `a + b` on `u64`; `none` = the overflow panic. -/
def Profile.add : Profile → UInt64 → UInt64 → Option UInt64
  | .checked, a, b => if a.toNat + b.toNat < 2 ^ 64 then some (a + b) else none
  | .wrapping, a, b => some (a + b)

/-- `a - b` on `u64`; `none` = the overflow panic. -/
def Profile.sub : Profile → UInt64 → UInt64 → Option UInt64
  | .checked, a, b => if b.toNat ≤ a.toNat then some (a - b) else none
  | .wrapping, a, b => some (a - b)

theorem Profile.add_of_lt (p : Profile) {a b : UInt64} (h : a.toNat + b.toNat < 2 ^ 64) :
    p.add a b = some (a + b) := by cases p <;> simp only [Profile.add, h, ↓reduceIte]

theorem Profile.sub_of_le (p : Profile) {a b : UInt64} (h : b.toNat ≤ a.toNat) :
    p.sub a b = some (a - b) := by cases p <;> simp only [Profile.sub, h, ↓reduceIte]

theorem Profile.add_eq (p : Profile) {a b c : UInt64} (h : p.add a b = some c) : a + b = c := by
  cases p with
  | checked =>
    simp only [Profile.add] at h
    split at h
    · exact Option.some.inj h
    · cases h
  | wrapping => exact Option.some.inj h

theorem Profile.sub_eq (p : Profile) {a b c : UInt64} (h : p.sub a b = some c) : a - b = c := by
  cases p with
  | checked =>
    simp only [Profile.sub] at h
    split at h
    · exact Option.some.inj h
    · cases h
  | wrapping => exact Option.some.inj h

theorem toNat_add_of_lt {a b : UInt64} (h : a.toNat + b.toNat < 2 ^ 64) :
    (a + b).toNat = a.toNat + b.toNat := by
  rw [UInt64.toNat_add, Nat.mod_eq_of_lt h]

theorem toNat_sub_of_le {a b : UInt64} (h : b.toNat ≤ a.toNat) :
    (a - b).toNat = a.toNat - b.toNat := UInt64.toNat_sub_of_le _ _ (UInt64.le_iff_toNat_le.2 h)

/-! ## `RequestId` (request_id.rs:5-34) -/

structure RequestId where
  val : UInt64
deriving DecidableEq, Repr

namespace RequestId

def toNat (id : RequestId) : Nat := id.val.toNat

/-- The derived `Ord`. -/
instance : LE RequestId := ⟨fun a b => a.val ≤ b.val⟩
instance : LT RequestId := ⟨fun a b => a.val < b.val⟩
instance (a b : RequestId) : Decidable (a ≤ b) := inferInstanceAs (Decidable (a.val ≤ b.val))
instance (a b : RequestId) : Decidable (a < b) := inferInstanceAs (Decidable (a.val < b.val))

theorem le_iff {a b : RequestId} : a ≤ b ↔ a.toNat ≤ b.toNat := UInt64.le_iff_toNat_le
theorem lt_iff {a b : RequestId} : a < b ↔ a.toNat < b.toNat := UInt64.lt_iff_toNat_lt

theorem toNat_lt (id : RequestId) : id.toNat < 2 ^ 64 := id.val.toNat_lt

theorem toNat_inj {a b : RequestId} : a.toNat = b.toNat ↔ a = b := by
  cases a; cases b; simp [toNat, UInt64.toNat_inj]

/-- `RequestId::from(n)` for a `u64` given as a number. -/
def ofNat (n : Nat) : RequestId := ⟨UInt64.ofNat n⟩

theorem toNat_ofNat {n : Nat} (h : n < 2 ^ 64) : (ofNat n).toNat = n := by
  simp only [ofNat, toNat]; exact UInt64.toNat_ofNat_of_lt' h

end RequestId

/-! ## `RangeInclusive<RequestId>` -/

/-- `start..=last`, compared and hashed by its two ends. -/
structure RangeInclusive where
  start : RequestId
  last : RequestId
deriving DecidableEq, Repr

namespace RangeInclusive

/-- The `u64`s that iterating the range yields; none when it is reversed. -/
def ids (r : RangeInclusive) : List RequestId :=
  (List.range' r.start.toNat (r.last.toNat + 1 - r.start.toNat)).map RequestId.ofNat

instance : Membership RequestId RangeInclusive := ⟨fun r id => r.start ≤ id ∧ id ≤ r.last⟩

theorem mem_iff {r : RangeInclusive} {id : RequestId} :
    id ∈ r ↔ r.start.toNat ≤ id.toNat ∧ id.toNat ≤ r.last.toNat :=
  ⟨fun h => ⟨RequestId.le_iff.1 h.1, RequestId.le_iff.1 h.2⟩,
    fun h => ⟨RequestId.le_iff.2 h.1, RequestId.le_iff.2 h.2⟩⟩

theorem ids_toNat (r : RangeInclusive) :
    r.ids.map RequestId.toNat = List.range' r.start.toNat (r.last.toNat + 1 - r.start.toNat) := by
  rw [ids, List.map_map]
  conv_rhs => rw [← List.map_id (List.range' _ _)]
  apply List.map_congr_left
  intro n hn
  have hlast := r.last.toNat_lt
  rw [List.mem_range'_1] at hn
  exact RequestId.toNat_ofNat (by omega)

@[simp] theorem length_ids (r : RangeInclusive) :
    r.ids.length = r.last.toNat + 1 - r.start.toNat := by simp [ids]

theorem nodup_ids (r : RangeInclusive) : r.ids.Nodup := by
  have h : (r.ids.map RequestId.toNat).Nodup := by rw [ids_toNat]; exact List.nodup_range'
  exact List.Nodup.of_map _ h

/-- The ids of a range, in any order, determine it. -/
theorem eq_of_perm_ids {r r' : RangeInclusive} (hle : r.start ≤ r.last) (h : r.ids.Perm r'.ids) :
    r = r' := by
  have hmap := h.map RequestId.toNat
  rw [ids_toNat, ids_toNat] at hmap
  have heq := hmap.eq_of_pairwise' (List.pairwise_le_range' 1) (List.pairwise_le_range' 1)
  rw [RequestId.le_iff] at hle
  have hlen : r.last.toNat + 1 - r.start.toNat = r'.last.toNat + 1 - r'.start.toNat := by
    simpa using congrArg List.length heq
  have hstart : r.start.toNat = r'.start.toNat := by
    have hhead := congrArg List.head? heq
    rw [List.head?_range', List.head?_range', if_neg (by omega), if_neg (by omega)] at hhead
    simpa using hhead
  obtain ⟨s, l⟩ := r
  obtain ⟨s', l'⟩ := r'
  simp only at hlen hstart hle
  rw [RangeInclusive.mk.injEq, ← RequestId.toNat_inj, ← RequestId.toNat_inj]
  omega

end RangeInclusive

/-! ## `RequestIdManager` (request_id.rs:36-81) -/

structure RequestIdManager where
  current_id : UInt64
deriving DecidableEq, Repr

namespace RequestIdManager

/-- `RequestIdManager::new` (:49). -/
def new : RequestIdManager := ⟨0⟩

/-- `current_id` (:58). -/
def currentId (m : RequestIdManager) : RequestId := ⟨m.current_id⟩

/-- `fetch_add(count)`: the value before, and the counter after; always wrapping. -/
def fetchAdd (m : RequestIdManager) (count : UInt64) : UInt64 × RequestIdManager :=
  (m.current_id, ⟨m.current_id + count⟩)

/-- `reserve_id` (:53). -/
def reserveId (m : RequestIdManager) : RequestId × RequestIdManager :=
  let (id, m) := m.fetchAdd 1
  (⟨id⟩, m)

/-- `reserve_range` (:69). The outer `none` is the overflow panic of `start + count - 1`, which
comes after the counter has moved. -/
def reserveRange (p : Profile) (m : RequestIdManager) (count : UInt64) :
    Option (Option RangeInclusive) × RequestIdManager :=
  if count = 0 then (some none, m)
  else
    let (start, m) := m.fetchAdd count
    match (p.add start count).bind (p.sub · 1) with
    | some last => (some (some ⟨⟨start⟩, ⟨last⟩⟩), m)
    | none => (none, m)

/-- `reset` (:78). -/
def reset (_ : RequestIdManager) : RequestIdManager := ⟨0⟩

theorem reserveRange_zero (p : Profile) (m : RequestIdManager) :
    m.reserveRange p 0 = (some none, m) := rfl

/-- While the ids last, `reserve_range(count)` is the next `count` ids and moves the counter by
`count`. -/
theorem reserveRange_spec (p : Profile) {m : RequestIdManager} {count : UInt64}
    (h0 : 0 < count.toNat) (h : m.current_id.toNat + count.toNat < 2 ^ 64) :
    ∃ r, m.reserveRange p count = (some (some r), ⟨m.current_id + count⟩) ∧
      r.start.toNat = m.current_id.toNat ∧ r.last.toNat + 1 = m.current_id.toNat + count.toNat := by
  have hc : count ≠ 0 := by rintro rfl; simp at h0
  have hsum := toNat_add_of_lt h
  have hle : (1 : UInt64).toNat ≤ (m.current_id + count).toNat := by
    rw [hsum]; exact Nat.le_add_left_of_le h0
  have hsub := toNat_sub_of_le hle
  refine ⟨⟨⟨m.current_id⟩, ⟨m.current_id + count - 1⟩⟩, ?_, rfl, ?_⟩
  · simp [reserveRange, fetchAdd, hc, p.add_of_lt h, p.sub_of_le hle]
  · simp only [RequestId.toNat, hsub, hsum, UInt64.toNat_one]; omega

theorem reserveRange_some {p : Profile} {m : RequestIdManager} {count : UInt64}
    {range : RangeInclusive} (h : (m.reserveRange p count).1 = some (some range)) :
    count ≠ 0 ∧ range.start.val = m.current_id ∧ range.last.val = m.current_id + count - 1 := by
  unfold reserveRange at h
  split at h
  · cases h
  · rename_i hc
    refine ⟨hc, ?_⟩
    simp only [fetchAdd] at h
    split at h
    · rename_i last hlast
      cases h
      obtain ⟨sum, hsum, hlast⟩ := Option.bind_eq_some_iff.1 hlast
      rw [← p.sub_eq hlast, ← p.add_eq hsum]
      exact ⟨rfl, rfl⟩
    · cases h

/-- A reserved range that is not reversed has as many ids as were asked for, wrapping or not. -/
theorem reserveRange_length {p : Profile} {m : RequestIdManager} {count : UInt64}
    {range : RangeInclusive}
    (h : (m.reserveRange p count).1 = some (some range)) (hle : range.start ≤ range.last) :
    0 < count.toNat ∧ range.last.toNat + 1 = range.start.toNat + count.toNat := by
  obtain ⟨hc, hstart, hlast⟩ := reserveRange_some h
  have h0 : 0 < count.toNat := by
    rw [Nat.pos_iff_ne_zero]; exact fun h0 => hc (UInt64.toNat.inj (by simpa using h0))
  have hcount := count.toNat_lt
  have hcur := m.current_id.toNat_lt
  have hone : (1 : UInt64).toNat ≤ count.toNat := by rw [UInt64.toNat_one]; exact h0
  have hassoc : range.last.val = m.current_id + (count - 1) := by
    rw [hlast, UInt64.sub_eq_add_neg, UInt64.sub_eq_add_neg, UInt64.add_assoc]
  rw [RequestId.le_iff] at hle
  simp only [RequestId.toNat, hstart, hassoc, UInt64.toNat_add, toNat_sub_of_le hone,
    UInt64.toNat_one] at hle ⊢
  omega

end RequestIdManager

end JsonRpc
