import Mathlib

/-!
# Bringing keyed items into the order of their keys

`IsArrangement key c n l v` says what the result is: the items of `l`, rearranged so that their keys
read `c, c + 1, …, c + n - 1`. There is at most one (`IsArrangement.unique`), and there is one just
when the keys are a permutation of that list (`exists_arrangement_iff`).

`Placed` is the loop invariant of the usual way to compute it, a table of `n` slots into which the
items are put one by one at their key's distance from `c`. A full table is the arrangement
(`Placed.full`).
-/

namespace Arrange
variable {α : Type} {key : α → Option Nat} {c n : Nat} {l v w : List α}

/-- `v` is `l` in the order of its keys, which are the `n` numbers from `c`. -/
structure IsArrangement (key : α → Option Nat) (c n : Nat) (l v : List α) : Prop where
  perm : v.Perm l
  keys : v.map key = (List.range' c n).map some

theorem IsArrangement.length_eq (h : IsArrangement key c n l v) : v.length = n := by
  simpa using congrArg List.length h.keys

theorem IsArrangement.key_getElem (h : IsArrangement key c n l v) {i : Nat} {a : α}
    (ha : v[i]? = some a) :
    key a = some (c + i) := by
  have hi : i < n := by
    rw [← h.length_eq]; exact (List.getElem?_eq_some_iff.1 ha).1
  have hk : (v.map key)[i]? = some (key a) := by rw [List.getElem?_map, ha]; rfl
  rw [h.keys] at hk
  simpa [List.getElem?_range', hi, eq_comm] using hk

theorem IsArrangement.keys_perm (h : IsArrangement key c n l v) :
    (l.map key).Perm ((List.range' c n).map some) := by
  rw [← h.keys]; exact (h.perm.map key).symm

theorem nodup_keys : ((List.range' c n).map some).Nodup :=
  List.Nodup.map (Option.some_injective _) List.nodup_range'

theorem IsArrangement.key_mem (h : IsArrangement key c n l v) {a : α} (ha : a ∈ l) :
    ∃ k, key a = some k ∧ c ≤ k ∧ k < c + n := by
  obtain ⟨k, hk, hkey⟩ := List.mem_map.1 (h.keys_perm.mem_iff.1 (List.mem_map_of_mem ha))
  exact ⟨k, hkey.symm, List.mem_range'_1.1 hk⟩

theorem key_ne_of_nodup {a b : α} (h : ((l ++ a :: w).map key).Nodup)
    (hb : b ∈ l) : key b ≠ key a := by
  rw [List.map_append, List.nodup_append] at h
  exact h.2.2 _ (List.mem_map_of_mem hb) _ (List.mem_map_of_mem List.mem_cons_self)

theorem IsArrangement.key_ne {a b : α} (h : IsArrangement key c n (l ++ a :: w) v) (hb : b ∈ l) :
    key b ≠ key a := key_ne_of_nodup (h.keys_perm.nodup_iff.2 nodup_keys) hb

theorem IsArrangement.unique (hv : IsArrangement key c n l v) (hw : IsArrangement key c n l w) :
    v = w := by
  have hnodup : (l.map key).Nodup := (hv.keys_perm.nodup_iff).2 nodup_keys
  refine List.ext_getElem (by rw [hv.length_eq, hw.length_eq]) ?_
  intro i hi hi'
  have hvi := hv.key_getElem (List.getElem?_eq_getElem hi)
  have hwi := hw.key_getElem (List.getElem?_eq_getElem hi')
  exact List.inj_on_of_nodup_map hnodup (hv.perm.mem_iff.1 (List.getElem_mem hi))
    (hw.perm.mem_iff.1 (List.getElem_mem hi')) (hvi.trans hwi.symm)

/-! ## Slot tables -/

/-- The table `slots` holds the items `l`, each at its key's distance from `c`. -/
structure Placed (key : α → Option Nat) (c n : Nat) (slots : List (Option α))
    (l : List α) : Prop where
  length_eq : slots.length = n
  perm : slots.reduceOption.Perm l
  keyed : ∀ i a, slots[i]? = some (some a) → key a = some (c + i)

theorem Placed.empty : Placed key c n (List.replicate n none) [] where
  length_eq := by simp
  perm := by simp [List.reduceOption_replicate_none]
  keyed i a h := by
    rw [List.getElem?_replicate] at h
    split at h <;> cases h

/-- Filling an empty slot adds one item to the table. -/
theorem reduceOption_set {a : α} : ∀ {slots : List (Option α)} {i : Nat}, slots[i]? = some none →
    (slots.set i (some a)).reduceOption.Perm (a :: slots.reduceOption)
  | [], _, h => by simp at h
  | s :: slots, 0, h => by
    simp only [List.getElem?_cons_zero, Option.some.injEq] at h
    subst h
    simp [List.reduceOption_cons_of_some, List.reduceOption_cons_of_none]
  | none :: slots, i + 1, h => by
    simpa [List.reduceOption_cons_of_none] using reduceOption_set (by simpa using h)
  | some b :: slots, i + 1, h => by
    have ih := @reduceOption_set a slots i (by simpa using h)
    simp only [List.set_cons_succ, List.reduceOption_cons_of_some]
    exact (ih.cons b).trans (.swap a b _)

theorem Placed.place {slots : List (Option α)} {i : Nat} {a : α} (h : Placed key c n slots l)
    (hi : slots[i]? = some none) (ha : key a = some (c + i)) :
    Placed key c n (slots.set i (some a)) (l ++ [a]) where
  length_eq := by rw [List.length_set, h.length_eq]
  perm := ((reduceOption_set hi).trans (h.perm.cons a)).trans (List.perm_append_singleton a l).symm
  keyed j b hb := by
    rw [List.getElem?_set] at hb
    split at hb
    · rename_i hij
      split at hb
      · cases hb; exact hij ▸ ha
      · cases hb
    · exact h.keyed j b hb

theorem Placed.mem_of_occupied {slots : List (Option α)} {i : Nat} {b : α}
    (h : Placed key c n slots l) (hi : slots[i]? = some (some b)) : b ∈ l :=
  h.perm.mem_iff.1 (List.reduceOption_mem_iff.2 (List.mem_of_getElem? hi))

/-- A key in range whose item is not in the table yet finds its slot empty. -/
theorem Placed.vacant {slots : List (Option α)} {i : Nat} (h : Placed key c n slots l) (hi : i < n)
    (hnew : ∀ b ∈ l, key b ≠ some (c + i)) : slots[i]? = some none := by
  rw [← h.length_eq] at hi
  rw [List.getElem?_eq_getElem hi]
  cases hs : slots[i] with
  | none => rfl
  | some b =>
    have hb : slots[i]? = some (some b) := by rw [List.getElem?_eq_getElem hi, hs]
    exact absurd (h.keyed i b hb) (hnew b (h.mem_of_occupied hb))

/-- `n` items fill the `n` slots, in the order of the keys. -/
theorem Placed.full {slots : List (Option α)} (h : Placed key c n slots l) (hl : l.length = n) :
    ∃ v, slots = v.map some ∧ IsArrangement key c n l v := by
  have hlen : slots.reduceOption.length = slots.length := by
    rw [h.perm.length_eq, hl, h.length_eq]
  have hsome := List.reduceOption_length_eq_iff.1 hlen
  have hslots : slots = slots.reduceOption.map some := by
    clear hlen h
    induction slots with
    | nil => rfl
    | cons s slots ih =>
      obtain ⟨a, rfl⟩ := Option.isSome_iff_exists.1 (hsome s (by simp))
      rw [List.reduceOption_cons_of_some, List.map_cons, ← ih fun x hx => hsome x (by simp [hx])]
  have hv : slots.reduceOption.length = n := by rw [hlen, h.length_eq]
  refine ⟨slots.reduceOption, hslots, h.perm, List.ext_getElem? fun i => ?_⟩
  by_cases hi : i < n
  · have hi' : i < slots.reduceOption.length := by rw [hv]; exact hi
    have hslot : slots[i]? = some (some (slots.reduceOption[i])) := by
      conv_lhs => rw [hslots]
      rw [List.getElem?_map, List.getElem?_eq_getElem hi']; rfl
    rw [List.getElem?_map, List.getElem?_eq_getElem hi', Option.map_some, h.keyed i _ hslot]
    simp [hi]
  · rw [List.getElem?_eq_none (by simpa [hv] using hi), List.getElem?_eq_none (by simpa using hi)]

/-! ## Existence -/

/-- Items whose keys are the `n` numbers from `c`, in any order, can be arranged. -/
theorem exists_arrangement (h : (l.map key).Perm ((List.range' c n).map some)) :
    ∃ v, IsArrangement key c n l v := by
  have hnodup : (l.map key).Nodup := h.nodup_iff.2 nodup_keys
  have hlen : l.length = n := by simpa using h.length_eq
  suffices hfill : ∀ m, m ≤ l.length → ∃ slots, Placed key c n slots (l.take m) by
    obtain ⟨slots, hs⟩ := hfill l.length (Nat.le_refl _)
    rw [List.take_length] at hs
    obtain ⟨v, -, hv⟩ := hs.full hlen
    exact ⟨v, hv⟩
  intro m
  induction m with
  | zero => exact fun _ => ⟨_, by simpa using Placed.empty⟩
  | succ m ih =>
    intro hm
    obtain ⟨slots, hs⟩ := ih (by omega)
    have hmem : key l[m] ∈ (List.range' c n).map some :=
      h.mem_iff.1 (List.mem_map_of_mem (List.getElem_mem hm))
    obtain ⟨k, hk, hkey⟩ := List.mem_map.1 hmem
    rw [List.mem_range'_1] at hk
    have hkey' : key l[m] = some (c + (k - c)) := by rw [← hkey]; congr 1; omega
    refine ⟨slots.set (k - c) (some l[m]), ?_⟩
    rw [List.take_add_one, List.getElem?_eq_getElem hm]
    refine hs.place (hs.vacant (by omega) fun b hb hb' => ?_) hkey'
    -- an earlier item with this key would be a second one
    have hsplit : l = l.take m ++ l[m] :: l.drop (m + 1) := by
      conv_lhs => rw [← List.take_append_drop m l, List.drop_eq_getElem_cons hm]
    rw [hsplit] at hnodup
    exact key_ne_of_nodup hnodup hb (hb'.trans hkey'.symm)

theorem exists_arrangement_iff :
    (∃ v, IsArrangement key c n l v) ↔ (l.map key).Perm ((List.range' c n).map some) :=
  ⟨fun ⟨_, h⟩ => h.keys_perm, exists_arrangement⟩

end Arrange
