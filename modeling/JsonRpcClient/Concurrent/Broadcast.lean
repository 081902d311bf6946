import Mathlib

/-!
# A bounded broadcast channel

The channel retains the last `capacity` items of everything sent. Each receiver reads on its own: it
gets the items in order, and where it has fallen behind the oldest retained item it is told how many
items it has missed and goes on from there. `Reads` records what a receiver was given between two
positions of the log, and `Reads.total` is the balance.
-/

namespace Broadcast

/-- Everything sent so far, and how much of it is retained. -/
structure Channel (α : Type) where
  capacity : Nat
  log : List α

inductive Recv (α : Type) where
  | item (a : α)
  | lagged (n : Nat)
deriving DecidableEq

variable {α : Type}

namespace Channel

def send (ch : Channel α) (a : α) : Channel α := { ch with log := ch.log ++ [a] }

/-- The position of a receiver that subscribes now. -/
def tail (ch : Channel α) : Nat := ch.log.length

/-- The position of the oldest retained item. -/
def oldest (ch : Channel α) : Nat := ch.log.length - ch.capacity

/-- `recv` of a receiver at `pos`, and its position after that; `none` where it has to wait. -/
def recv (ch : Channel α) (pos : Nat) : Option (Recv α × Nat) :=
  if pos < ch.oldest then some (.lagged (ch.oldest - pos), ch.oldest)
  else ch.log[pos]?.map fun a => (.item a, pos + 1)

@[simp] theorem send_log (ch : Channel α) (a : α) : (ch.send a).log = ch.log ++ [a] := rfl
@[simp] theorem send_capacity (ch : Channel α) (a : α) : (ch.send a).capacity = ch.capacity := rfl
@[simp] theorem send_tail (ch : Channel α) (a : α) : (ch.send a).tail = ch.tail + 1 := by
  simp [tail]

theorem recv_cases {ch : Channel α} {pos pos' : Nat} {r : Recv α}
    (h : ch.recv pos = some (r, pos')) :
    (∃ a, r = .item a ∧ ch.log[pos]? = some a ∧ pos' = pos + 1) ∨
    (∃ n, r = .lagged n ∧ 0 < n ∧ pos' = pos + n ∧ pos' = ch.oldest) := by
  unfold recv at h
  split at h
  · cases h
    exact .inr ⟨_, rfl, by omega, by omega, rfl⟩
  · obtain ⟨a, ha, heq⟩ := Option.map_eq_some_iff.1 h
    cases heq
    exact .inl ⟨a, rfl, ha, rfl⟩

theorem recv_item {ch : Channel α} {pos pos' : Nat} {a : α}
    (h : ch.recv pos = some (.item a, pos')) :
    ch.oldest ≤ pos ∧ ch.log[pos]? = some a ∧ pos' = pos + 1 := by
  unfold recv at h
  split at h
  · cases h
  · obtain ⟨b, hb, heq⟩ := Option.map_eq_some_iff.1 h
    cases heq
    exact ⟨by omega, hb, rfl⟩

/-- A receiver waits only where it has come to the end of the log. -/
theorem length_le_of_recv {ch : Channel α} {pos : Nat} (h : ch.recv pos = none) :
    ch.log.length ≤ pos := by
  unfold recv at h
  split at h
  · cases h
  · rw [Option.map_eq_none_iff, List.getElem?_eq_none_iff] at h
    exact h

theorem oldest_le (ch : Channel α) : ch.oldest ≤ ch.log.length := Nat.sub_le _ _

/-- A receiver never gets ahead of the log. -/
theorem recv_le {ch : Channel α} {pos pos' : Nat} {r : Recv α} (h : ch.recv pos = some (r, pos')) :
    pos < pos' ∧ pos' ≤ ch.log.length := by
  rcases recv_cases h with ⟨a, -, ha, rfl⟩ | ⟨n, -, hn, rfl, hold⟩
  · exact ⟨by omega, (List.getElem?_eq_some_iff.1 ha).1⟩
  · exact ⟨by omega, hold ▸ ch.oldest_le⟩

end Channel

/-! ## What a receiver was given -/

/-- Reading from position `p` on gave `rs` and led to position `q`: each item is the log's next one,
and each `lagged n` stands for the next `n`. -/
inductive Reads (log : List α) (p : Nat) : List (Recv α) → Nat → Prop
  | nil : Reads log p [] p
  | item {rs q a} : Reads log p rs q → log[q]? = some a → Reads log p (rs ++ [.item a]) (q + 1)
  | lagged {rs q n} : Reads log p rs q → q + n ≤ log.length →
      Reads log p (rs ++ [.lagged n]) (q + n)

/-- The items, and the number of items missed. -/
def items (rs : List (Recv α)) : List α := rs.filterMap fun | .item a => some a | .lagged _ => none

def missed (rs : List (Recv α)) : Nat := (rs.map fun | .item _ => 0 | .lagged n => n).sum

variable {log : List α} {p q : Nat} {rs : List (Recv α)}

theorem Reads.append (h : Reads log p rs q) (l : List α) : Reads (log ++ l) p rs q := by
  induction h with
  | nil => exact .nil
  | item _ ha ih =>
    apply ih.item
    rw [List.getElem?_append_left (List.getElem?_eq_some_iff.1 ha).1, ha]
  | lagged _ hn ih => exact ih.lagged (by rw [List.length_append]; omega)

theorem Reads.recv {ch : Channel α} {q' : Nat} {r : Recv α} (h : Reads ch.log p rs q)
    (hr : ch.recv q = some (r, q')) : Reads ch.log p (rs ++ [r]) q' := by
  have hle := Channel.recv_le hr
  rcases Channel.recv_cases hr with ⟨a, rfl, ha, rfl⟩ | ⟨n, rfl, hn, rfl, -⟩
  · exact h.item ha
  · exact h.lagged hle.2

/-- **Every item passed is given or counted as missed.** -/
theorem Reads.total (h : Reads log p rs q) : p + (items rs).length + missed rs = q := by
  induction h with
  | nil => simp [items, missed]
  | item _ _ ih => simp [items, missed] at ih ⊢; omega
  | lagged _ _ ih => simp [items, missed] at ih ⊢; omega

theorem Reads.le (h : Reads log p rs q) : p ≤ q := by have := h.total; omega

/-- Reading from position `p` on is reading what comes after `p`. -/
theorem Reads.drop (h : Reads log p rs q) : Reads (log.drop p) 0 rs (q - p) := by
  induction h with
  | nil => simpa using Reads.nil
  | @item rs q a h ha ih =>
    have hle := h.le
    rw [show q + 1 - p = q - p + 1 by omega]
    apply ih.item
    rw [List.getElem?_drop, show p + (q - p) = q by omega, ha]
  | @lagged rs q n h hn ih =>
    have hle := h.le
    rw [show q + n - p = q - p + n by omega]
    exact ih.lagged (by rw [List.length_drop]; omega)

/-- The item at `j` is one of those that were counted as missed. -/
def Missed (log : List α) (p : Nat) (rs : List (Recv α)) (j : Nat) : Prop :=
  ∃ rs1 n rs2 q, rs = rs1 ++ .lagged n :: rs2 ∧ Reads log p rs1 q ∧ q ≤ j ∧ j < q + n

theorem Missed.append {j : Nat} (h : Missed log p rs j) (l : List α) (rs' : List (Recv α)) :
    Missed (log ++ l) p (rs ++ rs') j := by
  obtain ⟨rs1, n, rs2, q, rfl, hread, hj⟩ := h
  exact ⟨rs1, n, rs2 ++ rs', q, by simp, hread.append l, hj⟩

/-- The item at `j` was given. -/
def Given (log : List α) (p : Nat) (rs : List (Recv α)) (j : Nat) : Prop :=
  ∃ rs1 a rs2, rs = rs1 ++ .item a :: rs2 ∧ Reads log p rs1 j ∧ log[j]? = some a

/-- Each item that was passed was given or missed. -/
theorem Reads.passed (h : Reads log p rs q) {j : Nat} (hlo : p ≤ j) (hhi : j < q) :
    Given log p rs j ∨ Missed log p rs j := by
  induction h with
  | nil => omega
  | @item rs q a h ha ih =>
    by_cases hj : j < q
    · rcases ih hj with ⟨rs1, b, rs2, rfl, h1, hb⟩ | ⟨rs1, n, rs2, q1, rfl, h1⟩
      · exact .inl ⟨rs1, b, rs2 ++ [.item a], by simp, h1, hb⟩
      · exact .inr ⟨rs1, n, rs2 ++ [.item a], q1, by simp, h1⟩
    · obtain rfl : j = q := by omega
      exact .inl ⟨rs, a, [], rfl, h, ha⟩
  | @lagged rs q n h hn ih =>
    by_cases hj : j < q
    · rcases ih hj with ⟨rs1, b, rs2, rfl, h1, hb⟩ | ⟨rs1, m, rs2, q1, rfl, h1⟩
      · exact .inl ⟨rs1, b, rs2 ++ [.lagged n], by simp, h1, hb⟩
      · exact .inr ⟨rs1, m, rs2 ++ [.lagged n], q1, by simp, h1⟩
    · exact .inr ⟨rs, n, [], q, rfl, h, by omega, hhi⟩

theorem items_append (rs rs' : List (Recv α)) : items (rs ++ rs') = items rs ++ items rs' :=
  List.filterMap_append

/-- What was given at `j` is one of the items, after those given before. -/
theorem Given.items {j : Nat} (h : Given log p rs j) :
    ∃ a l1 l2, log[j]? = some a ∧ items rs = l1 ++ a :: l2 := by
  obtain ⟨rs1, a, rs2, rfl, -, ha⟩ := h
  refine ⟨a, Broadcast.items rs1, Broadcast.items rs2, ha, ?_⟩
  rw [items_append]
  rfl

/-- Skipping from `p` to `q` loses no result of `g` just when `g` drops every item between. -/
theorem filterMap_drop_skip {β : Type} {g : α → Option β} (hle : p ≤ q) :
    ∃ skipped : List β, (log.drop p).filterMap g = skipped ++ (log.drop q).filterMap g ∧
      (skipped = [] ↔ ∀ j, p ≤ j → j < q → ∀ a, log[j]? = some a → g a = none) := by
  have hsplit : log.drop p = (log.drop p).take (q - p) ++ log.drop q := by
    conv_lhs => rw [← List.take_append_drop (q - p) (log.drop p)]
    rw [List.drop_drop, show p + (q - p) = q by omega]
  refine ⟨((log.drop p).take (q - p)).filterMap g, by rw [← List.filterMap_append, ← hsplit], ?_⟩
  rw [List.filterMap_eq_nil_iff]
  constructor
  · intro h j hp hq a ha
    refine h a (List.mem_of_getElem? (i := j - p) ?_)
    rw [List.getElem?_take_of_lt (by omega), List.getElem?_drop, show p + (j - p) = j by omega, ha]
  · intro h a ha
    obtain ⟨i, hi, rfl⟩ := List.getElem_of_mem ha
    rw [List.length_take, List.length_drop] at hi
    apply h (p + i) (by omega) (by omega) _
    rw [List.getElem_take, List.getElem_drop, List.getElem?_eq_getElem (by omega)]

end Broadcast
