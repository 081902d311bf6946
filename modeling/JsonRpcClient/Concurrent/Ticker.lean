import Mathlib

/-!
# A periodic timer

A ticker has a period and a deadline; its first deadline is the time it is made. A tick completes
at the first poll at or after the deadline. A tick that is more than `tolerance` late is *missed*, and
it then counts the next period from the late tick on, so that it never catches up with a
burst; a tick in time keeps to the schedule. The period is positive by construction.

`Ticks` are the ticks of a ticker whose polls may be as late as they like. They never come closer
together than the period, less what may be too late for the earlier of them (`Ticks.spaced`).
Being late does not add up: from one tick to any later one there is a period for each step, less the
same tolerance once (`Ticks.far`), so there are few ticks in any span of time (`Ticks.length_le`).
The next one is due a period after the last at most (`Ticks.due`).
-/

structure Ticker where
  period : Nat
  deadline : Nat
  period_pos : 0 < period

namespace Ticker

/-- `none` is the panic on a period of zero. -/
def start? (period now : Nat) : Option Ticker :=
  if h : 0 < period then some ⟨period, now, h⟩ else none

/-- A poll; `none` where the tick is not due. -/
def tick (tolerance : Nat) (i : Ticker) (now : Nat) : Option Ticker :=
  if now < i.deadline then none
  else if now ≤ i.deadline + tolerance then some { i with deadline := i.deadline + i.period }
  else some { i with deadline := now + i.period }

variable {tolerance now : Nat} {i i' : Ticker}

theorem start?_eq_some {period : Nat} (h : start? period now = some i) :
    i.period = period ∧ i.deadline = now := by
  unfold start? at h
  split at h
  · cases h
    exact ⟨rfl, rfl⟩
  · cases h

theorem start?_eq_none {period : Nat} : start? period now = none ↔ period = 0 := by
  unfold start?
  split
  · simp
    omega
  · simp
    omega

/-- What a tick does to the schedule. -/
theorem tick_eq_some (h : i.tick tolerance now = some i') :
    i'.period = i.period ∧ i.deadline ≤ now ∧ now + i.period ≤ i'.deadline + tolerance ∧
      i'.deadline ≤ now + i.period ∧ i.deadline + i.period ≤ i'.deadline := by
  unfold tick at h
  split at h
  · cases h
  · split at h
    · obtain rfl := Option.some.inj h
      dsimp only
      omega
    · obtain rfl := Option.some.inj h
      dsimp only
      omega

theorem tick_isSome : (i.tick tolerance now).isSome = true ↔ i.deadline ≤ now := by
  unfold tick
  by_cases hdue : now < i.deadline
  · rw [if_pos hdue]
    exact iff_of_false (by simp) (by omega)
  · rw [if_neg hdue]
    refine iff_of_true ?_ (by omega)
    split <;> rfl

/-- The times of the ticks since the ticker was made. -/
inductive Ticks (tolerance : Nat) (i : Ticker) : List Nat → Ticker → Prop
  | nil : Ticks tolerance i [] i
  | tick {ts i1 now i2} : Ticks tolerance i ts i1 → i1.tick tolerance now = some i2 →
      Ticks tolerance i (ts ++ [now]) i2

variable {ts : List Nat}

theorem Ticks.period_eq (h : Ticks tolerance i ts i') : i'.period = i.period := by
  induction h with
  | nil => rfl
  | tick _ ht ih => rw [(tick_eq_some ht).1, ih]

/-- **The next tick is due at once, or a period after the last one at most.** -/
theorem Ticks.due (h : Ticks tolerance i ts i') :
    (ts = [] → i'.deadline = i.deadline) ∧ ∀ t ∈ ts.getLast?, i'.deadline ≤ t + i.period := by
  cases h with
  | nil => simp
  | tick h ht =>
    obtain ⟨-, -, -, hle, -⟩ := tick_eq_some ht
    rw [h.period_eq] at hle
    refine ⟨by simp, ?_⟩
    intro t hlast
    rw [List.getLast?_concat, Option.mem_some_iff] at hlast
    omega

/-- A tick is not followed by another before its period is over, less the tolerance. -/
theorem Ticks.last (h : Ticks tolerance i ts i') :
    ∀ t ∈ ts.getLast?, t + i.period ≤ i'.deadline + tolerance := by
  cases h with
  | nil => simp
  | tick h ht =>
    obtain ⟨-, -, hle, -⟩ := tick_eq_some ht
    rw [h.period_eq] at hle
    intro t hlast
    rw [List.getLast?_concat, Option.mem_some_iff] at hlast
    omega

/-- **No bursts**: between two ticks is the period, less the tolerance. -/
theorem Ticks.spaced (h : Ticks tolerance i ts i') :
    ts.IsChain fun t t' => t + i.period ≤ t' + tolerance := by
  induction h with
  | nil => exact .nil
  | @tick ts i1 now i2 h ht ih =>
    obtain ⟨-, hdue, -⟩ := tick_eq_some ht
    rw [List.isChain_append]
    refine ⟨ih, .singleton _, fun t hlast t' hhead => ?_⟩
    have hle := h.last t hlast
    rw [List.head?_cons, Option.mem_some_iff] at hhead
    omega

/-- After any tick, the schedule goes on by a period for each of the next ones. -/
theorem Ticks.ahead (h : Ticks tolerance i ts i') {pre mid : List Nat} {t : Nat}
    (heq : ts = pre ++ t :: mid) :
    t + (mid.length + 1) * i.period ≤ i'.deadline + tolerance := by
  induction h generalizing mid with
  | nil => simp at heq
  | @tick ts i1 now i2 h ht ih =>
    obtain ⟨-, -, hnow, -, hput⟩ := tick_eq_some ht
    rw [h.period_eq] at hnow hput
    cases mid using List.reverseRecOn with
    | nil =>
      obtain ⟨-, hlast⟩ := List.append_inj' heq rfl
      obtain rfl : now = t := by simpa using hlast
      simpa using hnow
    | append_singleton mid t' =>
      rw [← List.cons_append, ← List.append_assoc] at heq
      have hle := ih (List.append_inj' heq rfl).1
      rw [List.length_append, List.length_singleton, Nat.succ_mul (mid.length + 1)]
      omega

/-- **Being late does not add up**: from one tick to a later one is a period for each step, less the
tolerance once. -/
theorem Ticks.far (h : Ticks tolerance i ts i') {pre mid post : List Nat} {t t' : Nat}
    (heq : ts = pre ++ t :: mid ++ t' :: post) :
    t + (mid.length + 1) * i.period ≤ t' + tolerance := by
  induction h generalizing post with
  | nil => simp at heq
  | @tick ts i1 now i2 h ht ih =>
    cases post using List.reverseRecOn with
    | nil =>
      obtain ⟨hinit, hlast⟩ := List.append_inj' heq rfl
      obtain rfl : now = t' := by simpa using hlast
      obtain ⟨-, hdue, -⟩ := tick_eq_some ht
      have hle := h.ahead hinit
      omega
    | append_singleton post t'' =>
      rw [← List.cons_append, ← List.append_assoc] at heq
      exact ih (List.append_inj' heq rfl).1

/-- In a span of time there is one tick for each period in it, and one more. -/
theorem Ticks.length_le (h : Ticks tolerance i ts i') {l : List Nat} (hl : l <:+: ts) {lo hi : Nat}
    (hb : ∀ t ∈ l, lo ≤ t ∧ t ≤ hi) : (l.length - 1) * i.period ≤ hi - lo + tolerance := by
  cases l with
  | nil => simp
  | cons t l =>
    cases l using List.reverseRecOn with
    | nil => simp
    | append_singleton mid t' =>
      obtain ⟨pre, post, rfl⟩ := hl
      have hfar := h.far
        (show pre ++ t :: (mid ++ [t']) ++ post = pre ++ t :: mid ++ t' :: post by simp)
      obtain ⟨hlo, -⟩ := hb t (by simp)
      obtain ⟨-, hhi⟩ := hb t' (by simp)
      rw [List.length_cons, Nat.add_sub_cancel, List.length_append, List.length_singleton]
      omega

end Ticker
