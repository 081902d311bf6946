import Mathlib

/-!
# `mapM` that stops at the first failure

A list is mapped successfully just when every element is.
-/

namespace Traverse
variable {α β ε : Type}

theorem mapM_eq_some {f : α → Option β} : ∀ {l : List α} {r : List β},
    l.mapM f = some r ↔ List.Forall₂ (fun a b => f a = some b) l r
  | [], r => by cases r <;> simp
  | a :: l, r => by
    rw [List.mapM_cons]
    cases ha : f a with
    | none => cases r <;> simp [ha]
    | some b =>
      have ih := @mapM_eq_some f l
      cases r with
      | nil => cases hl : l.mapM f <;> simp
      | cons b' r =>
        cases hl : l.mapM f with
        | none => simp [← ih, hl]
        | some bs => simp [← ih, hl, ha]

theorem mapM_eq_ok {f : α → Except ε β} : ∀ {l : List α} {r : List β},
    l.mapM f = .ok r ↔ List.Forall₂ (fun a b => f a = .ok b) l r
  | [], r => by cases r <;> simp [pure, Except.pure]
  | a :: l, r => by
    rw [List.mapM_cons]
    cases ha : f a with
    | error e => cases r <;> simp [bind, Except.bind, ha]
    | ok b =>
      have ih := @mapM_eq_ok f l
      cases r with
      | nil => cases hl : l.mapM f <;> simp [bind, Except.bind, pure, Except.pure]
      | cons b' r =>
        cases hl : l.mapM f with
        | error e => simp [bind, Except.bind, ← ih, hl]
        | ok bs => simp [bind, Except.bind, pure, Except.pure, ← ih, hl, ha]

/-- The failure is that of an element. -/
theorem mapM_eq_error {f : α → Except ε β} {e : ε} : ∀ {l : List α}, l.mapM f = .error e →
    ∃ a ∈ l, f a = .error e
  | [], h => by cases h
  | a :: l, h => by
    rw [List.mapM_cons] at h
    cases ha : f a with
    | error e' =>
      rw [ha] at h
      cases h
      exact ⟨a, List.mem_cons_self, ha⟩
    | ok b =>
      rw [ha] at h
      cases hl : l.mapM f with
      | error e' =>
        rw [hl] at h
        cases h
        obtain ⟨x, hx, hfx⟩ := mapM_eq_error hl
        exact ⟨x, List.mem_cons_of_mem a hx, hfx⟩
      | ok bs =>
        rw [hl] at h
        cases h

/-- The elements with a result come from elements of the list. -/
theorem mem_of_forall₂ {P : α → β → Prop} {l : List α} {r : List β} (h : List.Forall₂ P l r) {b : β}
    (hb : b ∈ r) : ∃ a ∈ l, P a b := by
  induction h with
  | nil => cases hb
  | cons hab _ ih =>
    rcases List.mem_cons.1 hb with rfl | hb
    · exact ⟨_, List.mem_cons_self, hab⟩
    · obtain ⟨a, ha, hP⟩ := ih hb
      exact ⟨a, List.mem_cons_of_mem _ ha, hP⟩

theorem getElem?_of_forall₂ {P : α → β → Prop} {l : List α} {r : List β} (h : List.Forall₂ P l r)
    {i : Nat} {b : β} (hb : r[i]? = some b) : ∃ a, l[i]? = some a ∧ P a b := by
  induction h generalizing i with
  | nil => cases hb
  | @cons a c _ _ hab _ ih =>
    cases i with
    | zero => cases hb; exact ⟨a, rfl, hab⟩
    | succ i => exact ih hb

/-- Elements that have a result each, have them all together. -/
theorem exists_forall₂ {P : α → β → Prop} : ∀ {l : List α}, (∀ a ∈ l, ∃ b, P a b) →
    ∃ r, List.Forall₂ P l r
  | [], _ => ⟨[], .nil⟩
  | a :: l, h => by
    obtain ⟨b, hb⟩ := h a List.mem_cons_self
    obtain ⟨r, hr⟩ := exists_forall₂ fun x hx => h x (List.mem_cons_of_mem a hx)
    exact ⟨b :: r, .cons hb hr⟩

end Traverse
