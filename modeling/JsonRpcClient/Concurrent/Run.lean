import Mathlib

/-!
# Machines and their runs

A machine takes labelled steps; `step s a` is `none` where `a` cannot happen. A `Run` keeps the
labels of its steps in order, its *history*, and can be restricted to steps that satisfy a condition
on the state they are taken in. Invariants are proved by `Run.invariant`, and carried from a machine
to one of its parts by `Run.project`.
-/

structure Machine (σ α : Type) where
  init : σ
  step : σ → α → Option σ

namespace Machine
variable {σ τ α β : Type}

/-- Every step is allowed. -/
def always : σ → α → Prop := fun _ _ => True

/-- The runs all of whose steps satisfy `ok`, with their histories. -/
inductive Run (m : Machine σ α) (ok : σ → α → Prop) : List α → σ → Prop
  | nil : Run m ok [] m.init
  | snoc {h s a s'} : Run m ok h s → ok s a → m.step s a = some s' → Run m ok (h ++ [a]) s'

/-- Several steps, from any state. -/
def exec (m : Machine σ α) : σ → List α → Option σ
  | s, [] => some s
  | s, a :: as => (m.step s a).bind fun s' => m.exec s' as

/-- Several steps, each of them allowed. -/
def execOk (m : Machine σ α) (ok : σ → α → Prop) [∀ s a, Decidable (ok s a)] : σ → List α → Option σ
  | s, [] => some s
  | s, a :: as => if ok s a then (m.step s a).bind fun s' => m.execOk ok s' as else none

variable {m : Machine σ α} {ok : σ → α → Prop} {h : List α} {s s' : σ}

/-- **What holds at the start and is kept by every allowed step holds of every run**; the property
may speak of the history. -/
theorem Run.invariant {P : List α → σ → Prop} (hinit : P [] m.init)
    (hstep : ∀ h s a s', Run m ok h s → P h s → ok s a → m.step s a = some s' → P (h ++ [a]) s')
    (hr : Run m ok h s) : P h s := by
  induction hr with
  | nil => exact hinit
  | snoc hr hok hs ih => exact hstep _ _ _ _ hr ih hok hs

theorem Run.mono {ok' : σ → α → Prop} (hok : ∀ s a, ok s a → ok' s a)
    (hr : Run m ok h s) : Run m ok' h s := by
  induction hr with
  | nil => exact .nil
  | snoc _ h1 h2 ih => exact .snoc ih (hok _ _ h1) h2

theorem Run.restrict {ok' : σ → α → Prop} (hr : Run m ok h s)
    (hok : ∀ a ∈ h, ∀ s, ok' s a) : Run m ok' h s := by
  induction hr with
  | nil => exact .nil
  | snoc _ _ hs ih =>
    exact .snoc (ih fun a ha => hok a (List.mem_append_left _ ha))
      (hok _ (List.mem_append_right _ List.mem_cons_self) _) hs

theorem Run.any (hr : Run m ok h s) : Run m always h s := hr.mono fun _ _ _ => trivial

theorem Run.execOk [∀ s a, Decidable (ok s a)] : ∀ {as : List α} {h : List α} {s : σ},
    Run m ok h s →
    m.execOk ok s as = some s' → Run m ok (h ++ as) s'
  | [], h, s, hr, he => by cases he; simpa using hr
  | a :: as, h, s, hr, he => by
    simp only [Machine.execOk] at he
    split at he
    · rename_i hok
      obtain ⟨s1, hs1, he⟩ := Option.bind_eq_some_iff.1 he
      simpa using Run.execOk (hr.snoc hok hs1) he
    · cases he

theorem Run.exec : ∀ {as : List α} {h : List α} {s : σ}, Run m always h s → m.exec s as = some s' →
    Run m always (h ++ as) s'
  | [], h, s, hr, he => by cases he; simpa using hr
  | a :: as, h, s, hr, he => by
    obtain ⟨s1, hs1, he⟩ := Option.bind_eq_some_iff.1 he
    simpa using Run.exec (hr.snoc trivial hs1) he

/-- A concrete run, by evaluation. -/
theorem Run.of_exec {as : List α} (he : m.exec m.init as = some s) : Run m always as s := by
  simpa using Run.exec Run.nil he

theorem Run.of_execOk [∀ s a, Decidable (ok s a)] {as : List α}
    (he : m.execOk ok m.init as = some s) :
    Run m ok as s := by
  simpa using Run.execOk Run.nil he

theorem exec_append (as bs : List α) (s : σ) :
    m.exec s (as ++ bs) = (m.exec s as).bind fun s' => m.exec s' bs := by
  induction as generalizing s with
  | nil => rfl
  | cons a as ih =>
    simp only [List.cons_append, Machine.exec]
    cases m.step s a with
    | none => rfl
    | some s1 => exact ih s1

theorem Run.last {a : α} (hr : Run m ok (h ++ [a]) s') :
    ∃ s, Run m ok h s ∧ ok s a ∧ m.step s a = some s' := by
  generalize hh : h ++ [a] = h' at hr
  cases hr with
  | nil => simp at hh
  | snoc hr hok hs =>
    obtain ⟨rfl, hlast⟩ := List.append_inj' hh rfl
    cases hlast
    exact ⟨_, hr, hok, hs⟩

/-- A history leads to one state. -/
theorem Run.unique (hr : Run m ok h s) {ok' : σ → α → Prop} (hr' : Run m ok' h s') : s = s' := by
  induction hr generalizing s' with
  | nil =>
    generalize hh : ([] : List α) = h at hr'
    cases hr' with
    | nil => rfl
    | snoc => simp at hh
  | snoc _ _ hs ih =>
    obtain ⟨s1, hr1, -, hs'⟩ := hr'.last
    obtain rfl := ih hr1
    exact Option.some.inj (hs.symm.trans hs')

/-- Every step of the history was taken. -/
theorem Run.of_mem {a : α} (hr : Run m ok h s) (ha : a ∈ h) :
    ∃ h1 s1 s2, Run m ok h1 s1 ∧ ok s1 a ∧ m.step s1 a = some s2 := by
  induction hr with
  | nil => cases ha
  | snoc hr hok hs ih =>
    rcases List.mem_append.1 ha with ha | ha
    · exact ih ha
    · rw [List.mem_singleton] at ha
      subst ha
      exact ⟨_, _, _, hr, hok, hs⟩

/-- A run passes through a state after each of its steps. -/
theorem Run.split {h1 h2 : List α} (hr : Run m ok (h1 ++ h2) s) :
    ∃ s1, Run m ok h1 s1 ∧ m.exec s1 h2 = some s := by
  induction h2 using List.reverseRecOn generalizing s with
  | nil => exact ⟨s, by simpa using hr, rfl⟩
  | append_singleton h2 a ih =>
    rw [← List.append_assoc] at hr
    obtain ⟨s2, hr2, -, hs⟩ := hr.last
    obtain ⟨s1, hr1, he⟩ := ih hr2
    refine ⟨s1, hr1, ?_⟩
    rw [exec_append, he, Option.bind_some, Machine.exec, hs]
    rfl

theorem Run.exec_init (hr : Run m ok h s) : m.exec m.init h = some s := by
  obtain ⟨s1, hr1, he⟩ := @Run.split _ _ m ok s [] h hr
  obtain rfl := hr1.unique (.nil : Run m ok [] m.init)
  exact he

/-- An invariant of a part of a run, of which each step may be told which of them it is. -/
theorem Run.segment {P : σ → Prop} {as : List α} (hr : Run m ok (h ++ as) s')
    (hs : Run m ok h s) (hP : P s)
    (hstep : ∀ p a s1 s2, p ++ [a] <+: as → Run m ok (h ++ p) s1 → P s1 → m.step s1 a = some s2 →
      P s2) : P s' := by
  induction as using List.reverseRecOn generalizing s' with
  | nil =>
    rw [List.append_nil] at hr
    exact hr.unique hs ▸ hP
  | append_singleton as a ih =>
    rw [← List.append_assoc] at hr
    obtain ⟨s1, hr1, -, hs1⟩ := hr.last
    refine hstep as a s1 s' (List.prefix_refl _) hr1 ?_ hs1
    exact ih hr1 fun p b s2 s3 hp => hstep p b s2 s3 (hp.trans (List.prefix_append as [a]))

/-- What held and holds no more was lost in one step. -/
theorem Run.loses {P : σ → Prop} {as : List α} (hr : Run m ok (h ++ as) s') (hs : Run m ok h s)
    (hP : P s) (hn : ¬ P s') :
    ∃ p a q s1 s2, as = p ++ a :: q ∧ Run m ok (h ++ p) s1 ∧ P s1 ∧ m.step s1 a = some s2 ∧
      ¬ P s2 := by
  induction as using List.reverseRecOn generalizing s' with
  | nil =>
    rw [List.append_nil] at hr
    exact absurd (hr.unique hs ▸ hP) hn
  | append_singleton as a ih =>
    rw [← List.append_assoc] at hr
    obtain ⟨s1, hr1, -, hs1⟩ := hr.last
    by_cases hP1 : P s1
    · exact ⟨as, a, [], s1, s', rfl, hr1, hP1, hs1, hn⟩
    · obtain ⟨p, b, q, s2, s3, rfl, hp⟩ := ih hr1 hP1
      exact ⟨p, b, q ++ [a], s2, s3, by simp, hp⟩

/-- A subsequence of the steps of a part is one of the steps of the whole, when only `pre b` is `b`
there. -/
theorem sublist_of_filterMap {g : α → Option β} {pre : β → α} : ∀ {l : List α} {bs : List β},
    (∀ x, ∀ b ∈ bs, g x = some b → x = pre b) → bs.Sublist (l.filterMap g) → (bs.map pre).Sublist l
  | [], bs, _, hs => by cases bs with | nil => exact .slnil | cons => simp at hs
  | x :: l, bs, hpre, hs => by
    cases hg : g x with
    | none =>
      rw [List.filterMap_cons_none hg] at hs
      exact (sublist_of_filterMap hpre hs).cons x
    | some b =>
      rw [List.filterMap_cons_some hg] at hs
      cases hs with
      | cons _ hs => exact (sublist_of_filterMap hpre hs).cons x
      | cons_cons _ hs =>
        rename_i bs
        rw [List.map_cons, ← hpre x b List.mem_cons_self hg]
        exact (sublist_of_filterMap
          (fun y b' hb' => hpre y b' (List.mem_cons_of_mem _ hb')) hs).cons_cons x

/-- A step of a part is a step of the whole, at the same place among the others. -/
theorem split_of_filterMap {g : α → Option β} {l : List α} {b : β} {bs1 bs2 : List β}
    (h : l.filterMap g = bs1 ++ b :: bs2) :
    ∃ l1 x l2, l = l1 ++ x :: l2 ∧ g x = some b ∧ l1.filterMap g = bs1 ∧ l2.filterMap g = bs2 := by
  obtain ⟨l1, l', rfl, h1, h'⟩ := List.filterMap_eq_append_iff.1 h
  obtain ⟨l2, x, l3, rfl, h2, hx, h3⟩ := List.filterMap_eq_cons_iff.1 h'
  refine ⟨l1 ++ l2, x, l3, by simp, hx, ?_, h3⟩
  rw [List.filterMap_append, h1, List.filterMap_eq_nil_iff.2 h2, List.append_nil]

/-- The run of a part: `f` is the part's state, and `g` what a step of the whole does to it, if
anything. -/
theorem Run.project {n : Machine τ β} {ok' : τ → β → Prop} (f : σ → τ) (g : α → Option β)
    (hinit : f m.init = n.init) (hstep : ∀ s a s', ok s a → m.step s a = some s' →
      match g a with
      | some b => ok' (f s) b ∧ n.step (f s) b = some (f s')
      | none => f s' = f s)
    (hr : Run m ok h s) : Run n ok' (h.filterMap g) (f s) := by
  induction hr with
  | nil => rw [hinit]; exact .nil
  | snoc _ hok hs ih =>
    have hst := hstep _ _ _ hok hs
    rw [List.filterMap_append]
    cases hg : g _ with
    | none =>
      rw [hg] at hst
      simp only [List.filterMap_cons_none hg, List.filterMap_nil, List.append_nil]
      rw [hst]; exact ih
    | some b =>
      rw [hg] at hst
      simp only [List.filterMap_cons_some hg, List.filterMap_nil]
      exact ih.snoc hst.1 hst.2

end Machine
