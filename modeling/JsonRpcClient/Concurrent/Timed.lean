import JsonRpcClient.Concurrent.Run

/-!
# A machine with a clock

Any time may pass between two steps of a timed machine. Some of its steps start a timer, others wait
for one: they are possible when the timer's limit has passed since it was last started, and from then
on. Nothing has to happen in time.

`Run.waited` says how long a step has waited that waits for a timer. Forgetting the clock gives a run
of the machine (`Run.untimed`), and every run of it, in which no step waits for a timer that was never
started, is obtained so (`exists_timed`).
-/

structure Timers (α C : Type) where
  starts : α → Option C
  waits : α → Option C
  limit : C → Nat

structure Timed (σ C : Type) where
  core : σ
  now : Nat
  /-- when a timer was last started -/
  since : C → Option Nat

inductive TimedAct (α : Type) where
  | elapse (d : Nat)
  | act (a : α)

namespace TimedAct
variable {α : Type}

def act? : TimedAct α → Option α
  | elapse _ => none
  | act a => some a

def duration : TimedAct α → Nat
  | elapse d => d
  | act _ => 0

/-- How long a part of a history takes. -/
def elapsed (h : List (TimedAct α)) : Nat := (h.map duration).sum

@[simp] theorem elapsed_nil : elapsed ([] : List (TimedAct α)) = 0 := rfl

@[simp] theorem elapsed_append (h1 h2 : List (TimedAct α)) :
    elapsed (h1 ++ h2) = elapsed h1 + elapsed h2 := by
  simp [elapsed]

@[simp] theorem elapsed_act (a : α) (h : List (TimedAct α)) : elapsed (.act a :: h) = elapsed h := by
  simp [elapsed, duration]

@[simp] theorem elapsed_elapse (d : Nat) (h : List (TimedAct α)) :
    elapsed (.elapse d :: h) = d + elapsed h := by
  simp [elapsed, duration]

theorem act?_eq_some {x : TimedAct α} {a : α} : x.act? = some a ↔ x = .act a := by
  cases x with
  | elapse d => simp [act?]
  | act b => simp [act?]

end TimedAct

namespace Timers

def reached {σ α C : Type} (T : Timers α C) (s : Timed σ C) (c : C) : Bool :=
  (s.since c).any fun t => t + T.limit c ≤ s.now

theorem reached_eq_true {σ α C : Type} {T : Timers α C} {s : Timed σ C} {c : C} :
    T.reached s c = true ↔ ∃ t, s.since c = some t ∧ t + T.limit c ≤ s.now := by
  unfold reached
  cases s.since c <;> simp

variable {σ α C : Type} [DecidableEq C] (T : Timers α C) (m : Machine σ α)

def restart (s : Timed σ C) (a : α) (c : C) : Option Nat :=
  if T.starts a = some c then some s.now else s.since c

def step (s : Timed σ C) : TimedAct α → Option (Timed σ C)
  | .elapse d => some { s with now := s.now + d }
  | .act a =>
    if (T.waits a).all (T.reached s) then
      (m.step s.core a).map fun core => ⟨core, s.now, T.restart s a⟩
    else none

def timed : Machine (Timed σ C) (TimedAct α) := ⟨⟨m.init, 0, fun _ => none⟩, T.step m⟩

variable {T} {m} {s s' : Timed σ C} {a : α} {c : C} {h h1 h2 : List (TimedAct α)}
  {ok : Timed σ C → TimedAct α → Prop}

theorem timed_step_act : (T.timed m).step s (.act a) = some s' ↔
    (∀ c ∈ T.waits a, T.reached s c = true) ∧ m.step s.core a = some s'.core ∧ s'.now = s.now ∧
      s'.since = T.restart s a := by
  change (if (T.waits a).all (T.reached s) then
    (m.step s.core a).map fun core => ⟨core, s.now, T.restart s a⟩ else none) = some s' ↔ _
  split
  · rename_i hall
    rw [Option.map_eq_some_iff]
    constructor
    · rintro ⟨core, hcore, rfl⟩
      exact ⟨fun c hc => by simpa [Option.mem_def.1 hc] using hall, hcore, rfl, rfl⟩
    · rintro ⟨-, hcore, hnow, hsince⟩
      refine ⟨s'.core, hcore, ?_⟩
      rw [← hnow, ← hsince]
  · rename_i hall
    refine iff_of_false (by simp) ?_
    rintro ⟨hwaits, -⟩
    cases hc : T.waits a with
    | none => simp [hc] at hall
    | some c => simp [hc, hwaits c hc] at hall

theorem restart_eq_some {t : Nat} (h : T.restart s a c = some t) :
    (T.starts a = some c ∧ t = s.now) ∨ (T.starts a ≠ some c ∧ s.since c = some t) := by
  unfold restart at h
  by_cases hst : T.starts a = some c
  · rw [if_pos hst] at h
    exact .inl ⟨hst, (Option.some.inj h).symm⟩
  · rw [if_neg hst] at h
    exact .inr ⟨hst, h⟩

theorem restart_isSome (h : (s.since c).isSome = true ∨ T.starts a = some c) :
    (T.restart s a c).isSome = true := by
  unfold restart
  by_cases hst : T.starts a = some c
  · rw [if_pos hst]
    rfl
  · rw [if_neg hst]
    exact h.resolve_right hst

/-! ## Runs -/

/-- A run of the machine, when the clock is forgotten. -/
theorem Run.untimed (hr : (T.timed m).Run ok h s) :
    m.Run Machine.always (h.filterMap TimedAct.act?) s.core := by
  refine hr.project Timed.core TimedAct.act? rfl ?_
  intro s x s' _ hs
  cases x with
  | elapse d =>
    cases hs
    rfl
  | act a => exact ⟨trivial, (timed_step_act.1 hs).2.1⟩

theorem Run.now_eq (hr : (T.timed m).Run ok h s) : s.now = TimedAct.elapsed h := by
  induction hr with
  | nil => rfl
  | @snoc h s x s' _ _ hs ih =>
    cases x with
    | elapse d =>
      cases hs
      simp [ih]
    | act a => simp [(timed_step_act.1 hs).2.2.1, ih]

/-- The step that last started a timer, and what has happened since. -/
structure LastStart (T : Timers α C) (c : C) (b : α) (h2 : List (TimedAct α)) : Prop where
  starts : T.starts b = some c
  last : ∀ a, .act a ∈ h2 → T.starts a ≠ some c

theorem Run.started (hr : (T.timed m).Run ok h s) {t : Nat} (ht : s.since c = some t) :
    ∃ h1 b h2, h = h1 ++ .act b :: h2 ∧ LastStart T c b h2 ∧ t = TimedAct.elapsed h1 := by
  induction hr generalizing t with
  | nil => cases ht
  | @snoc h s x s' hr _ hs ih =>
    cases x with
    | elapse d =>
      cases hs
      obtain ⟨h1, b, h2, rfl, hst, rfl⟩ := ih ht
      refine ⟨h1, b, h2 ++ [.elapse d], by simp, ⟨hst.starts, ?_⟩, rfl⟩
      intro a ha
      exact hst.last a (by simpa using ha)
    | act a =>
      obtain ⟨-, -, -, hsince⟩ := timed_step_act.1 hs
      rw [hsince] at ht
      rcases restart_eq_some ht with ⟨hstarts, rfl⟩ | ⟨hother, ht⟩
      · exact ⟨h, a, [], rfl, ⟨hstarts, by simp⟩, Run.now_eq hr⟩
      · obtain ⟨h1, b, h2, rfl, hst, rfl⟩ := ih ht
        refine ⟨h1, b, h2 ++ [.act a], by simp, ⟨hst.starts, ?_⟩, rfl⟩
        intro a' ha'
        rcases List.mem_append.1 ha' with ha' | ha'
        · exact hst.last a' ha'
        · cases List.mem_singleton.1 ha'
          exact hother

/-- **A step that waits for a timer comes no earlier than its limit after the timer was last started.** -/
theorem Run.waited (hr : (T.timed m).Run ok (h1 ++ .act a :: h2) s) (hc : T.waits a = some c) :
    ∃ g1 b g2, h1 = g1 ++ .act b :: g2 ∧ LastStart T c b g2 ∧
      T.limit c ≤ TimedAct.elapsed g2 := by
  rw [List.append_cons] at hr
  obtain ⟨s2, hr2, -⟩ := hr.split
  obtain ⟨s1, hr1, -, hs⟩ := hr2.last
  obtain ⟨hwaits, -⟩ := timed_step_act.1 hs
  obtain ⟨t, ht, hle⟩ := reached_eq_true.1 (hwaits c hc)
  obtain ⟨g1, b, g2, rfl, hst, rfl⟩ := Run.started hr1 ht
  refine ⟨g1, b, g2, rfl, hst, ?_⟩
  have hnow := Run.now_eq hr1
  simp only [TimedAct.elapsed_append, TimedAct.elapsed_act] at hnow
  omega

theorem Run.since_isSome (hr : (T.timed m).Run ok h s) {b : α} (hb : .act b ∈ h)
    (hc : T.starts b = some c) : (s.since c).isSome = true := by
  induction hr with
  | nil => cases hb
  | @snoc h s x s' _ _ hs ih =>
    cases x with
    | elapse d =>
      cases hs
      exact ih (by simpa using hb)
    | act a =>
      obtain ⟨-, -, -, hsince⟩ := timed_step_act.1 hs
      rw [hsince]
      refine restart_isSome ?_
      rcases List.mem_append.1 hb with hb | hb
      · exact .inl (ih hb)
      · cases List.mem_singleton.1 hb
        exact .inr hc

theorem timed_act_isSome : ((T.timed m).step s (.act a)).isSome = true ↔
    (∀ c ∈ T.waits a, T.reached s c = true) ∧ (m.step s.core a).isSome = true := by
  constructor
  · intro h
    obtain ⟨s', hs⟩ := Option.isSome_iff_exists.1 h
    obtain ⟨hwaits, hcore, -⟩ := timed_step_act.1 hs
    exact ⟨hwaits, by rw [hcore]; rfl⟩
  · rintro ⟨hwaits, h⟩
    obtain ⟨core, hcore⟩ := Option.isSome_iff_exists.1 h
    have hs : (T.timed m).step s (.act a) = some ⟨core, s.now, T.restart s a⟩ :=
      timed_step_act.2 ⟨hwaits, hcore, rfl, rfl⟩
    rw [hs]
    rfl

/-- **Timers rule out nothing but haste.** -/
theorem exists_timed {ok : σ → α → Prop} {h : List α} {s : σ} (hr : m.Run ok h s)
    (hstarted : ∀ h1 a h2 c, h = h1 ++ a :: h2 → T.waits a = some c → ∃ b ∈ h1, T.starts b = some c) :
    ∃ g s', (T.timed m).Run Machine.always g s' ∧ g.filterMap TimedAct.act? = h ∧ s'.core = s := by
  induction hr with
  | nil => exact ⟨[], _, .nil, rfl, rfl⟩
  | @snoc h s a s2 _ _ hs ih =>
    obtain ⟨g, s1, hr1, hg, rfl⟩ := ih fun h1 b h2 c hh hc =>
      hstarted h1 b (h2 ++ [a]) c (by simp [hh]) hc
    -- wait until the step's own timer is over
    obtain ⟨d, hd⟩ : ∃ d, ∀ c ∈ T.waits a, T.reached { s1 with now := s1.now + d } c = true := by
      cases hc : T.waits a with
      | none => exact ⟨0, by simp⟩
      | some c =>
        obtain ⟨b, hb, hstarts⟩ := hstarted h a [] c rfl hc
        rw [← hg] at hb
        obtain ⟨x, hx, hxb⟩ := List.mem_filterMap.1 hb
        rw [TimedAct.act?_eq_some.1 hxb] at hx
        obtain ⟨t, ht⟩ := Option.isSome_iff_exists.1 (Run.since_isSome hr1 hx hstarts)
        refine ⟨t + T.limit c, ?_⟩
        rintro c' hc'
        obtain rfl := Option.mem_some_iff.1 hc'
        refine reached_eq_true.2 ⟨t, ht, ?_⟩
        dsimp only
        omega
    have hwait : (T.timed m).Run Machine.always (g ++ [.elapse d]) { s1 with now := s1.now + d } :=
      hr1.snoc trivial rfl
    have hact : (T.timed m).step { s1 with now := s1.now + d } (.act a) =
        some ⟨s2, s1.now + d, T.restart { s1 with now := s1.now + d } a⟩ :=
      timed_step_act.2 ⟨hd, hs, rfl, rfl⟩
    refine ⟨_, _, hwait.snoc trivial hact, ?_, rfl⟩
    rw [List.append_assoc, List.filterMap_append, hg]
    rfl

end Timers
