import JsonRpcClient.Concurrent.Run

/-!
# Two machines side by side

Two machines that run together take some steps alone and some at the same time. `Joint` says which
part of a step is whose, and where a step of one has to wait for the state of the other. A run of
the two together is a run of each of them, with the steps it has no part in left out (`Run.left`,
`Run.right`), so whatever holds of all runs of a part holds of it there.
-/

/-- The labels of the two machines in the labels `γ` of the whole, and when a step may be taken. -/
structure Joint (σ τ α β γ : Type) where
  left : γ → Option α
  right : γ → Option β
  guard : σ → τ → γ → Bool

namespace Machine
variable {σ τ α β γ : Type}

/-- A step that a machine may have no part in. -/
def stepIf (m : Machine σ α) (s : σ) : Option α → Option σ
  | some a => m.step s a
  | none => some s

def join (m : Machine σ α) (n : Machine τ β) (j : Joint σ τ α β γ) : Machine (σ × τ) γ where
  init := (m.init, n.init)
  step s c :=
    if j.guard s.1 s.2 c then
      (m.stepIf s.1 (j.left c)).bind fun s1 => (n.stepIf s.2 (j.right c)).map fun s2 => (s1, s2)
    else none

variable {m : Machine σ α} {n : Machine τ β} {j : Joint σ τ α β γ}
  {ok : σ × τ → γ → Prop} {h : List γ} {s s' : σ × τ} {c : γ}

theorem join_step : (m.join n j).step s c = some s' ↔ j.guard s.1 s.2 c = true ∧
    m.stepIf s.1 (j.left c) = some s'.1 ∧ n.stepIf s.2 (j.right c) = some s'.2 := by
  simp only [join]
  split
  · rename_i hg
    simp only [hg, true_and, Option.bind_eq_some_iff, Option.map_eq_some_iff]
    constructor
    · rintro ⟨s1, h1, s2, h2, rfl⟩
      exact ⟨h1, h2⟩
    · intro ⟨h1, h2⟩
      exact ⟨_, h1, _, h2, rfl⟩
  · rename_i hg
    simp [hg]

/-- A machine's part in a step is one of its steps, or nothing. -/
theorem stepIf_cases {s s' : σ} {a : Option α} (h : m.stepIf s a = some s') :
    (∃ b, a = some b ∧ m.step s b = some s') ∨ a = none ∧ s' = s := by
  cases a with
  | some b => exact .inl ⟨b, rfl, h⟩
  | none => exact .inr ⟨rfl, (Option.some.inj h).symm⟩

theorem Run.left (hr : (m.join n j).Run ok h s) : m.Run always (h.filterMap j.left) s.1 := by
  apply hr.project Prod.fst j.left rfl
  intro s c s' _ hs
  rcases stepIf_cases (join_step.1 hs).2.1 with ⟨b, hb, hs⟩ | ⟨hb, hs⟩
  · rw [hb]
    exact ⟨trivial, hs⟩
  · rw [hb]
    exact hs

theorem Run.right (hr : (m.join n j).Run ok h s) : n.Run always (h.filterMap j.right) s.2 := by
  apply hr.project Prod.snd j.right rfl
  intro s c s' _ hs
  rcases stepIf_cases (join_step.1 hs).2.2 with ⟨b, hb, hs⟩ | ⟨hb, hs⟩
  · rw [hb]
    exact ⟨trivial, hs⟩
  · rw [hb]
    exact hs

end Machine
