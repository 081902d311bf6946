import JsonRpcClient.Concurrent.Oneshot

/-!
# Emptying a shared map

A drain first iterates over the map and collects keys, then removes the collected keys one by one,
while everyone else goes on using the map. The iteration is not a snapshot: it yields keys that are
there at the time, and all it promises is that a key which was there throughout has been yielded
when it ends.

`Covers P` is the invariant: every sender in the map whose caller satisfies `P` is still going to be
found. It needs only that no such caller registers while the drain runs, and at the end none of them
is left (`Covers.done`). In the other direction, a caller that registers after the keys were
collected, under a key of its own, is passed (`Known.passes`).
-/

namespace Oneshot

inductive Drain (K C : Type) where
  /-- iterating: the map at the start, and the keys yielded so far -/
  | scanning (start : AList fun _ : K => C) (seen : List K)
  /-- removing the collected keys -/
  | removing (todo : List K)

inductive DrainAct (K : Type) where
  | yield (k : K)
  | scanned
  | remove (k : K)

variable {K C : Type}

namespace Drain

def start (pending : AList fun _ : K => C) : Drain K C := .scanning pending []

def done : Drain K C → Bool
  | .removing [] => true
  | _ => false

variable [DecidableEq K]

/-- One step, on the map as it is. A caller registers at most once, so an entry of the start that is
still in the map has been there throughout. -/
def step [DecidableEq C] (pending : AList fun _ : K => C) : Drain K C → DrainAct K → Option (Drain K C)
  | .scanning start seen, .yield k =>
    if (pending.lookup k).isSome then some (.scanning start (seen ++ [k])) else none
  | .scanning start seen, .scanned =>
    if ∀ e ∈ start.entries, pending.lookup e.1 = some e.2 → e.1 ∈ seen then some (.removing seen)
    else none
  | .removing (k :: todo), .remove k' => if k' = k then some (.removing todo) else none
  | _, _ => none

/-- Every sender in the map whose caller satisfies `P` is still going to be found. -/
def Covers (P : C → Prop) (pending : AList fun _ : K => C) : Drain K C → Prop
  | .scanning start _ => ∀ k c, P c → pending.lookup k = some c → start.lookup k = some c
  | .removing todo => ∀ k c, P c → pending.lookup k = some c → k ∈ todo

variable {P P' : C → Prop} {pending pending' : AList fun _ : K => C} {d d' : Drain K C}

theorem covers_start : Covers P pending (start pending) := fun _ _ _ h => h

/-- Only a registration of such a caller could spoil it. -/
theorem Covers.shrink (h : Covers P pending d) (hP : ∀ c, P' c → P c)
    (hsub : ∀ k c, P' c → pending'.lookup k = some c → pending.lookup k = some c) :
    Covers P' pending' d := by
  cases d with
  | scanning => exact fun k c hc hk => h k c (hP c hc) (hsub k c hc hk)
  | removing => exact fun k c hc hk => h k c (hP c hc) (hsub k c hc hk)

/-- **A finished drain has left none of the callers it covers in the map.** -/
theorem Covers.done (h : Covers P pending d) (hd : d.done = true) {k : K} {c : C} (hc : P c) :
    pending.lookup k ≠ some c := by
  match d, hd with
  | .removing [], _ => exact fun hk => by simpa using h k c hc hk

variable [DecidableEq C]

theorem Covers.step {act : DrainAct K} (h : Covers P pending d) (hs : d.step pending act = some d')
    (hact : ∀ k, act ≠ .remove k) : Covers P pending d' := by
  cases d with
  | scanning start seen =>
    cases act with
    | yield k =>
      simp only [Drain.step] at hs
      split at hs <;> cases hs
      exact h
    | scanned =>
      simp only [Drain.step] at hs
      split at hs <;> cases hs
      rename_i hall
      exact fun k c hc hk => hall ⟨k, c⟩ (AList.mem_lookup_iff.1 (h k c hc hk)) hk
    | remove k => exact absurd rfl (hact k)
  | removing todo =>
    cases todo with
    | nil => cases hs
    | cons k todo => cases act with
      | remove k' => exact absurd rfl (hact k')
      | yield => cases hs
      | scanned => cases hs

theorem Covers.remove {k : K} (h : Covers P pending d) (hs : d.step pending (.remove k) = some d') :
    Covers P (pending.erase k) d' := by
  cases d with
  | scanning => cases hs
  | removing todo =>
    cases todo with
    | nil => cases hs
    | cons k' todo =>
      simp only [Drain.step] at hs
      split at hs <;> cases hs
      rename_i he
      subst he
      intro k' c hc hk
      obtain ⟨hne, hk⟩ := lookup_erase_cases hk
      exact (List.mem_cons.1 (h k' c hc hk)).resolve_left hne

/-! ## Keys that were not collected -/

/-- The keys collected so far, or those still to be removed. -/
def collected : Drain K C → List K
  | .scanning _ seen => seen
  | .removing todo => todo

/-- Only `yield` collects a key. -/
theorem collected_step {act : DrainAct K} (hs : d.step pending act = some d') {k : K}
    (hk : k ∈ d'.collected) : k ∈ d.collected ∨ act = .yield k ∧ (pending.lookup k).isSome := by
  cases d with
  | scanning start seen =>
    cases act with
    | yield k' =>
      simp only [Drain.step] at hs
      split at hs <;> cases hs
      rename_i hsome
      rcases List.mem_append.1 hk with hk | hk
      · exact .inl hk
      · obtain rfl := List.mem_singleton.1 hk
        exact .inr ⟨rfl, hsome⟩
    | scanned =>
      simp only [Drain.step] at hs
      split at hs <;> cases hs
      exact .inl hk
    | remove k' => cases hs
  | removing todo =>
    cases todo with
    | nil => cases hs
    | cons k' todo => cases act with
      | remove k'' =>
        simp only [Drain.step] at hs
        split at hs <;> cases hs
        exact .inl (List.mem_cons_of_mem k' hk)
      | yield => cases hs
      | scanned => cases hs

/-- The drain has collected its keys, and is not going to remove `k`. -/
def Passes (k : K) : Drain K C → Prop
  | .scanning .. => False
  | .removing todo => k ∉ todo

instance (k : K) : (d : Drain K C) → Decidable (d.Passes k)
  | .scanning .. => inferInstanceAs (Decidable False)
  | .removing todo => inferInstanceAs (Decidable (k ∉ todo))

theorem passes_scanned (hs : d.step pending .scanned = some d') {k : K} (hk : k ∉ d.collected) :
    d'.Passes k := by
  cases d with
  | scanning start seen =>
    simp only [Drain.step] at hs
    split at hs <;> cases hs
    exact hk
  | removing todo => cases todo <;> cases hs

theorem Passes.step {act : DrainAct K} {k : K} (h : d.Passes k)
    (hs : d.step pending act = some d') : d'.Passes k ∧ act ≠ .remove k := by
  cases d with
  | scanning => cases h
  | removing todo =>
    cases todo with
    | nil => cases hs
    | cons k' todo => cases act with
      | remove k'' =>
        simp only [Drain.step] at hs
        split at hs <;> cases hs
        rename_i he
        subst he
        obtain ⟨hne, hk⟩ := not_or.1 (mt List.mem_cons.2 h)
        refine ⟨hk, fun heq => hne ?_⟩
        cases heq
        rfl
      | yield => cases hs
      | scanned => cases hs

variable {A V : Type} {t t' : Table K C A V}

/-- Every key in the drain's list is that of a registered call. -/
def Known (t : Table K C A V) (d : Drain K C) : Prop :=
  ∀ k ∈ d.collected, ∃ c, Registered t c ∧ t.key c = some k

omit [DecidableEq K] [DecidableEq C] in
theorem known_start : Known t (start t.pending) := fun _ hk => by cases hk

theorem Known.drain {act : DrainAct K} (hd : Known t d) (h : Safe t)
    (hs : d.step t.pending act = some d') : Known t d' := by
  intro k hk
  rcases collected_step hs hk with hk | ⟨-, hsome⟩
  · exact hd k hk
  · obtain ⟨c, hc⟩ := Option.isSome_iff_exists.1 hsome
    exact ⟨c, h.registered hc, h.keyed k c hc⟩

variable [DecidableEq A]

theorem Known.table {act : Act K C A V} (hd : Known t d) (h : Safe t) (hs : Step t act t') :
    Known t' d := by
  intro k hk
  obtain ⟨c, hc, hkey⟩ := hd k hk
  exact ⟨c, hc.step hs, step_key h hs hkey⟩

/-- A call that registers after the keys were collected is not concerned, if its key is its own. -/
theorem Known.passes {ok : Table K C A V → Act K C A V → Prop} {h1 h2 : List (Act K C A V)} {c : C}
    {k : K} (hd : Known t d) (hs : d.step t.pending .scanned = some d') (hc : ¬ Registered t c)
    (hr : machine.Run ok (h1 ++ h2) t') (hr1 : machine.Run ok h1 t) (hfresh : t'.FreshKeys)
    (hkey : t'.key c = some k) : d'.Passes k := by
  apply passes_scanned hs
  intro hk
  obtain ⟨c', hc', hkey'⟩ := hd k hk
  obtain rfl := hfresh c c' k hkey (Run.key hr hr1 hkey')
  exact hc hc'

end Drain

end Oneshot
