import JsonRpcClient.Concurrent.Drain

/-!
# What gets done in the end

Safety says nothing about a machine that stops. `Run.exists_done` is how a machine is seen to get
something done: as long as it is not, some step of a chosen kind is possible that brings it nearer.
`Drain.goes_on` has such a step for a drain.

`Placed` is what is left to be done for a caller: its sender is in the map, or in a hand, or it has
been used, and the caller is not kept waiting.
-/

namespace Machine
variable {σ α μ : Type} {m : Machine σ α} {ok : σ → α → Prop} {h : List α} {s : σ}

/-- **What can always be brought nearer gets done**, by steps of the kind `own` alone. -/
theorem Run.exists_done [LT μ] [WellFoundedLT μ] (rank : σ → μ) {own : α → Prop} {done : σ → Prop}
    (hgo : ∀ h s, Run m ok h s → done s ∨
      ∃ a s', own a ∧ ok s a ∧ m.step s a = some s' ∧ rank s' < rank s)
    (hr : Run m ok h s) :
    ∃ after s', (∀ a ∈ after, own a) ∧ Run m ok (h ++ after) s' ∧ done s' := by
  induction hrank : rank s using WellFoundedLT.induction generalizing h s with
  | ind x ih =>
    subst hrank
    rcases hgo h s hr with hdone | ⟨a, s1, ha, hok, hs, hlt⟩
    · exact ⟨[], s, by simp, by simpa using hr, hdone⟩
    · obtain ⟨after, s', hown, hr', hdone⟩ := ih (rank s1) hlt (hr.snoc hok hs) rfl
      refine ⟨a :: after, s', ?_, by simpa using hr', hdone⟩
      intro b hb
      rcases List.mem_cons.1 hb with rfl | hb
      · exact ha
      · exact hown b hb

end Machine

namespace Oneshot

variable {K C A V : Type}

/-! ## Hands -/

/-- How many senders an agent has in its hand. -/
def Table.load (t : Table K C A V) (a : A) : Nat := (t.hand a).elim 0 fun _ => 1

section
variable {t : Table K C A V} {a : A}

theorem load_le : t.load a ≤ 1 := by
  unfold Table.load
  cases t.hand a <;> simp

theorem load_none (ha : t.hand a = none) : t.load a = 0 := by simp [Table.load, ha]

theorem load_some {x : C × Option V} (ha : t.hand a = some x) : t.load a = 1 := by
  simp [Table.load, ha]

/-- An agent with an empty hand can try any key. -/
theorem take_enabled [DecidableEq K] [DecidableEq C] [DecidableEq A] (ha : t.hand a = none)
    (k : K) (v : Option V) : ∃ t', t.step (.take a k v) = some t' := by
  refine Option.isSome_iff_exists.1 ?_
  cases hk : t.pending.lookup k <;> simp [Table.step, ha, hk]

end

/-! ## Drains -/

/-- A step of a drain may put a sender into a hand. -/
def DrainAct.takes : DrainAct K → Nat
  | .remove _ => 1
  | _ => 0

namespace Drain
variable [DecidableEq K]

/-- How far a drain is from its end: a collected key costs two steps, and collecting it one. -/
def rest : Drain K C → Nat
  | .scanning start seen =>
    3 * (start.entries.filter fun e => e.1 ∉ seen).length + 2 * seen.length + 1
  | .removing todo => 2 * todo.length

theorem rest_yield {start : AList fun _ : K => C} {seen : List K} {e : Sigma fun _ : K => C}
    (he : e ∈ start.entries) (hseen : e.1 ∉ seen) :
    (scanning start (seen ++ [e.1])).rest < (scanning start seen).rest := by
  let unseen := start.entries.filter fun e' => e'.1 ∉ seen
  -- `e` is no longer among them
  have hfilter : (start.entries.filter fun e' => e'.1 ∉ seen ++ [e.1]) =
      unseen.filter fun e' => e'.1 ≠ e.1 := by
    rw [List.filter_filter]
    apply List.filter_congr
    intro e' _
    by_cases hs : e'.1 ∈ seen <;> simp [hs]
  have hmem : e ∈ unseen := List.mem_filter.2 ⟨he, by simpa using hseen⟩
  have hlt : (unseen.filter fun e' => e'.1 ≠ e.1).length < unseen.length :=
    List.length_filter_lt_length_iff_exists.2 ⟨e, hmem, by simp⟩
  simp only [rest, List.length_append, List.length_singleton, hfilter]
  change 3 * _ + 2 * _ + 1 < 3 * unseen.length + 2 * seen.length + 1
  omega

/-- **A drain that is not done can go on**, whatever has become of its map. -/
theorem goes_on [DecidableEq C] (pending : AList fun _ : K => C) {d : Drain K C} (hd : d.done = false) :
    ∃ act d', d.step pending act = some d' ∧ d'.rest + act.takes < d.rest := by
  cases d with
  | scanning start seen =>
    by_cases hall : ∀ e ∈ start.entries, pending.lookup e.1 = some e.2 → e.1 ∈ seen
    · refine ⟨.scanned, .removing seen, by simp only [Drain.step]; rw [if_pos hall], ?_⟩
      simp only [rest, DrainAct.takes]
      omega
    · -- an entry that was not yielded is still there
      push Not at hall
      obtain ⟨e, he, hk, hseen⟩ := hall
      refine ⟨.yield e.1, .scanning start (seen ++ [e.1]), ?_, rest_yield he hseen⟩
      simp only [Drain.step]
      rw [if_pos (by rw [hk]; rfl)]
  | removing todo =>
    cases todo with
    | nil => cases hd
    | cons k todo =>
      refine ⟨.remove k, .removing todo, by simp only [Drain.step, ↓reduceIte], ?_⟩
      simp only [rest, DrainAct.takes, List.length_cons]
      omega

end Drain

/-! ## Callers -/

theorem ofSent_ne_empty (v : Option V) : Chan.ofSent v ≠ .empty := by
  cases v <;> simp [Chan.ofSent]

variable {t t' : Table K C A V} {act : Act K C A V} {c : C}
variable [DecidableEq C]

/-- A step that makes a call run, or leaves it running. -/
theorem running_of_update {c' : C} {p : Phase V}
    (hp : p.running = true → (t.phase c').running = true)
    (hc : (Function.update t.phase c' p c).running = true) : (t.phase c).running = true := by
  by_cases he : c = c'
  · subst he
    rw [Function.update_self] at hc
    exact hp hc
  · rwa [Function.update_of_ne he] at hc

variable [DecidableEq K]

/-- A channel that is not empty does not become so when some sender is dropped. -/
theorem dropSender_ne_empty (hc : t.chan c ≠ .empty) (k : K) :
    (t.dropSender k).chan c ≠ .empty := by
  by_cases hk : t.pending.lookup k = some c
  · simp [dropSender_closed hk]
  · rwa [dropSender_chan t c k hk]

/-- The sender of `c` is in the map, or in a hand, or has been used or dropped. -/
def Table.Placed (t : Table K C A V) (c : C) : Prop :=
  (∃ k, t.pending.lookup k = some c) ∨ (∃ a v, t.hand a = some (c, v)) ∨ t.chan c ≠ .empty

variable [DecidableEq A]

theorem Table.Placed.step (h : (t.phase c).running = true → t.Placed c) (hs : Step t act t')
    (hc : (t'.phase c).running = true) : t'.Placed c := by
  cases hs with
  | prepare => exact h (running_of_update (by simp [Phase.running]) hc)
  | abort => exact h (running_of_update (by simp [Phase.running]) hc)
  | @register c' k hp hkey =>
    by_cases he : c = c'
    · subst he
      exact .inl ⟨k, AList.lookup_insert _⟩
    · rw [setPhase_phase, insert_phase, Function.update_of_ne he] at hc
      rcases h hc with ⟨k', hk'⟩ | ⟨a, v, ha⟩ | hchan
      · -- an entry under the same key is displaced
        by_cases hk : k' = k
        · subst hk
          exact .inr (.inr (by simp [Table.insert, dropSender_closed hk']))
        · exact .inl ⟨k', (AList.lookup_insert_ne hk).trans hk'⟩
      · exact .inr (.inl ⟨a, v, by simpa using ha⟩)
      · exact .inr (.inr (dropSender_ne_empty hchan k))
  | sendOk hp => exact h (running_of_update (by simp [hp, Phase.running]) hc)
  | sendErr hp => exact h (running_of_update (by simp [hp, Phase.running]) hc)
  | expire hp => exact h (running_of_update (by simp [hp, Phase.running]) hc)
  | @unregister c' e k hgive hkey =>
    rw [setPhase_phase, remove_phase] at hc
    rcases h (running_of_update (by simp [Phase.running]) hc) with ⟨k', hk'⟩ | ⟨a, v, ha⟩ | hchan
    · by_cases hk : k' = k
      · subst hk
        exact .inr (.inr (by simp [Table.remove, dropSender_closed hk']))
      · exact .inl ⟨k', (AList.lookup_erase_ne hk).trans hk'⟩
    · exact .inr (.inl ⟨a, v, by simpa using ha⟩)
    · exact .inr (.inr (dropSender_ne_empty hchan k))
  | receive => exact h (running_of_update (by simp [Phase.running]) hc)
  | disconnect => exact h (running_of_update (by simp [Phase.running]) hc)
  | drop => exact h (running_of_update (by simp [Phase.running]) hc)
  | @take a k v c' ha hk =>
    rcases h hc with ⟨k', hk'⟩ | ⟨b, w, hb⟩ | hchan
    · by_cases he : k' = k
      · subst he
        obtain rfl := Option.some.inj (hk.symm.trans hk')
        exact .inr (.inl ⟨a, v, Function.update_self ..⟩)
      · exact .inl ⟨k', (AList.lookup_erase_ne he).trans hk'⟩
    · have hne : b ≠ a := by
        rintro rfl
        rw [ha] at hb
        cases hb
      exact .inr (.inl ⟨b, w, (Function.update_of_ne hne ..).trans hb⟩)
    · exact .inr (.inr hchan)
  | miss => exact h hc
  | @finish a c' v ha =>
    rcases h hc with ⟨k, hk⟩ | ⟨b, w, hb⟩ | hchan
    · exact .inl ⟨k, hk⟩
    · by_cases he : b = a
      · subst he
        rw [ha] at hb
        cases hb
        exact .inr (.inr (by simp [ofSent_ne_empty]))
      · exact .inr (.inl ⟨b, w, (Function.update_of_ne he ..).trans hb⟩)
    · by_cases he : c = c'
      · subst he
        exact .inr (.inr (by simp [ofSent_ne_empty]))
      · exact .inr (.inr (by simpa [Function.update_of_ne he] using hchan))

/-- **The sender of a call that runs is somewhere**, or it has been used. -/
theorem Run.placed {ok : Table K C A V → Act K C A V → Prop} {hist : List (Act K C A V)}
    (hr : machine.Run ok hist t) (hc : (t.phase c).running = true) : t.Placed c :=
  Machine.Run.invariant (P := fun _ t => (t.phase c).running = true → t.Placed c)
    (by simp [machine, Table.init, Phase.running])
    (fun _ _ _ _ _ h _ hs => Table.Placed.step h (step_cases hs)) hr hc

/-- **A call that waits while nobody has its sender need not wait.** -/
theorem receive_enabled (h : t.Placed c) (hc : t.phase c = .waiting)
    (hmap : ∀ k, t.pending.lookup k ≠ some c) (hhand : ∀ a v, t.hand a ≠ some (c, v)) :
    ∃ t', t.step (.receive c) = some t' := by
  have hchan : t.chan c ≠ .empty := by
    rcases h with ⟨k, hk⟩ | ⟨a, v, ha⟩ | hchan
    · exact absurd hk (hmap k)
    · exact absurd ha (hhand a v)
    · exact hchan
  cases hv : t.chan c with
  | empty => exact absurd hv hchan
  | value v => simp [Table.step, hc, hv]
  | closed => simp [Table.step, hc, hv]

end Oneshot
