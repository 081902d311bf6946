import JsonRpcClient.Concurrent.Oneshot

/-!
# How often a caller is answered

`sentTo c` lists the values that a run sends to `c`. The channel shows the whole list
(`Run.sentTo_eq`), so it has one element at most. `Run.used_once` says which: what the agent has to
send that took the sender, or nothing, if the caller's own removal came first.
-/

namespace Oneshot

variable {K C A V : Type}

/-- What the receiver finds in its channel. -/
def Chan.values : Chan V → List V
  | .value v => [v]
  | _ => []

theorem Chan.mem_values {ch : Chan V} {v : V} : v ∈ ch.values ↔ ch = .value v := by
  cases ch <;> simp [Chan.values, eq_comm]

/-- The agent is going to use the sender of `c`, or it has. -/
def Delivering (t : Table K C A V) (a : A) (c : C) (v : Option V) : Prop :=
  t.hand a = some (c, v) ∨ t.chan c = .ofSent v

/-- An agent with nothing in its hand has sent what it was to send. -/
theorem Delivering.sent {t : Table K C A V} {a : A} {c : C} {v : Option V}
    (hd : Delivering t a c v) (ha : t.hand a = none) : (t.chan c).values = v.toList ∧ t.chan c ≠ .empty := by
  have hchan : t.chan c = .ofSent v := hd.resolve_left (by simp [ha])
  rw [hchan]
  cases v <;> simp [Chan.ofSent, Chan.values]

variable [DecidableEq K] [DecidableEq C]

theorem values_dropSender {t : Table K C A V} (h : Safe t) (k : K) (c : C) :
    ((t.dropSender k).chan c).values = (t.chan c).values := by
  by_cases hk : t.pending.lookup k = some c
  · rw [dropSender_closed hk, h.unused k c hk]
    rfl
  · rw [dropSender_chan t c k hk]

variable [DecidableEq A]

/-- What a step sends to `c`. -/
def Table.sends (t : Table K C A V) (c : C) : Act K C A V → List V
  | .finish a =>
    match t.hand a with
    | some (c', some v) => if c' = c then [v] else []
    | _ => []
  | _ => []

/-- What the steps `acts` send to `c`, from the table `t`. -/
def sentTo (c : C) : Table K C A V → List (Act K C A V) → List V
  | _, [] => []
  | t, act :: acts => t.sends c act ++ (t.step act).elim [] fun t' => sentTo c t' acts

theorem sentTo_append {c : C} {bs : List (Act K C A V)} : ∀ {as : List (Act K C A V)}
    {t t' : Table K C A V}, machine.exec t as = some t' →
    sentTo c t (as ++ bs) = sentTo c t as ++ sentTo c t' bs
  | [], _, _, he => by cases he; rfl
  | act :: as, t, t', he => by
    obtain ⟨t1, hs, he⟩ := Option.bind_eq_some_iff.1 he
    have hs : t.step act = some t1 := hs
    simp only [List.cons_append, sentTo, hs, Option.elim_some, sentTo_append he, List.append_assoc]

theorem values_step {t t' : Table K C A V} {act : Act K C A V} (h : Safe t) (hs : Step t act t')
    (c : C) : (t'.chan c).values = (t.chan c).values ++ t.sends c act := by
  cases hs with
  | register =>
    simp only [Table.sends, List.append_nil]
    exact values_dropSender h _ c
  | unregister =>
    simp only [Table.sends, List.append_nil]
    exact values_dropSender h _ c
  | finish ha =>
    rename_i a c' v
    simp only [Table.sends, ha]
    by_cases he : c = c'
    · subst he
      rw [Function.update_self, h.held a c v ha]
      cases v with
      | none => rfl
      | some v => simp [Chan.ofSent, Chan.values]
    · rw [Function.update_of_ne he]
      cases v with
      | none => simp
      | some v => simp [Ne.symm he]
  | _ => simp [Table.sends]

variable {ok : Table K C A V → Act K C A V → Prop} {hist : List (Act K C A V)} {t : Table K C A V}

/-- **All that was ever sent to a caller is in its channel.** -/
theorem Run.sentTo_eq (hr : machine.Run ok hist t) (c : C) :
    sentTo c .init hist = (t.chan c).values := by
  induction hr with
  | nil => rfl
  | snoc hr hok hs ih =>
    rename_i h t act t'
    have hs : t.step act = some t' := hs
    have hexec : machine.exec Table.init h = some t := hr.exec_init
    rw [sentTo_append hexec, ih, values_step (Run.safe hr) (step_cases hs) c]
    simp only [sentTo, hs, Option.elim_some, List.append_nil]

theorem Delivering.step {t t' : Table K C A V} {act : Act K C A V} {a : A} {c : C} {v : Option V}
    (h : Safe t) (hd : Delivering t a c v) (hs : Step t act t') : Delivering t' a c v := by
  rcases hd with hd | hd
  · cases hs with
    | take hb hk =>
      rename_i b k w c'
      have hne : a ≠ b := by
        rintro rfl
        rw [hd] at hb; cases hb
      exact .inl ((Function.update_of_ne hne ..).trans hd)
    | finish hb =>
      rename_i b c' w
      by_cases he : a = b
      · subst he
        rw [hd] at hb
        cases hb
        exact .inr (Function.update_self ..)
      · exact .inl ((Function.update_of_ne he ..).trans hd)
    | _ => exact .inl (by simpa using hd)
  · have hne : t.chan c ≠ .empty := by
      rw [hd]
      cases v <;> simp [Chan.ofSent]
    exact .inr ((chan_settled h hs hne).trans hd)

theorem Run.delivering {h1 h2 : List (Act K C A V)} {t1 : Table K C A V} {a : A} {c : C}
    {v : Option V} (hr : machine.Run ok (h1 ++ h2) t) (hr1 : machine.Run ok h1 t1)
    (ha : t1.hand a = some (c, v)) : Delivering t a c v :=
  hr.segment (P := fun t => Delivering t a c v) hr1 (.inl ha) fun _ _ _ _ _ hr2 hd hs =>
    hd.step (Run.safe hr2) (step_cases hs)

/-- **A sender that leaves the map while its key is its own is used once or never**: if an agent
took it, then for what that agent had to send, as soon as its hand is empty, and if its own call
removed it, not at all. -/
theorem Run.used_once {h0 h1 h2 : List (Act K C A V)} {t1 t2 : Table K C A V} {k : K} {c : C}
    (hr2 : machine.Run ok (h0 ++ h1 ++ h2) t2) (hr1 : machine.Run ok (h0 ++ h1) t1)
    (hst : Stored ok h0 k c) (hn : t1.pending.lookup k ≠ some c) (hfresh : t2.FreshKeys) :
    k ∉ t1.pending ∧ ∃ p act q, h1 = p ++ act :: q ∧ Stored ok (h0 ++ p) k c ∧
      ((∃ a v, act = .take a k v ∧ (t1.hand a = none ∨ t2.hand a = none →
          sentTo c .init (h0 ++ h1 ++ h2) = v.toList)) ∨
        act = .unregister c ∧ sentTo c .init (h0 ++ h1 ++ h2) = []) := by
  have hkey : t2.key c = some k := by
    rw [List.append_assoc] at hr2
    exact hst.key_eq hr2
  constructor
  · intro hk
    obtain ⟨c', hc'⟩ := Option.isSome_iff_exists.1 (AList.lookup_isSome.2 hk)
    have hkey' := Run.key hr2 hr1 ((Run.safe hr1).keyed k c' hc')
    exact hn (hfresh c' c k hkey' hkey ▸ hc')
  obtain ⟨p, act, q, t3, t4, rfl, hr3, hk3, hr4, hleaves⟩ := Run.leaves hr1 hst hn
  refine ⟨p, act, q, rfl, ⟨t3, hr3, hk3⟩, ?_⟩
  -- the step after which the sender is out of the map, and what follows it
  have hr1' : machine.Run ok (h0 ++ p ++ [act] ++ q) t1 := by simpa using hr1
  have hr2' : machine.Run ok (h0 ++ p ++ [act] ++ (q ++ h2)) t2 := by simpa using hr2
  rw [Run.sentTo_eq hr2 c]
  cases hleaves with
  | @taken a v ha =>
    refine .inl ⟨a, v, rfl, fun hidle => ?_⟩
    rcases hidle with hidle | hidle
    · obtain ⟨hvalues, hne⟩ := (Run.delivering hr1' hr4 ha).sent hidle
      rw [Run.settled hr2 hr1 hne, hvalues]
    · exact ((Run.delivering hr2' hr4 ha).sent hidle).1
  | removed hclosed =>
    refine .inr ⟨rfl, ?_⟩
    rw [Run.settled hr2' hr4 (by simp [hclosed]), hclosed]
    rfl
  | displaced hne hkey' =>
    have hr2'' : machine.Run ok (h0 ++ p ++ (act :: q ++ h2)) t2 := by simpa using hr2
    exact absurd (hfresh _ _ k (Run.key hr2'' hr3 hkey') hkey) hne

end Oneshot
