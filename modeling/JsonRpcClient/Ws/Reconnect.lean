import JsonRpcClient.Ws.Disconnect

/-!
# Whom a disconnect fails

`fail_pending_requests` drains whatever is pending when `disconnect_task` gets to it, and the
transport does not wait for that: a call of the next connection may be pending by then.
`fails_rightly` is when this does no harm, and `live_call_fails` is a run in which it does. A call
that registers while the drain is at work is safe once the keys of its map have been copied
(`State.Spares`).
-/

namespace JsonRpc.Ws
open Json Arrange Oneshot Broadcast
open scoped List

variable {R : ResponseTypes} {cfg : Config R} {capacity : Nat}

/-- `c` registered before the end of a connection that has since been lost. -/
def Link.Concerned (l : Link) (c : Nat) : Prop := ∃ m ∈ l.registered c, m.losses < l.losses

/-- The message of `c` was sent on the connection that is up now. -/
def Link.SentOnLive (l : Link) (c : Nat) : Prop :=
  l.transport = .live ∧ ∃ m ∈ l.sent c, m.live = true ∧ m.losses = l.losses

instance (l : Link) (c : Nat) : Decidable (l.Concerned c) :=
  inferInstanceAs (Decidable (∃ m ∈ l.registered c, m.losses < l.losses))

instance (l : Link) (c : Nat) : Decidable (l.SentOnLive c) :=
  inferInstanceAs (Decidable (l.transport = .live ∧ ∃ m ∈ l.sent c, m.live = true ∧
    m.losses = l.losses))

/-- `fail_pending_requests` has removed the sender of `c`, and answers it next. -/
def State.Failing (s : State) (c : Nat) : Prop :=
  (∃ v, s.unary.hand .disconnect = some (c, v)) ∨ ∃ v, s.batch.hand .disconnect = some (c, v)

/-- Only calls of lost connections are failed. -/
def FailsRightly (l : Link) : Prop := ∀ c, l.core.Failing c → l.Concerned c ∧ ¬ l.SentOnLive c

/-- The calls whose senders are in the maps. -/
def State.pendingCalls (s : State) : List Nat :=
  s.unary.pending.entries.map Sigma.snd ++ s.batch.pending.entries.map Sigma.snd

def DisconnectTask.isDraining : DisconnectTask → Bool
  | draining .. => true
  | _ => false

/-- Until the next drain starts, `id` is not removed. -/
def DrainStage.PassesUnary (id : RequestId) : DrainStage → Prop
  | .unary d => d.Passes id
  | _ => True

/-- A drain that is still at the requests has not copied the keys of batches. -/
def DrainStage.PassesBatch (key : RangeInclusive) : DrainStage → Prop
  | .idle => True
  | .unary _ => False
  | .batch d => d.Passes key

instance (id : RequestId) : (d : DrainStage) → Decidable (d.PassesUnary id)
  | .unary d => inferInstanceAs (Decidable (d.Passes id))
  | .idle | .batch _ => inferInstanceAs (Decidable True)

instance (key : RangeInclusive) : (d : DrainStage) → Decidable (d.PassesBatch key)
  | .idle => inferInstanceAs (Decidable True)
  | .unary _ => inferInstanceAs (Decidable False)
  | .batch d => inferInstanceAs (Decidable (d.Passes key))

/-- The drain is past the key of `c`: it is not going to remove it, and it has not. -/
def State.Spares (cfg : Config R) (s : State) (c : Nat) : Prop :=
  (if (cfg.calls c).isRequest then ∃ id ∈ s.unary.key c, s.drain.PassesUnary id
    else ∃ key ∈ s.batch.key c, s.drain.PassesBatch key) ∧ ¬ s.Failing c

instance (s : State) (c : Nat) : Decidable (s.Failing c) :=
  decidable_of_iff ((∃ x ∈ s.unary.hand .disconnect, x.1 = c) ∨
    ∃ x ∈ s.batch.hand .disconnect, x.1 = c) (by simp [State.Failing])

instance (cfg : Config R) (s : State) (c : Nat) : Decidable (s.Spares cfg c) := by
  unfold State.Spares
  infer_instance

/-- The task reads `Disconnected` while no call of a later connection is pending, and until it has
drained the maps, a call registers, or is sent on a live connection, only when the drain is past its
key. -/
def HandledInTime (cfg : Config R) (l : Link) : LinkAction → Prop
  | .recv (.item .Disconnected) => ∀ c ∈ l.core.pendingCalls, l.Concerned c ∧ ¬ l.SentOnLive c
  | .client (.call c .insert) => l.task.isDraining = true → l.core.Spares cfg c
  | .client (.call c .sendOk) =>
    l.transport = .live → l.task.isDraining = true → l.core.Spares cfg c
  | _ => True

instance (l : Link) (a : LinkAction) : Decidable (HandledInTime cfg l a) := by
  unfold HandledInTime
  split <;> infer_instance

theorem mem_pendingCalls {s : State} {c : Nat} : c ∈ s.pendingCalls ↔ s.Pending c := by
  have hmap : ∀ {K : Type} [DecidableEq K] (m : AList fun _ : K => Nat),
      c ∈ m.entries.map Sigma.snd ↔ ∃ k, m.lookup k = some c := by
    intro K _ m
    rw [List.mem_map]
    constructor
    · rintro ⟨⟨k, c'⟩, hmem, rfl⟩
      exact ⟨k, AList.mem_lookup_iff.2 hmem⟩
    · rintro ⟨k, hk⟩
      exact ⟨⟨k, c⟩, AList.mem_lookup_iff.1 hk, rfl⟩
  rw [State.pendingCalls, List.mem_append, hmap, hmap, State.Pending]

/-! ## The hands of `disconnect_task` -/

theorem hand_unary_step {s s' : State} {a : Action} (hs : s.step cfg a = some s')
    {x : Nat × Option Reply}
    (hx : s'.unary.hand .disconnect = some x) : s.unary.hand .disconnect = some x ∨
      ∃ id, a = .drainUnary (.remove id) ∧ s.unary.pending.lookup id = some x.1 := by
  rcases unary_step hs with he | ⟨act, hact, hstep⟩
  · exact .inl (he ▸ hx)
  · apply (step_hand hstep hx).imp_right
    rintro ⟨id, rfl, hk⟩
    rcases onUnary_take hact with ⟨_, _, -, -, hag, -⟩ | ⟨rfl, -, -⟩
    · cases hag
    · exact ⟨id, rfl, hk⟩

theorem hand_batch_step {s s' : State} {a : Action} (hs : s.step cfg a = some s')
    {x : Nat × Option (Result BatchResult)} (hx : s'.batch.hand .disconnect = some x) :
    s.batch.hand .disconnect = some x ∨
      ∃ key, a = .drainBatch (.remove key) ∧ s.batch.pending.lookup key = some x.1 := by
  rcases batch_step hs with he | ⟨act, hact, hstep⟩
  · exact .inl (he ▸ hx)
  · apply (step_hand hstep hx).imp_right
    rintro ⟨key, rfl, hk⟩
    rcases onBatch_take hact with ⟨_, -, -, hag⟩ | ⟨rfl, -, -⟩
    · cases hag
    · exact ⟨key, rfl, hk⟩

/-- A call begins to be failed out of the maps. -/
theorem failing_step {s s' : State} {a : Action} (hs : s.step cfg a = some s') {c : Nat}
    (hc : s'.Failing c) :
    s.Failing c ∨ s.Pending c := by
  rcases hc with ⟨v, hv⟩ | ⟨v, hv⟩
  · rcases hand_unary_step hs hv with hv | ⟨id, -, hk⟩
    · exact .inl (.inl ⟨v, hv⟩)
    · exact .inr (.inl ⟨id, hk⟩)
  · rcases hand_batch_step hs hv with hv | ⟨key, -, hk⟩
    · exact .inl (.inr ⟨v, hv⟩)
    · exact .inr (.inr ⟨key, hk⟩)

/-- The task holds a sender only while it drains the map that the sender is from. -/
structure Hands (s : State) : Prop where
  unary : (∀ d, s.drain ≠ .unary d) → s.unary.hand .disconnect = none
  batch : (∀ d, s.drain ≠ .batch d) → s.batch.hand .disconnect = none

theorem Hands.step {s s' : State} {a : Action} (h : Hands s)
    (hs : s.step cfg a = some s') : Hands s' := by
  have hd := drain_step hs
  generalize hdrain' : s'.drain = d' at hd
  constructor
  · -- the hand was empty before, and the step does not fill it
    intro hno
    rw [hdrain'] at hno
    have hbefore : s.unary.hand .disconnect = none ∧ ∀ act, a ≠ .drainUnary act := by
      cases hd with
      | start => exact absurd rfl (hno _)
      | unary => exact absurd rfl (hno _)
      | next _ hhand => exact ⟨hhand, by simp⟩
      | batch hdrain => exact ⟨h.unary (by simp [hdrain]), by simp⟩
      | done hdrain => exact ⟨h.unary (by simp [hdrain]), by simp⟩
      | other ha => exact ⟨h.unary hno, by rintro act rfl; cases ha⟩
    cases hx : s'.unary.hand .disconnect with
    | none => rfl
    | some x =>
      rcases hand_unary_step hs hx with hx | ⟨id, ha, -⟩
      · rw [hbefore.1] at hx; cases hx
      · exact absurd ha (hbefore.2 _)
  · intro hno
    rw [hdrain'] at hno
    have hbefore : s.batch.hand .disconnect = none ∧ ∀ act, a ≠ .drainBatch act := by
      cases hd with
      | start hdrain => exact ⟨h.batch (by simp [hdrain]), by simp⟩
      | unary hdrain => exact ⟨h.batch (by simp [hdrain]), by simp⟩
      | next hdrain => exact ⟨h.batch (by simp [hdrain]), by simp⟩
      | batch => exact absurd rfl (hno _)
      | done _ hhand => exact ⟨hhand, by simp⟩
      | other ha => exact ⟨h.batch hno, by rintro act rfl; cases ha⟩
    cases hx : s'.batch.hand .disconnect with
    | none => rfl
    | some x =>
      rcases hand_batch_step hs hx with hx | ⟨key, ha, -⟩
      · rw [hbefore.1] at hx; cases hx
      · exact absurd ha (hbefore.2 _)

theorem Run.hands {ok : State → Action → Prop} {h : List Action} {s : State}
    (hr : (client cfg).Run ok h s) :
    Hands s :=
  Machine.Run.invariant (P := fun _ s => Hands s) ⟨fun _ => rfl, fun _ => rfl⟩
    (fun _ _ _ _ _ h _ hs => h.step hs) hr

theorem Hands.idle {s : State} (h : Hands s) (hidle : s.drain = .idle)
    (c : Nat) : ¬ s.Failing c := by
  rintro (⟨v, hv⟩ | ⟨v, hv⟩)
  · rw [h.unary (by simp [hidle])] at hv; cases hv
  · rw [h.batch (by simp [hidle])] at hv; cases hv

/-! ## Calls that the drain is past -/

theorem passesUnary_step {s s' : State} {a : Action} {id : RequestId}
    (h : s.drain.PassesUnary id) (hs : s.step cfg a = some s') (ha : a ≠ .drainStart) :
    s'.drain.PassesUnary id ∧ a ≠ .drainUnary (.remove id) := by
  have hd := drain_step hs
  generalize s'.drain = d' at hd ⊢
  cases hd with
  | start => exact absurd rfl ha
  | unary hdrain _ hstep =>
    rw [hdrain] at h
    obtain ⟨hpass, hne⟩ := Drain.Passes.step h hstep
    exact ⟨hpass, by simpa using hne⟩
  | next => exact ⟨trivial, by simp⟩
  | batch => exact ⟨trivial, by simp⟩
  | done => exact ⟨trivial, by simp⟩
  | other hno => exact ⟨h, by rintro rfl; cases hno⟩

theorem passesBatch_step {s s' : State} {a : Action} {key : RangeInclusive}
    (h : s.drain.PassesBatch key) (hs : s.step cfg a = some s') (ha : a ≠ .drainStart) :
    s'.drain.PassesBatch key ∧ a ≠ .drainBatch (.remove key) := by
  have hd := drain_step hs
  generalize s'.drain = d' at hd ⊢
  cases hd with
  | start => exact absurd rfl ha
  | unary hdrain => rw [hdrain] at h; cases h
  | next hdrain => rw [hdrain] at h; cases h
  | batch hdrain _ hstep =>
    rw [hdrain] at h
    obtain ⟨hpass, hne⟩ := Drain.Passes.step h hstep
    exact ⟨hpass, by simpa using hne⟩
  | done => exact ⟨trivial, by simp⟩
  | other hno => exact ⟨h, by rintro rfl; cases hno⟩

/-- **The drain does not come back to a call it is past.** -/
theorem Spares.step {h : List Action} {s s' : State} {a : Action} {c : Nat}
    (hr : (client cfg).Run Machine.always h s) (hs : s.step cfg a = some s') (ha : a ≠ .drainStart)
    (hc : s.Spares cfg c) : s'.Spares cfg c := by
  obtain ⟨hpass, hno⟩ := hc
  by_cases hreq : (cfg.calls c).isRequest = true
  · rw [if_pos hreq] at hpass
    obtain ⟨id, hid, hpass⟩ := hpass
    obtain ⟨hpass', hne⟩ := passesUnary_step hpass hs ha
    refine ⟨?_, ?_⟩
    · rw [if_pos hreq]
      exact ⟨id, Run.unary_key hr hs hid, hpass'⟩
    · rintro (⟨v, hv⟩ | ⟨v, hv⟩)
      · rcases hand_unary_step hs hv with hv | ⟨id', rfl, hk⟩
        · exact hno (.inl ⟨v, hv⟩)
        · obtain rfl := Option.some.inj (hid.symm.trans ((Run.safe_unary hr).keyed id' c hk))
          exact hne rfl
      · rcases hand_batch_step hs hv with hv | ⟨key, -, hk⟩
        · exact hno (.inr ⟨v, hv⟩)
        · rw [isBatch_of_pending hr hk] at hreq
          cases hreq
  · rw [if_neg hreq] at hpass
    obtain ⟨key, hkey, hpass⟩ := hpass
    obtain ⟨hpass', hne⟩ := passesBatch_step hpass hs ha
    refine ⟨?_, ?_⟩
    · rw [if_neg hreq]
      exact ⟨key, Run.batch_key hr hs hkey, hpass'⟩
    · rintro (⟨v, hv⟩ | ⟨v, hv⟩)
      · rcases hand_unary_step hs hv with hv | ⟨id, -, hk⟩
        · exact hno (.inl ⟨v, hv⟩)
        · exact hreq (isRequest_of_pending hr hk)
      · rcases hand_batch_step hs hv with hv | ⟨key', rfl, hk⟩
        · exact hno (.inr ⟨v, hv⟩)
        · obtain rfl := Option.some.inj (hkey.symm.trans ((Run.safe_batch hr).keyed key' c hk))
          exact hne rfl

/-! ## The invariant -/

/-- While the task drains, whatever is pending or in its hands is rightly so, or it is past it. -/
structure Scoped (cfg : Config R) (l : Link) : Prop where
  /-- a message that was sent on a live connection was sent on one that is lost, or on the present
  one -/
  sent : ∀ c m, l.sent c = some m → m.live = true → m.losses < l.losses ∨ m.losses = l.losses ∧
    l.transport = .live
  idle : (∀ since pos, l.task ≠ .draining since pos) → l.core.drain = .idle
  rightly : ∀ since pos, l.task = .draining since pos → ∀ c, l.core.Failing c ∨ l.core.Pending c →
    l.Concerned c ∧ ¬ l.SentOnLive c ∨ l.core.Spares cfg c

theorem onDrain_idle {s s' : State} {a : Action} (hs : s.step cfg a = some s')
    (ha : a.ofTask = false) (hidle : s.drain = .idle) : s'.drain = .idle := by
  have hd := drain_step hs
  generalize s'.drain = d' at hd ⊢
  cases hd with
  | start => cases ha
  | done => cases ha
  | unary hdrain => rw [hidle] at hdrain; cases hdrain
  | next hdrain => rw [hidle] at hdrain; cases hdrain
  | batch hdrain => rw [hidle] at hdrain; cases hdrain
  | other => exact hidle

theorem drainEnd_idle {s s' : State} (hs : s.step cfg .drainEnd = some s') : s'.drain = .idle := by
  have hd := drain_step hs
  generalize s'.drain = d' at hd ⊢
  cases hd with
  | done => rfl
  | other ha => cases ha

theorem Scoped.step {g : List Action} {l l' : Link} {a : LinkAction} (h : Scoped cfg l)
    (hclient : (client cfg).Run Machine.always g l.core) (hok : HandledInTime cfg l a)
    (hs : LinkStep cfg l a l') : Scoped cfg l' := by
  have hhands := Run.hands hclient
  cases hs with
  | @client a core ha hcore =>
    refine ⟨fun c m hm hlive => ?_, fun htask => onDrain_idle hcore ha (h.idle htask),
      fun since pos htask c hc => ?_⟩
    · rcases sentAfter_cases hm with ⟨rfl, rfl⟩ | hm
      · exact .inr ⟨rfl, of_decide_eq_true hlive⟩
      · exact h.sent c m hm hlive
    · have htrue : l.task.isDraining = true := by
        have htask : l.task = .draining since pos := htask
        rw [htask]; rfl
      have hspares : l.core.Spares cfg c → core.Spares cfg c :=
        Spares.step hclient hcore (by rintro rfl; cases ha)
      by_cases hinsert : a = .call c .insert
      · subst hinsert
        exact .inr (hspares (hok htrue))
      have hbefore : l.core.Failing c ∨ l.core.Pending c := by
        rcases hc with hc | hc
        · exact failing_step hcore hc
        · exact .inr ((pending_step hcore hc).resolve_right hinsert)
      rcases h.rightly since pos htask c hbefore with ⟨⟨m, hm, hlt⟩, hlive⟩ | hspared
      · by_cases hsent : a = .call c .sendOk ∧ l.transport = .live
        · obtain ⟨rfl, hup⟩ := hsent
          exact .inr (hspares (hok hup htrue))
        refine .inl ⟨⟨m, (registeredAfter_of_ne hinsert).trans hm, hlt⟩, ?_⟩
        rintro ⟨hup, m', hm', hlive', hlosses⟩
        rcases sentAfter_cases hm' with ⟨rfl, -⟩ | hm'
        · exact hsent ⟨rfl, hup⟩
        · exact hlive ⟨hup, m', hm', hlive', hlosses⟩
      · exact .inr (hspares hspared)
  | lose hup =>
    refine ⟨fun c m hm hlive => ?_, h.idle, fun since pos htask c hc => ?_⟩
    · have := h.sent c m hm hlive; simp only; omega
    · refine (h.rightly since pos htask c hc).imp_left ?_
      rintro ⟨⟨m, hm, hlt⟩, -⟩
      exact ⟨⟨m, hm, Nat.lt_succ_of_lt hlt⟩, fun hlive => by cases hlive.1⟩
  | publishDisconnected hlost =>
    refine ⟨fun c m hm hlive => ?_, h.idle, fun since pos htask c hc => ?_⟩
    · rcases h.sent c m hm hlive with hlt | ⟨-, hup⟩
      · exact .inl hlt
      · rw [hlost] at hup; cases hup
    · exact (h.rightly since pos htask c hc).imp_left
        fun hright => ⟨hright.1, fun hlive => by cases hlive.1⟩
  | publishOther => exact ⟨h.sent, h.idle, h.rightly⟩
  | reconnect hdown =>
    have hsent : ∀ c m, l.sent c = some m → m.live = true → m.losses < l.losses :=
      fun c m hm hlive => by
      rcases h.sent c m hm hlive with hlt | ⟨-, hup⟩
      · exact hlt
      · rw [hdown] at hup; cases hup
    refine ⟨fun c m hm hlive => .inl (hsent c m hm hlive), h.idle, fun since pos htask c hc => ?_⟩
    refine (h.rightly since pos htask c hc).imp_left fun hright => ⟨hright.1, ?_⟩
    rintro ⟨-, m, hm, hlive, heq⟩
    have hlt := hsent c m hm hlive
    simp only at heq
    omega
  | subscribe hspawned =>
    exact ⟨h.sent, fun _ => h.idle (by simp [hspawned]), fun since pos htask => by cases htask⟩
  | read htask hrecv hcore =>
    refine ⟨h.sent, fun hno => absurd rfl (hno _ _), fun since pos _ c hc => ?_⟩
    -- before the drain the hands are empty
    have hidle := h.idle (by simp [htask])
    have hpend : l.core.Pending c := by
      rcases hc with hc | hc
      · exact (failing_step hcore hc).resolve_left (hhands.idle hidle c)
      · exact (pending_step hcore hc).resolve_right (by simp)
    exact .inl (hok c (mem_pendingCalls.2 hpend))
  | skip htask hrecv hne =>
    exact ⟨h.sent, fun _ => h.idle (by simp [htask]), fun since pos htask => by cases htask⟩
  | drained htask hcore =>
    exact ⟨h.sent, fun _ => drainEnd_idle hcore, fun since pos htask => by cases htask⟩

theorem LinkRun.scoped {h : List LinkAction} {l : Link}
    (hr : (link cfg capacity).Run (HandledInTime cfg) h l) :
    Scoped cfg l := by
  refine Machine.Run.invariant (P := fun _ l => Scoped cfg l) ⟨fun c m hm => ?_, fun _ => rfl,
    fun _ _ h => ?_⟩
    (fun _ _ _ _ hr h hok hs => h.step (LinkRun.client hr).any hok (link_cases hs)) hr
  · cases hm
  · cases h

theorem LinkRun.failsRightly {h : List LinkAction} {l : Link}
    (hr : (link cfg capacity).Run (HandledInTime cfg) h l) :
    FailsRightly l := by
  intro c hc
  have hscoped := LinkRun.scoped hr
  have hhands := Run.hands (LinkRun.client hr)
  cases htask : l.task with
  | draining since pos =>
    exact (hscoped.rightly since pos htask c (.inl hc)).resolve_right fun hspared => hspared.2 hc
  | spawned => exact absurd hc (hhands.idle (hscoped.idle (by simp [htask])) c)
  | reading since pos => exact absurd hc (hhands.idle (hscoped.idle (by simp [htask])) c)

/-! ## Calls that were told of a lost connection -/

/-- `c` has returned the error of `fail_pending_requests`. -/
def State.Lost (s : State) (c : Nat) : Prop :=
  s.unary.phase c = .over (.received (.error connectionLost)) ∨
  s.batch.phase c = .over (.received (.error connectionLost))

theorem take_hand {K A V : Type} [DecidableEq K] [DecidableEq A] {t t' : Table K Nat A V} {a : A}
    {k : K} {v : Option V} {c : Nat} (hs : t.step (.take a k v) = some t')
    (hk : t.pending.lookup k = some c) :
    t'.hand a = some (c, v) := by
  cases step_cases hs with
  | take _ hk' =>
    obtain rfl := Option.some.inj (hk.symm.trans hk')
    simp
  | miss _ hnone => rw [hnone] at hk; cases hk

/-- Such a call has been in the hands of `disconnect_task`: no frame says the same. -/
theorem lost_of_failing {h : List Action} {s : State} (hr : (client cfg).Run Machine.always h s)
    {c : Nat} (hc : s.Lost c) : ∃ h1 x h2, h = h1 ++ x :: h2 ∧
      ∀ s1, (client cfg).Run Machine.always (h1 ++ [x]) s1 → s1.Failing c := by
  rcases hc with hc | hc
  · obtain ⟨a, id, t1, t2, hhist, hst, -, -⟩ := Oneshot.Run.provenance (tableRun_unary hr) hc
    obtain ⟨h1, x, h2, rfl, hx, rfl, rfl⟩ := Machine.split_of_filterMap hhist
    refine ⟨h1, x, h2, rfl, fun s1 hr1 => ?_⟩
    obtain ⟨s0, hr0, -, hs⟩ := hr1.last
    obtain ⟨-, hu, -⟩ := step_eq_some.1 hs
    rw [hx] at hu
    rcases onUnary_take hx with ⟨msg, w, rfl, hroute, -, hw⟩ | ⟨-, rfl, -⟩
    · cases hw
      rcases routeMessage_unary hroute with ⟨_, -, -, hv⟩ | ⟨_, -, -, hv⟩ <;> cases hv
    · exact .inl ⟨_, take_hand hu (hst.lookup (tableRun_unary hr0))⟩
  · obtain ⟨a, key, t1, t2, hhist, hst, -, -⟩ := Oneshot.Run.provenance (tableRun_batch hr) hc
    obtain ⟨h1, x, h2, rfl, hx, rfl, rfl⟩ := Machine.split_of_filterMap hhist
    refine ⟨h1, x, h2, rfl, fun s1 hr1 => ?_⟩
    obtain ⟨s0, hr0, -, hs⟩ := hr1.last
    obtain ⟨-, -, hb, -⟩ := step_eq_some.1 hs
    rw [hx] at hb
    rcases onBatch_take hx with ⟨msg, rfl, hroute, -⟩ | ⟨-, rfl, -⟩
    · obtain ⟨_, _, _, -, -, -, -, hv⟩ := routeMessage_batch hroute
      cases hv
    · exact .inr ⟨_, take_hand hb (hst.lookup (tableRun_batch hr0))⟩

/-- **When a disconnect fails the right calls**: in every run in which each `Disconnected` event is
read while no call of a later connection is pending, and until the maps are drained a call registers,
or is sent on a later connection, only when the drain is past its key. Then whoever is failed had
registered before the end of a lost connection, and its message was not sent on the live one; and
whoever returns the error was so failed. -/
theorem fails_rightly {h : List LinkAction} {l : Link}
    (hr : (link cfg capacity).Run (HandledInTime cfg) h l) :
    FailsRightly l ∧ ∀ c, l.core.Lost c → ∃ h1 h2 l1, h = h1 ++ h2 ∧
      (link cfg capacity).Run (HandledInTime cfg) h1 l1 ∧ l1.core.Failing c ∧ l1.Concerned c ∧
        ¬ l1.SentOnLive c := by
  refine ⟨LinkRun.failsRightly hr, fun c hc => ?_⟩
  obtain ⟨d1, x, d2, hhist, hfailing⟩ := lost_of_failing (LinkRun.client hr) hc
  obtain ⟨h1, y, h2, rfl, hy, rfl, -⟩ := Machine.split_of_filterMap hhist
  rw [List.append_cons] at hr
  obtain ⟨l1, hr1, -⟩ := Machine.Run.split hr
  have hc1 : l1.core.Failing c := by
    apply hfailing l1.core
    have hclient := LinkRun.client hr1
    rwa [List.filterMap_append, List.filterMap_cons_some hy, List.filterMap_nil] at hclient
  obtain ⟨hconcerned, hlive⟩ := LinkRun.failsRightly hr1 c hc1
  exact ⟨h1 ++ [y], h2, l1, by simp, hr1, hc1, hconcerned, hlive⟩

/-- The first request is failed, and the next call registers and is sent as soon as the keys of its
map have been copied. -/
def failedInTime : List LinkAction :=
  lostRequestFails.dropLast ++ [.reconnect, .client (.build 1 (some ⟨⟨1⟩, ⟨1⟩⟩)),
    .client (.call 1 .insert), .client (.call 1 .sendOk), .drained, .client (.call 0 .resume)]

theorem fails_rightly_in_time : ∃ l, (link twoCalls 64).Run (HandledInTime twoCalls) failedInTime l ∧
    l.core.Lost 0 ∧ l.SentOnLive 1 ∧ FailsRightly l ∧ ∃ h1 h2 l1, failedInTime = h1 ++ h2 ∧
      (link twoCalls 64).Run (HandledInTime twoCalls) h1 l1 ∧ l1.core.Failing 0 ∧ l1.Concerned 0 ∧
        ¬ l1.SentOnLive 0 := by
  have hrun : ((link twoCalls 64).execOk (HandledInTime twoCalls) (.init 64) failedInTime).any (fun l =>
      l.core.unary.phase 0 = .over (.received (.error connectionLost)) ∧
        l.SentOnLive 1) = true := by decide +kernel
  obtain ⟨l, hl, hend⟩ := (Option.any_eq_true _ _).1 hrun
  obtain ⟨hlost, hlive⟩ := of_decide_eq_true hend
  have hr := Machine.Run.of_execOk hl
  exact ⟨l, hr, .inl hlost, hlive, (fails_rightly hr).1, (fails_rightly hr).2 0 (.inl hlost)⟩

/-- The first connection is lost, and a request is sent on the second before the task reads about
it. -/
def liveRequest : List LinkAction :=
  [.subscribe, .reconnect, .lose, .publishDisconnected, .reconnect, .client (.reserveId 0 ⟨0⟩),
    .client (.call 0 .insert), .client (.call 0 .sendOk), .recv (.item .Disconnected),
    .client (.drainUnary (.yield ⟨0⟩)), .client (.drainUnary .scanned),
      .client (.drainUnary (.remove ⟨0⟩))]

/-- **The request is failed although its message was sent on the live connection**, and it was not
even registered before the end of another one. -/
theorem live_call_fails : ∃ l l', (link twoCalls 64).Run Machine.always liveRequest l ∧
    ¬ FailsRightly l ∧
    (link twoCalls 64).Run Machine.always
      (liveRequest ++ [.client .failUnary, .client (.call 0 .resume)]) l' ∧
    l'.core.Lost 0 ∧ l'.SentOnLive 0 ∧ ¬ l'.Concerned 0 := by
  have hrun : ((link twoCalls 64).exec (.init 64) liveRequest).any (fun l =>
      (l.core.unary.hand .disconnect).any (fun x => x.1 = 0) ∧
        ¬ l.Concerned 0) = true := by decide +kernel
  have hrun' : ((link twoCalls 64).exec (.init 64)
      (liveRequest ++ [.client .failUnary, .client (.call 0 .resume)])).any (fun l =>
        l.core.unary.phase 0 = .over (.received (.error connectionLost)) ∧ l.SentOnLive 0 ∧
          ¬ l.Concerned 0) = true := by
    decide +kernel
  obtain ⟨l, hl, hend⟩ := (Option.any_eq_true _ _).1 hrun
  obtain ⟨l', hl', hend'⟩ := (Option.any_eq_true _ _).1 hrun'
  obtain ⟨hhand, hno⟩ := of_decide_eq_true hend
  obtain ⟨hlost, hrest⟩ := of_decide_eq_true hend'
  obtain ⟨⟨c, v⟩, hv, hc⟩ := (Option.any_eq_true _ _).1 hhand
  obtain rfl : c = 0 := by simpa using hc
  exact ⟨l, l', Machine.Run.of_exec hl, fun hok => hno (hok 0 (.inl ⟨v, hv⟩)).1,
    Machine.Run.of_exec hl', .inl hlost, hrest⟩

end JsonRpc.Ws
