import JsonRpcClient.Concurrent.Progress
import JsonRpcClient.Ws.Callers
import JsonRpcClient.Ws.DrainOnce
import JsonRpcClient.Ws.FrameEffect

/-!
# What the tasks get done (handles.rs)

`incoming_task` and `disconnect_task` share the maps with each other and with every caller, and
answer callers that may be gone. None of it can stop them: `tasks_finish` is that each of them, left
alone in any state of a session, comes to the end of its channel, and `waiters_released` what this
means for the calls once a connection is lost.
-/

namespace JsonRpc.Ws
open Json Oneshot Broadcast

variable {R : ResponseTypes}

section
variable {cfg : Config R} {s s' : State} {a : Action}

/-- Only `handle_message` puts a sender into the hand of `incoming_task`. -/
theorem incoming_unary_step (hs : s.step cfg a = some s') {x : Nat × Option Reply}
    (hx : s'.unary.hand .incoming = some x) :
    s.unary.hand .incoming = some x ∨ ∃ msg, a = .handle msg := by
  rcases unary_step hs with he | ⟨act, hact, hstep⟩
  · exact .inl (he ▸ hx)
  · apply (step_hand hstep hx).imp_right
    rintro ⟨id, rfl, -⟩
    rcases onUnary_take hact with ⟨msg, _, rfl, -⟩ | ⟨-, hag, -⟩
    · exact ⟨msg, rfl⟩
    · cases hag

/-- … and it always has something to send. -/
theorem incoming_batch_step (hs : s.step cfg a = some s') {x : Nat × Option (Result BatchResult)}
    (hx : s'.batch.hand .incoming = some x) :
    s.batch.hand .incoming = some x ∨ (∃ msg, a = .handle msg) ∧ x.2 ≠ none := by
  rcases batch_step hs with he | ⟨act, hact, hstep⟩
  · exact .inl (he ▸ hx)
  · apply (step_hand hstep hx).imp_right
    rintro ⟨key, rfl, -⟩
    rcases onBatch_take hact with ⟨msg, rfl, hroute, -⟩ | ⟨-, hag, -⟩
    · obtain ⟨_, _, _, -, -, -, -, hv⟩ := routeMessage_batch hroute
      exact ⟨⟨msg, rfl⟩, by simp [hv]⟩
    · cases hag

/-- `incoming_task` dies of a frame, not of a reply. -/
theorem alive_step (hs : s.step cfg a = some s')
    (hsends : ∀ c v, s.batch.hand .incoming = some (c, v) → v ≠ none)
    (ha : ∀ msg, a ≠ .handle msg) : s'.alive = s.alive := by
  obtain ⟨-, -, -, hal, -⟩ := step_eq_some.1 hs
  cases a with
  | handle msg => exact absurd rfl (ha msg)
  | batchReply =>
    simp only [Action.onIncoming] at hal
    split at hal
    · rename_i c hhand
      exact absurd rfl (hsends c none hhand)
    · exact (Option.some.inj hal).symm
  | _ => exact (Option.some.inj hal).symm

/-! ## A drain goes on -/

/-- The steps of `fail_pending_requests` after its start. -/
def Action.ofDrain : Action → Bool
  | .drainUnary _ | .failUnary | .drainNext | .drainBatch _ | .failBatch | .drainEnd => true
  | _ => false

/-- How far `fail_pending_requests` is from its end: the maps to go, and what is left of this one. -/
def State.drainRank (s : State) : ℕ ×ₗ ℕ :=
  match s.drain with
  | .idle => toLex (0, 0)
  | .batch d => toLex (1, d.rest + s.batch.load .disconnect)
  | .unary d => toLex (2, d.rest + s.unary.load .disconnect)

theorem drainRank_unary {d : Drain RequestId Nat} (h : s.drain = .unary d) :
    s.drainRank = toLex (2, d.rest + s.unary.load .disconnect) := by
  rw [State.drainRank, h]

theorem drainRank_batch {d : Drain RangeInclusive Nat} (h : s.drain = .batch d) :
    s.drainRank = toLex (1, d.rest + s.batch.load .disconnect) := by
  rw [State.drainRank, h]

theorem drainStart_enabled (cfg : Config R) (hdrain : s.drain = .idle) :
    ∃ s', s.step cfg .drainStart = some s' := by
  refine ⟨{ s with drain := .unary (Drain.start s.unary.pending) },
    step_eq_some.2 ⟨rfl, rfl, rfl, rfl, ?_⟩⟩
  simp only [Action.onDrain, hdrain]

theorem drainUnary_goes_on {d : Drain RequestId Nat} (hdrain : s.drain = .unary d) :
    ∃ a s', a.ofDrain = true ∧ s.step cfg a = some s' ∧ s'.drainRank < s.drainRank := by
  rw [drainRank_unary hdrain]
  cases hhand : s.unary.hand .disconnect with
  | some x =>
    obtain ⟨t, ht, hnone, -⟩ := finish_enabled hhand
    have hs : s.step cfg .failUnary = some { s with unary := t } :=
      step_eq_some.2 ⟨rfl, ht, rfl, rfl, rfl⟩
    refine ⟨_, _, rfl, hs, ?_⟩
    rw [drainRank_unary (s := { s with unary := t }) hdrain, load_some hhand, load_none hnone]
    exact Prod.Lex.toLex_lt_toLex.2 (.inr ⟨rfl, Nat.lt_succ_self _⟩)
  | none =>
    by_cases hd : d.done = true
    · have hs : s.step cfg .drainNext =
          some { s with drain := .batch (Drain.start s.batch.pending) } := by
        refine step_eq_some.2 ⟨rfl, rfl, rfl, rfl, ?_⟩
        simp only [Action.onDrain, hdrain, hhand, hd, ↓reduceIte]
      exact ⟨_, _, rfl, hs, Prod.Lex.toLex_lt_toLex.2 (.inl Nat.one_lt_two)⟩
    · obtain ⟨act, d', hstep, hrest⟩ := Drain.goes_on s.unary.pending (Bool.not_eq_true _ ▸ hd)
      obtain ⟨t, ht, hload⟩ : ∃ t, tableStep s.unary ((Action.drainUnary act).onUnary cfg) = some t ∧
          t.load .disconnect ≤ act.takes := by
        cases act with
        | remove id =>
          obtain ⟨t, ht⟩ := take_enabled hhand id (some (.error connectionLost))
          exact ⟨t, ht, load_le⟩
        | yield k => exact ⟨s.unary, rfl, (load_none hhand).le⟩
        | scanned => exact ⟨s.unary, rfl, (load_none hhand).le⟩
      have hs : s.step cfg (.drainUnary act) = some { s with unary := t, drain := .unary d' } := by
        refine step_eq_some.2 ⟨rfl, ht, rfl, rfl, ?_⟩
        simp only [Action.onDrain, hdrain, hhand, hstep, Option.map_some]
      have hlt : d'.rest + t.load .disconnect < d.rest + s.unary.load .disconnect := by omega
      exact ⟨_, _, rfl, hs, Prod.Lex.toLex_lt_toLex.2 (.inr ⟨rfl, hlt⟩)⟩

theorem drainBatch_goes_on {d : Drain RangeInclusive Nat} (hdrain : s.drain = .batch d) :
    ∃ a s', a.ofDrain = true ∧ s.step cfg a = some s' ∧ s'.drainRank < s.drainRank := by
  rw [drainRank_batch hdrain]
  cases hhand : s.batch.hand .disconnect with
  | some x =>
    obtain ⟨t, ht, hnone, -⟩ := finish_enabled hhand
    have hs : s.step cfg .failBatch = some { s with batch := t } :=
      step_eq_some.2 ⟨rfl, rfl, ht, rfl, rfl⟩
    refine ⟨_, _, rfl, hs, ?_⟩
    rw [drainRank_batch (s := { s with batch := t }) hdrain, load_some hhand, load_none hnone]
    exact Prod.Lex.toLex_lt_toLex.2 (.inr ⟨rfl, Nat.lt_succ_self _⟩)
  | none =>
    by_cases hd : d.done = true
    · have hs : s.step cfg .drainEnd = some { s with drain := .idle } := by
        refine step_eq_some.2 ⟨rfl, rfl, rfl, rfl, ?_⟩
        simp only [Action.onDrain, hdrain, hhand, hd, ↓reduceIte]
      exact ⟨_, _, rfl, hs, Prod.Lex.toLex_lt_toLex.2 (.inl Nat.one_pos)⟩
    · obtain ⟨act, d', hstep, hrest⟩ := Drain.goes_on s.batch.pending (Bool.not_eq_true _ ▸ hd)
      obtain ⟨t, ht, hload⟩ : ∃ t, tableStep s.batch ((Action.drainBatch act).onBatch cfg) = some t ∧
          t.load .disconnect ≤ act.takes := by
        cases act with
        | remove key =>
          obtain ⟨t, ht⟩ := take_enabled hhand key (some (.error connectionLost))
          exact ⟨t, ht, load_le⟩
        | yield k => exact ⟨s.batch, rfl, (load_none hhand).le⟩
        | scanned => exact ⟨s.batch, rfl, (load_none hhand).le⟩
      have hs : s.step cfg (.drainBatch act) = some { s with batch := t, drain := .batch d' } := by
        refine step_eq_some.2 ⟨rfl, rfl, ht, rfl, ?_⟩
        simp only [Action.onDrain, hdrain, hhand, hstep, Option.map_some]
      have hlt : d'.rest + t.load .disconnect < d.rest + s.batch.load .disconnect := by omega
      exact ⟨_, _, rfl, hs, Prod.Lex.toLex_lt_toLex.2 (.inr ⟨rfl, hlt⟩)⟩

/-- **A drain can always go on**, and comes nearer to its end. -/
theorem drain_goes_on (cfg : Config R) (hdrain : s.drain ≠ .idle) :
    ∃ a s', a.ofDrain = true ∧ s.step cfg a = some s' ∧ s'.drainRank < s.drainRank := by
  cases h : s.drain with
  | idle => exact absurd h hdrain
  | unary d => exact drainUnary_goes_on h
  | batch d => exact drainBatch_goes_on h

end

/-! ## The two tasks of a session -/

/-- The steps of `incoming_task`. -/
def SessionAction.ofIncoming : SessionAction → Bool
  | .feed .start | .feed (.recv _) | .handle _ => true
  | .link (.client .reply) | .link (.client .batchReply) => true
  | _ => false

/-- The steps of `disconnect_task`. -/
def SessionAction.ofDisconnect : SessionAction → Bool
  | .link .subscribe | .link (.recv _) | .link .drained => true
  | .link (.client a) => a.ofDrain
  | _ => false

variable {cfg : SessionConfig R} {h : List SessionAction} {s s' : Session}

/-- How the tasks and what they do to the maps belong together. -/
structure InStep (s : Session) : Prop where
  alive : s.core.alive = true ↔ s.feed.task ≠ .panicked
  handling : ∀ msg pos, s.feed.task = .handling msg pos → s.core.idle = true
  sends : ∀ c v, s.core.batch.hand .incoming = some (c, v) → v ≠ none
  draining : (∃ since pos, s.link.task = .draining since pos) ↔ s.core.drain ≠ .idle

theorem InStep.awake {l : Link} {f : Feed} (hi : InStep (l, f)) (htask : f.task ≠ .panicked) :
    l.core.alive = true := hi.alive.2 htask

theorem drain_idle_iff {cfg : Config R} {s s' : State} {a : Action} (hs : s.step cfg a = some s')
    (ha : a.ofTask = false) : s'.drain = .idle ↔ s.drain = .idle := by
  have hd := drain_step hs
  generalize s'.drain = d' at hd
  cases hd with
  | start => cases ha
  | unary hdrain => simp [hdrain]
  | next hdrain => simp [hdrain]
  | batch hdrain => simp [hdrain]
  | done => cases ha
  | other => rfl

theorem idle_eq_true {s : State} : s.idle = true ↔
    s.unary.hand .incoming = none ∧ s.batch.hand .incoming = none := by
  simp [State.idle]

/-- A step of the client other than `handle` fills no hand of `incoming_task`. -/
theorem idle_step {cfg : Config R} {s s' : State} {a : Action} (hs : s.step cfg a = some s')
    (ha : ∀ msg, a ≠ .handle msg) (hidle : s.idle = true) : s'.idle = true := by
  obtain ⟨hu, hb⟩ := idle_eq_true.1 hidle
  refine idle_eq_true.2 ⟨?_, ?_⟩
  · cases hx : s'.unary.hand .incoming with
    | none => rfl
    | some x =>
      rcases incoming_unary_step hs hx with hx | ⟨msg, rfl⟩
      · cases hu.symm.trans hx
      · exact absurd rfl (ha msg)
  · cases hx : s'.batch.hand .incoming with
    | none => rfl
    | some x =>
      rcases incoming_batch_step hs hx with hx | ⟨⟨msg, rfl⟩, -⟩
      · cases hb.symm.trans hx
      · exact absurd rfl (ha msg)

theorem sends_step {cfg : Config R} {s s' : State} {a : Action} (hs : s.step cfg a = some s')
    (hsends : ∀ c v, s.batch.hand .incoming = some (c, v) → v ≠ none) (c : Nat)
    (v : Option (Result BatchResult)) (hx : s'.batch.hand .incoming = some (c, v)) : v ≠ none := by
  rcases incoming_batch_step hs hx with hx | ⟨-, hv⟩
  · exact hsends c v hx
  · exact hv

/-- A step of the link that is not `handle_message`. -/
theorem InStep.link {l l' : Link} {f : Feed} {a : LinkAction} (hi : InStep (l, f))
    (hno : ∀ msg, a ≠ .client (.handle msg)) (hs : LinkStep cfg.toConfig l a l') :
    InStep (l', f) := by
  cases hs with
  | @client a core ha hs =>
    have hno : ∀ msg, a ≠ .handle msg := fun msg heq => hno msg (congrArg _ heq)
    refine ⟨?_, ?_, sends_step hs hi.sends, ?_⟩
    · exact (alive_step hs hi.sends hno) ▸ hi.alive
    · exact fun msg pos htask => idle_step hs hno (hi.handling msg pos htask)
    · exact hi.draining.trans (not_congr (drain_idle_iff hs ha).symm)
  | @read since pos pos' core htask hrecv hs =>
    have hno : ∀ msg, Action.drainStart ≠ .handle msg := by simp
    refine ⟨?_, ?_, sends_step hs hi.sends, ?_⟩
    · exact (alive_step hs hi.sends hno) ▸ hi.alive
    · exact fun msg pos htask => idle_step hs hno (hi.handling msg pos htask)
    · refine iff_of_true ⟨since, pos', rfl⟩ ?_
      have hd := drain_step hs
      generalize core.drain = d' at hd
      cases hd with
      | start => simp
      | other ha => cases ha
  | @drained since pos core htask hs =>
    have hno : ∀ msg, Action.drainEnd ≠ .handle msg := by simp
    refine ⟨?_, ?_, sends_step hs hi.sends, ?_⟩
    · exact (alive_step hs hi.sends hno) ▸ hi.alive
    · exact fun msg pos htask => idle_step hs hno (hi.handling msg pos htask)
    · refine iff_of_false (by simp) ?_
      rw [not_not]
      exact drainEnd_idle hs
  | subscribe htask =>
    have hno : ¬ ∃ since pos, l.task = .draining since pos := by simp [htask]
    exact ⟨hi.alive, hi.handling, hi.sends, iff_of_false (by simp) (mt hi.draining.2 hno)⟩
  | skip htask =>
    have hno : ¬ ∃ since pos, l.task = .draining since pos := by simp [htask]
    exact ⟨hi.alive, hi.handling, hi.sends, iff_of_false (by simp) (mt hi.draining.2 hno)⟩
  | lose => exact ⟨hi.alive, hi.handling, hi.sends, hi.draining⟩
  | publishDisconnected => exact ⟨hi.alive, hi.handling, hi.sends, hi.draining⟩
  | publishOther => exact ⟨hi.alive, hi.handling, hi.sends, hi.draining⟩
  | reconnect => exact ⟨hi.alive, hi.handling, hi.sends, hi.draining⟩

theorem Feed.handle_panicked {cfg : FeedConfig} {f : Feed} {msg : Message} {pos : Nat} :
    (f.handle cfg msg pos).task = .panicked ↔ routeMessage cfg.profile cfg.serde msg = .panic := by
  unfold Feed.handle
  cases routeMessage cfg.profile cfg.serde msg <;> simp

/-- `handle_message`: it fills a hand, or kills the task. -/
theorem InStep.handle {l : Link} {f : Feed} {core : State} {msg : Message} {pos : Nat}
    (hi : InStep (l, f)) (hs : l.core.step cfg.toConfig (.handle msg) = some core) :
    InStep (l.withCore core (.handle msg), f.handle cfg.feed msg pos) := by
  obtain ⟨-, -, -, hal, -⟩ := step_eq_some.1 hs
  simp only [Action.onIncoming] at hal
  split at hal
  · have hal := Option.some.inj hal
    refine ⟨?_, ?_, sends_step hs hi.sends,
      hi.draining.trans (not_congr (drain_idle_iff hs rfl).symm)⟩
    · change core.alive = true ↔ (f.handle cfg.feed msg pos).task ≠ .panicked
      rw [← hal, decide_eq_true_eq, ne_eq, ne_eq, Feed.handle_panicked]
      rfl
    · intro msg' pos' htask'
      rcases Feed.handle_task cfg.feed f msg pos with ht | ht <;> cases ht.symm.trans htask'
  · cases hal

theorem InStep.feed {l : Link} {f f' : Feed} {a : FeedAction} (hi : InStep (l, f))
    (hno : a ≠ .handled) (hidle : ∀ r, a = .recv r → l.core.idle = true)
    (hs : FeedStep cfg.feed f a f') : InStep (l, f') := by
  cases hs with
  | start htask =>
    exact ⟨iff_of_true (hi.awake (by simp [htask])) (by simp), by simp, hi.sends, hi.draining⟩
  | item htask =>
    exact ⟨iff_of_true (hi.awake (by simp [htask])) (by simp), fun _ _ _ => hidle _ rfl, hi.sends,
      hi.draining⟩
  | lagged htask =>
    exact ⟨iff_of_true (hi.awake (by simp [htask])) (by simp), by simp, hi.sends, hi.draining⟩
  | handled => exact absurd rfl hno
  | receive => exact ⟨hi.alive, hi.handling, hi.sends, hi.draining⟩
  | subscribe => exact ⟨hi.alive, hi.handling, hi.sends, hi.draining⟩
  | poll => exact ⟨hi.alive, hi.handling, hi.sends, hi.draining⟩

theorem InStep.init (cfg : SessionConfig R) : InStep (session cfg).init where
  alive := iff_of_true rfl (by rintro ⟨⟩)
  handling := by rintro msg pos ⟨⟩
  sends := by rintro c v ⟨⟩
  draining := iff_of_false (by rintro ⟨since, pos, ⟨⟩⟩) (by rw [not_not]; rfl)

theorem SessionRun.inStep (hr : (session cfg).Run Machine.always h s) : InStep s := by
  refine Machine.Run.invariant (P := fun _ s => InStep s) (.init cfg) ?_ hr
  intro h s a s' _ hi _ hstep
  cases session_cases hstep with
  | link hno hs => exact hi.link hno hs
  | feed hno hidle hs => exact hi.feed hno hidle hs
  | handle htask hs => exact hi.handle hs

/-- A frame that panics does so in a build with overflow checks. -/
theorem checked_of_panic {p : Profile} {J : SerdeJson} {msg : Message}
    (h : routeMessage p J msg = .panic) : p = .checked := by
  unfold routeMessage at h
  split at h
  · obtain ⟨batch, -, hroute⟩ := route_eq_panic.1 h
    exact (routeBatch_eq_panic_iff.1 hroute).1
  · cases h

theorem SessionRun.checked_of_panicked (hr : (session cfg).Run Machine.always h s)
    (hpanic : s.feed.task = .panicked) : cfg.profile = .checked := by
  refine Machine.Run.invariant (P := fun _ s => s.feed.task = .panicked → cfg.profile = .checked)
    ?_ ?_ hr hpanic
  · rintro ⟨⟩
  · intro h s a s' _ ih _ hs hpanic
    cases session_cases hs with
    | link => exact ih hpanic
    | handle => exact checked_of_panic (Feed.handle_panicked.1 hpanic)
    | feed hno hidle hstep =>
      cases hstep with
      | start => cases hpanic
      | item => cases hpanic
      | lagged => cases hpanic
      | handled => exact absurd rfl hno
      | _ => exact ih hpanic

/-! ## Nobody blocks them -/

/-- How many events `disconnect_task` has not read; to subscribe counts as one more. -/
def Link.eventsLeft (l : Link) : ℕ :=
  match l.task with
  | .spawned => l.events.log.length + 1
  | .reading _ pos | .draining _ pos => l.events.log.length - pos

/-- How many frames `incoming_task` has not. -/
def Feed.framesLeft (f : Feed) : ℕ :=
  match f.task with
  | .spawned => f.frames.log.length + 1
  | .reading pos | .handling _ pos => f.frames.log.length - pos
  | .panicked => 0

/-- Whether the task has a frame to handle. -/
def IncomingTask.work : IncomingTask → ℕ
  | .handling .. => 1
  | _ => 0

/-- What is between `disconnect_task` and the end of its channel. -/
def Session.disconnectRank (s : Session) : ℕ ×ₗ ℕ ×ₗ ℕ := toLex (s.link.eventsLeft, s.core.drainRank)

/-- What is between `incoming_task` and the end of its own. -/
def Session.incomingRank (s : Session) : ℕ ×ₗ ℕ ×ₗ ℕ :=
  toLex (s.feed.framesLeft,
    toLex (s.feed.task.work, s.core.unary.load .incoming + s.core.batch.load .incoming))

/-- It has read all events, and is done with them. -/
def Session.DisconnectDone (s : Session) : Prop :=
  ∃ since pos, s.link.task = .reading since pos ∧ s.link.events.log.length ≤ pos

/-- It has read all frames and sent what they said; or it has panicked, in a build that can. -/
def Session.IncomingDone (cfg : SessionConfig R) (s : Session) : Prop :=
  s.core.idle = true ∧ (cfg.profile = .checked ∧ s.feed.task = .panicked ∨
    ∃ pos, s.feed.task = .reading pos ∧ s.feed.frames.log.length ≤ pos)

theorem link_enabled {a : LinkAction} {l' : Link} (ha : ∀ msg, a ≠ .client (.handle msg))
    (hs : s.link.step cfg.toConfig a = some l') :
    (session cfg).step s (.link a) = some (l', s.feed) := by
  refine Machine.join_step.2 ⟨?_, hs, rfl⟩
  change SessionAction.guard s.link s.feed (.link a) = true
  unfold SessionAction.guard
  split
  · rename_i heq
    cases heq
    exact absurd rfl (ha _)
  · rfl
  all_goals rename_i heq; cases heq

theorem client_enabled {a : Action} {core : State} (ha : ∀ msg, a ≠ .handle msg)
    (htask : a.ofTask = false) (hs : s.core.step cfg.toConfig a = some core) :
    (session cfg).step s (.link (.client a)) = some (s.link.withCore core a, s.feed) := by
  refine link_enabled (fun msg heq => ha msg (LinkAction.client.inj heq)) ?_
  simp only [Link.step, htask, Bool.false_eq_true, ↓reduceIte, hs, Option.map_some]

/-- What `incoming_task` holds it can send. -/
theorem reply_goes_on (hidle : s.core.idle = false) :
    ∃ a s', a.ofIncoming = true ∧ (session cfg).step s a = some s' ∧
      s'.incomingRank < s.incomingRank := by
  cases hu : s.core.unary.hand .incoming with
  | some x =>
    obtain ⟨t, ht, hnone, -⟩ := finish_enabled hu
    have hs : s.core.step cfg.toConfig .reply = some { s.core with unary := t } :=
      step_eq_some.2 ⟨rfl, ht, rfl, rfl, rfl⟩
    refine ⟨_, _, rfl, client_enabled (by simp) rfl hs, ?_⟩
    have hlt : t.load .incoming + s.core.batch.load .incoming <
        s.core.unary.load .incoming + s.core.batch.load .incoming := by
      rw [load_none hnone, load_some hu]
      omega
    exact Prod.Lex.toLex_lt_toLex.2 (.inr ⟨rfl, Prod.Lex.toLex_lt_toLex.2 (.inr ⟨rfl, hlt⟩)⟩)
  | none =>
    cases hb : s.core.batch.hand .incoming with
    | none => simp [State.idle, hu, hb] at hidle
    | some x =>
      obtain ⟨t, ht, hnone, -⟩ := finish_enabled hb
      obtain ⟨alive, halive⟩ : ∃ alive,
          Action.onIncoming cfg.toConfig s.core .batchReply = some alive := by
        simp only [Action.onIncoming]
        split <;> exact ⟨_, rfl⟩
      have hs : s.core.step cfg.toConfig .batchReply =
          some { s.core with batch := t, alive := alive } :=
        step_eq_some.2 ⟨rfl, rfl, ht, halive, rfl⟩
      refine ⟨_, _, rfl, client_enabled (by simp) rfl hs, ?_⟩
      have hlt : s.core.unary.load .incoming + t.load .incoming <
          s.core.unary.load .incoming + s.core.batch.load .incoming := by
        rw [load_none hnone, load_some hb]
        omega
      exact Prod.Lex.toLex_lt_toLex.2 (.inr ⟨rfl, Prod.Lex.toLex_lt_toLex.2 (.inr ⟨rfl, hlt⟩)⟩)

/-- A frame that was read can be handled. -/
theorem handle_enabled (cfg : Config R) {s : State} (halive : s.alive = true)
    (hidle : s.idle = true) (msg : Message) : ∃ s', s.step cfg (.handle msg) = some s' := by
  obtain ⟨hu, hb⟩ := idle_eq_true.1 hidle
  obtain ⟨tu, htu⟩ : ∃ t, tableStep s.unary ((Action.handle msg).onUnary cfg) = some t := by
    simp only [Action.onUnary]
    split
    · exact take_enabled hu _ _
    · exact ⟨_, rfl⟩
  obtain ⟨tb, htb⟩ : ∃ t, tableStep s.batch ((Action.handle msg).onBatch cfg) = some t := by
    simp only [Action.onBatch]
    split
    · exact take_enabled hb _ _
    · exact ⟨_, rfl⟩
  obtain ⟨alive, hal⟩ : ∃ alive, Action.onIncoming cfg s (.handle msg) = some alive := by
    simp only [Action.onIncoming, halive, hu, hb]
    exact ⟨_, rfl⟩
  exact ⟨⟨s.idmgr, tu, tb, alive, s.drain⟩, step_eq_some.2 ⟨rfl, htu, htb, hal, rfl⟩⟩

/-- Handling a frame brings `incoming_task` nearer to the end, whatever it makes of it. -/
theorem handle_rank {l : Link} {f : Feed} {core : State} {msg : Message} {pos : Nat}
    (htask : f.task = .handling msg pos) :
    Session.incomingRank (l.withCore core (.handle msg), f.handle cfg.feed msg pos) <
      Session.incomingRank (l, f) := by
  have hwork : f.task.work = 1 := by rw [htask]; rfl
  have hwork' : (f.handle cfg.feed msg pos).task.work = 0 := by
    rcases Feed.handle_task cfg.feed f msg pos with ht | ht <;> rw [ht] <;> rfl
  have hleft : (f.handle cfg.feed msg pos).framesLeft ≤ f.framesLeft := by
    unfold Feed.framesLeft
    rw [Feed.handle_frames, htask]
    rcases Feed.handle_task cfg.feed f msg pos with ht | ht <;> simp [ht]
  refine Prod.Lex.toLex_lt_toLex.2 ?_
  rcases hleft.lt_or_eq with hlt | heq
  · exact .inl hlt
  · exact .inr ⟨heq, Prod.Lex.toLex_lt_toLex.2 (.inl (by rw [hwork', hwork]; exact Nat.one_pos))⟩

/-- A step of `incoming_task` that is always possible. -/
theorem incoming_goes_on (hr : (session cfg).Run Machine.always h s) : s.IncomingDone cfg ∨
    ∃ a s', a.ofIncoming = true ∧ (session cfg).step s a = some s' ∧
      s'.incomingRank < s.incomingRank := by
  by_cases hidle : s.core.idle = true
  · cases htask : s.feed.task with
    | panicked => exact .inl ⟨hidle, .inl ⟨SessionRun.checked_of_panicked hr htask, htask⟩⟩
    | spawned =>
      have hf : Feed.step cfg.feed s.feed .start =
          some { s.feed with task := .reading s.feed.frames.tail } := by
        simp only [Feed.step, htask]
      refine .inr ⟨.feed .start, (s.link, { s.feed with task := .reading s.feed.frames.tail }), rfl,
        Machine.join_step.2 ⟨rfl, rfl, hf⟩, ?_⟩
      refine Prod.Lex.toLex_lt_toLex.2 (.inl ?_)
      simp [Feed.framesLeft, htask, Channel.tail]
    | reading pos =>
      cases hrecv : s.feed.frames.recv pos with
      | none => exact .inl ⟨hidle, .inr ⟨pos, htask, Channel.length_le_of_recv hrecv⟩⟩
      | some x =>
        obtain ⟨r, pos'⟩ := x
        obtain ⟨hlt, hle⟩ := Channel.recv_le hrecv
        obtain ⟨f', hf, hleft⟩ : ∃ f', Feed.step cfg.feed s.feed (.recv r) = some f' ∧
            f'.framesLeft = s.feed.frames.log.length - pos' := by
          cases r with
          | item msg => exact ⟨{ s.feed with task := .handling msg pos' },
              by simp only [Feed.step, htask, hrecv, ↓reduceIte], rfl⟩
          | lagged n => exact ⟨{ s.feed with task := .reading pos' },
              by simp only [Feed.step, htask, hrecv, ↓reduceIte], rfl⟩
        refine .inr ⟨.feed (.recv r), (s.link, f'), rfl, Machine.join_step.2 ⟨hidle, rfl, hf⟩, ?_⟩
        have hbefore : s.feed.framesLeft = s.feed.frames.log.length - pos := by
          rw [Feed.framesLeft, htask]
        refine Prod.Lex.toLex_lt_toLex.2 (.inl ?_)
        change f'.framesLeft < s.feed.framesLeft
        omega
    | handling msg pos =>
      have halive : s.core.alive = true := (SessionRun.inStep hr).alive.2 (by simp [htask])
      obtain ⟨core, hs⟩ := handle_enabled cfg.toConfig halive hidle msg
      refine .inr ⟨.handle msg, (s.link.withCore core (.handle msg), s.feed.handle cfg.feed msg pos),
        rfl, Machine.join_step.2 ⟨?_, ?_, ?_⟩, handle_rank htask⟩
      · change SessionAction.guard s.link s.feed (.handle msg) = true
        simp only [SessionAction.guard, htask, decide_true]
      · change Link.step cfg.toConfig s.link (.client (.handle msg)) = some _
        simp only [Link.step, Action.ofTask, Bool.false_eq_true, ↓reduceIte, hs, Option.map_some]
      · change Feed.step cfg.feed s.feed .handled = some _
        simp only [Feed.step, htask]
  · exact .inr (reply_goes_on (Bool.not_eq_true _ ▸ hidle))

/-- A step of `disconnect_task` that is. -/
theorem disconnect_goes_on (hr : (session cfg).Run Machine.always h s) : s.DisconnectDone ∨
    ∃ a s', a.ofDisconnect = true ∧ (session cfg).step s a = some s' ∧
      s'.disconnectRank < s.disconnectRank := by
  have hi := SessionRun.inStep hr
  cases htask : s.link.task with
  | spawned =>
    have hs : s.link.step cfg.toConfig .subscribe = some { s.link with
        task := .reading s.link.events.tail s.link.events.tail } := by
      simp only [Link.step, htask]
    refine .inr ⟨.link .subscribe, _, rfl, link_enabled (by simp) hs, ?_⟩
    refine Prod.Lex.toLex_lt_toLex.2 (.inl ?_)
    simp [Link.eventsLeft, htask, Channel.tail]
  | reading since pos =>
    cases hrecv : s.link.events.recv pos with
    | none => exact .inl ⟨since, pos, htask, Channel.length_le_of_recv hrecv⟩
    | some x =>
      obtain ⟨r, pos'⟩ := x
      obtain ⟨hlt, hle⟩ := Channel.recv_le hrecv
      have hdrain : s.core.drain = .idle := by
        by_contra hdrain
        obtain ⟨since', pos', h⟩ := hi.draining.2 hdrain
        cases htask.symm.trans h
      obtain ⟨l', hl, hleft⟩ : ∃ l', s.link.step cfg.toConfig (.recv r) = some l' ∧
          l'.eventsLeft = s.link.events.log.length - pos' := by
        by_cases hr : r = .item .Disconnected
        · obtain ⟨core, hstart⟩ := drainStart_enabled cfg.toConfig hdrain
          refine ⟨{ s.link with core := core, task := .draining since pos' }, ?_, rfl⟩
          simp only [Link.step, htask, hrecv, hr, hstart, ↓reduceIte, Option.map_some]
        · refine ⟨{ s.link with task := .reading since pos' }, ?_, rfl⟩
          simp only [Link.step, htask, hrecv, hr, ↓reduceIte]
      have hno : ∀ msg, LinkAction.recv r ≠ .client (.handle msg) := by simp
      refine .inr ⟨.link (.recv r), _, rfl, link_enabled hno hl, ?_⟩
      have hbefore : s.link.eventsLeft = s.link.events.log.length - pos := by
        rw [Link.eventsLeft, htask]
      refine Prod.Lex.toLex_lt_toLex.2 (.inl ?_)
      change l'.eventsLeft < s.link.eventsLeft
      omega
  | draining since pos =>
    have hleft : s.link.eventsLeft = s.link.events.log.length - pos := by
      rw [Link.eventsLeft, htask]
    obtain ⟨a, core, ha, hs, hlt⟩ := drain_goes_on cfg.toConfig
      (hi.draining.1 ⟨since, pos, htask⟩)
    by_cases hend : a = .drainEnd
    · subst hend
      have hdrained : s.link.step cfg.toConfig .drained =
          some { s.link with core := core, task := .reading since pos } := by
        simp only [Link.step, htask, hs, Option.map_some]
      refine .inr ⟨.link .drained, _, rfl, link_enabled (by simp) hdrained, ?_⟩
      exact Prod.Lex.toLex_lt_toLex.2 (.inr ⟨hleft.symm, hlt⟩)
    · have hof : a.ofTask = false := by
        cases a with
        | drainStart => cases ha
        | drainEnd => exact absurd rfl hend
        | _ => rfl
      have hno : ∀ msg, a ≠ .handle msg := by
        rintro msg rfl
        cases ha
      refine .inr ⟨.link (.client a), _, ha, client_enabled hno hof hs, ?_⟩
      exact Prod.Lex.toLex_lt_toLex.2 (.inr ⟨rfl, hlt⟩)

theorem incoming_finishes (hr : (session cfg).Run Machine.always h s) :
    ∃ after s', (∀ a ∈ after, SessionAction.ofIncoming a = true) ∧
      (session cfg).Run Machine.always (h ++ after) s' ∧ s'.IncomingDone cfg := by
  refine Machine.Run.exists_done Session.incomingRank ?_ hr
  intro h s hr
  refine (incoming_goes_on hr).imp_right ?_
  rintro ⟨a, s', ha, hs, hlt⟩
  exact ⟨a, s', ha, trivial, hs, hlt⟩

theorem disconnect_finishes (hr : (session cfg).Run Machine.always h s) :
    ∃ after s', (∀ a ∈ after, SessionAction.ofDisconnect a = true) ∧
      (session cfg).Run Machine.always (h ++ after) s' ∧ s'.DisconnectDone := by
  refine Machine.Run.exists_done Session.disconnectRank ?_ hr
  intro h s hr
  refine (disconnect_goes_on hr).imp_right ?_
  rintro ⟨a, s', ha, hs, hlt⟩
  exact ⟨a, s', ha, trivial, hs, hlt⟩

/-- **The tasks finish what they have to do.** In every run of a session, whatever the callers, the
peer and the connection have done: `incoming_task`, left alone, gets to the end of its channel and
has answered on every sender it took, or panics on the way, in a build with overflow checks; and
`disconnect_task`, left alone, gets to the end of its own. -/
theorem tasks_finish (hr : (session cfg).Run Machine.always h s) :
    (∃ after s', (∀ a ∈ after, SessionAction.ofIncoming a = true) ∧
      (session cfg).Run Machine.always (h ++ after) s' ∧ s'.IncomingDone cfg) ∧
    ∃ after s', (∀ a ∈ after, SessionAction.ofDisconnect a = true) ∧
      (session cfg).Run Machine.always (h ++ after) s' ∧ s'.DisconnectDone :=
  ⟨incoming_finishes hr, disconnect_finishes hr⟩

theorem tasks_finish_late : ∃ s, (session session2).Run Machine.always lateFrames s ∧
    (∃ after s', (∀ a ∈ after, SessionAction.ofIncoming a = true) ∧
      (session session2).Run Machine.always (lateFrames ++ after) s' ∧ s'.IncomingDone session2) ∧
    ∃ after s', (∀ a ∈ after, SessionAction.ofDisconnect a = true) ∧
      (session session2).Run Machine.always (lateFrames ++ after) s' ∧ s'.DisconnectDone := by
  have hrun : ((session session2).exec (session session2).init lateFrames).isSome = true := by
    decide +kernel
  obtain ⟨s, hs⟩ := Option.isSome_iff_exists.1 hrun
  have hr := Machine.Run.of_exec hs
  exact ⟨s, hr, tasks_finish hr⟩

/-! ## After a connection is lost -/

/-- The call waits for its reply. -/
def State.Waits (cfg : Config R) (s : State) (c : Nat) : Prop :=
  if (cfg.calls c).isRequest then s.unary.phase c = .waiting else s.batch.phase c = .waiting

/-- `disconnect_task` is going to read a `Disconnected`: it is published, and still retained. -/
def Link.Awaits (l : Link) : Prop :=
  ∃ i since pos, l.events.log[i]? = some .Disconnected ∧ l.events.oldest ≤ i ∧ pos ≤ i ∧
    (l.task = .reading since pos ∨ l.task = .draining since pos)

/-- Nothing will be pending when `disconnect_task` has read what there is to read. -/
def Link.Clears (l : Link) : Prop :=
  l.Awaits ∨ l.core.Draining (fun _ => True) ∨ ∀ c, ¬ l.core.Pending c

/-- What `disconnect_task` does leaves it so. -/
theorem Link.Clears.step {l l' : Link} {a : LinkAction} (h : l.Clears)
    (ha : SessionAction.ofDisconnect (.link a) = true) (hs : LinkStep cfg.toConfig l a l') :
    l'.Clears := by
  cases hs with
  | @client a core hof hs =>
    have hnew : ∀ c, a ≠ .call c .insert := by
      rintro c rfl
      cases ha
    rcases h with hawait | hdrain | hnone
    · exact .inl hawait
    · exact .inr (.inl (draining_step hs hof (fun _ h => h) (fun c hc => absurd hc (hnew c)) hdrain))
    · refine .inr (.inr fun c hc => ?_)
      exact hnone c ((pending_step hs hc).resolve_right (hnew c))
  | read htask hrecv hs => exact .inr (.inl (draining_start hs))
  | @skip since pos pos' r htask hrecv hne =>
    refine h.imp_left ?_
    rintro ⟨i, since', p, hi, hold, hp, ht | ht⟩
    · obtain ⟨rfl, rfl⟩ := DisconnectTask.reading.inj (htask.symm.trans ht)
      refine ⟨i, since, pos', hi, hold, ?_, .inl rfl⟩
      rcases Channel.recv_cases hrecv with ⟨e, rfl, he, rfl⟩ | ⟨n, -, -, -, rfl⟩
      · -- the event at `i` would have been a `Disconnected`
        refine Nat.lt_of_le_of_ne hp ?_
        rintro rfl
        rw [he] at hi
        exact hne (congrArg _ (Option.some.inj hi))
      · exact hold
    · cases htask.symm.trans ht
  | @drained since pos core htask hs =>
    rcases h with ⟨i, since', p, hi, hold, hp, ht | ht⟩ | hdrain | hnone
    · cases htask.symm.trans ht
    · obtain ⟨rfl, rfl⟩ := DisconnectTask.draining.inj (htask.symm.trans ht)
      exact .inl ⟨i, since, pos, hi, hold, hp, .inl rfl⟩
    · exact .inr (.inr fun c => draining_end hs hdrain trivial)
    · refine .inr (.inr fun c hc => ?_)
      exact hnone c ((pending_step hs hc).resolve_right (by simp))
  | subscribe htask =>
    refine h.imp_left ?_
    rintro ⟨i, since', p, -, -, -, ht | ht⟩ <;> cases htask.symm.trans ht
  | lose => cases ha
  | publishDisconnected => cases ha
  | publishOther => cases ha
  | reconnect => cases ha

/-- What `incoming_task` does is not seen by `disconnect_task`. -/
theorem Link.Awaits.step {a : SessionAction} (h : s.link.Awaits) (ha : a.ofIncoming = true)
    (hs : SessionStep cfg s a s') : s'.link.Awaits := by
  cases hs with
  | link hno hs =>
    cases hs with
    | client hof hs => exact h
    | _ => cases ha
  | feed => exact h
  | handle => exact h

/-- What `disconnect_task` does is not seen by `incoming_task`. -/
theorem idle_of_ofDisconnect {a : SessionAction} (h : s.core.idle = true)
    (ha : a.ofDisconnect = true) (hs : SessionStep cfg s a s') : s'.core.idle = true := by
  cases hs with
  | link hno hs =>
    cases hs with
    | client hof hs => exact idle_step hs (fun msg heq => hno msg (congrArg _ heq)) h
    | read htask hrecv hs => exact idle_step hs (by simp) h
    | drained htask hs => exact idle_step hs (by simp) h
    | _ => exact h
  | feed => cases ha
  | handle => cases ha

/-- Neither task moves a call. -/
theorem caller_of_task {a : SessionAction} (ha : a.ofIncoming = true ∨ a.ofDisconnect = true)
    {b : Action} (hb : a.onClient = some b) : b.caller = none := by
  cases a with
  | feed => cases hb
  | handle => cases hb; rfl
  | link a =>
    cases a with
    | client a =>
      obtain rfl := Option.some.inj hb
      cases a <;> first | rfl | (rcases ha with ha | ha <;> cases ha)
    | recv r =>
      match r, hb with
      | .item .Disconnected, hb => cases hb; rfl
    | drained => cases hb; rfl
    | _ => cases hb

theorem waits_step {cfg : Config R} {s s' : State} {a : Action} (hs : s.step cfg a = some s')
    (ha : a.caller = none) {c : Nat} (hc : s.Waits cfg c) : s'.Waits cfg c := by
  unfold State.Waits at hc ⊢
  by_cases hreq : (cfg.calls c).isRequest = true
  · rw [if_pos hreq] at hc ⊢
    rcases unary_step hs with he | ⟨act, hact, hstep⟩
    · rwa [he]
    · have hcaller : act.caller ≠ some c := by simp [onUnary_caller hact, ha]
      rwa [(step_other hstep hcaller).1]
  · rw [if_neg hreq] at hc ⊢
    rcases batch_step hs with he | ⟨act, hact, hstep⟩
    · rwa [he]
    · have hcaller : act.caller ≠ some c := by simp [onBatch_caller hact, ha]
      rwa [(step_other hstep hcaller).1]

/-- A call that waits goes on waiting while the tasks are at work. -/
theorem SessionRun.waits {after : List SessionAction} (hr1 : (session cfg).Run Machine.always h s)
    (hr : (session cfg).Run Machine.always (h ++ after) s')
    (ha : ∀ a ∈ after, a.ofIncoming = true ∨ a.ofDisconnect = true) {c : Nat}
    (hc : s.core.Waits cfg.toConfig c) : s'.core.Waits cfg.toConfig c := by
  have hclient := SessionRun.client hr
  rw [List.filterMap_append] at hclient
  refine hclient.segment (P := fun s => s.Waits cfg.toConfig c) (SessionRun.client hr1) hc ?_
  intro p a s1 s2 hp _ hwaits hs
  obtain ⟨b, hb, hba⟩ := List.mem_filterMap.1 (hp.subset (by simp : a ∈ p ++ [a]))
  exact waits_step hs (caller_of_task (ha b hb) hba) hwaits

/-- A call that waits while nobody has its sender can return. -/
theorem resume_enabled (hr : (session cfg).Run Machine.always h s) {c : Nat}
    (hc : s.core.Waits cfg.toConfig c) (hnone : ¬ s.core.Pending c) (hidle : s.core.idle = true)
    (hfailing : ¬ s.core.Failing c) :
    ∃ s', (session cfg).step s (.link (.client (.call c .resume))) = some s' := by
  have hclient := SessionRun.client hr
  obtain ⟨hunary, hbatch⟩ := idle_eq_true.1 hidle
  rw [State.Pending, not_or, not_exists, not_exists] at hnone
  rw [State.Failing, not_or, not_exists, not_exists] at hfailing
  unfold State.Waits at hc
  split at hc
  · rename_i hreq
    have hplaced := Run.placed (tableRun_unary hclient) (c := c) (by simp [hc, Phase.running])
    obtain ⟨t, ht⟩ := receive_enabled hplaced hc hnone.1 (by rintro (_ | _) <;> simp [hunary, hfailing])
    have ht : s.core.unary.step (CallStep.resume.act c) = some t := ht
    obtain ⟨core, hs⟩ := call_enabled_unary hreq ht
    exact session_enabled rfl hs
  · rename_i hreq
    have hplaced := Run.placed (tableRun_batch hclient) (c := c) (by simp [hc, Phase.running])
    obtain ⟨t, ht⟩ := receive_enabled hplaced hc hnone.2 (by rintro (_ | _) <;> simp [hbatch, hfailing])
    have ht : s.core.batch.step (CallStep.resume.act c) = some t := ht
    obtain ⟨core, hs⟩ := call_enabled_batch (Bool.not_eq_true _ ▸ hreq) ht
    exact session_enabled rfl hs

/-- A `disconnect_task` that is done is not in `fail_pending_requests`. -/
theorem DisconnectDone.idle (hi : InStep s) (hdone : s.DisconnectDone) : s.core.drain = .idle := by
  obtain ⟨since, pos, htask, -⟩ := hdone
  by_contra hdrain
  obtain ⟨since', pos', h⟩ := hi.draining.2 hdrain
  cases htask.symm.trans h

theorem Link.Clears.done {l : Link} (h : l.Clears) {f : Feed} (hdone : Session.DisconnectDone (l, f))
    (hidle : l.core.drain = .idle) (c : Nat) : ¬ l.core.Pending c := by
  obtain ⟨since, pos, htask, hlen⟩ := hdone
  rcases h with ⟨i, since', p, hi, -, hp, ht | ht⟩ | hdrain | hnone
  · -- it has read the event at `i`
    obtain ⟨-, rfl⟩ := DisconnectTask.reading.inj (htask.symm.trans ht)
    have hlt := (List.getElem?_eq_some_iff.1 hi).1
    have hlen : l.events.log.length ≤ pos := hlen
    omega
  · cases htask.symm.trans ht
  · rw [State.Draining, hidle] at hdrain
    exact hdrain.elim
  · exact hnone c

/-- **A lost connection keeps nobody waiting.** In every run of a session, once a `Disconnected` that
`disconnect_task` has not read is in its channel, the steps of the two tasks alone lead to a state in
which no call is pending, and each call that was waiting for its reply can return; this is so even
if `incoming_task` has panicked. -/
theorem waiters_released (hr : (session cfg).Run Machine.always h s) (hlost : s.link.Awaits) :
    ∃ after s', (∀ a ∈ after, SessionAction.ofIncoming a = true ∨ a.ofDisconnect = true) ∧
      (session cfg).Run Machine.always (h ++ after) s' ∧ (∀ c, ¬ s'.core.Pending c) ∧
      ∀ c, s.core.Waits cfg.toConfig c →
        ∃ s'', (session cfg).step s' (.link (.client (.call c .resume))) = some s'' := by
  -- first `incoming_task` sends what it holds, and then `disconnect_task` reads the event
  obtain ⟨after1, s1, hown1, hr1, hidle1, -⟩ := incoming_finishes hr
  obtain ⟨after2, s2, hown2, hr2, hdone⟩ := disconnect_finishes hr1
  have hlost1 : s1.link.Awaits := by
    refine hr1.segment (P := fun s => s.link.Awaits) hr hlost ?_
    intro p a s s' hp _ h hs
    exact h.step (hown1 a (hp.subset (by simp))) (session_cases hs)
  have hmem : ∀ {p a}, p ++ [a] <+: after2 → SessionAction.ofDisconnect a = true :=
    fun {p a} hp => hown2 a (hp.subset (by simp))
  have hidle2 : s2.core.idle = true := by
    refine hr2.segment (P := fun s => s.core.idle = true) hr1 hidle1 ?_
    intro p a s s' hp _ h hs
    exact idle_of_ofDisconnect h (hmem hp) (session_cases hs)
  have hclears : s2.link.Clears := by
    refine hr2.segment (P := fun s => s.link.Clears) hr1 (.inl hlost1) ?_
    intro p a s s' hp _ h hs
    have ha := hmem hp
    cases session_cases hs with
    | link hno hstep => exact h.step ha hstep
    | feed => cases ha
    | handle => cases ha
  have hdrain : s2.core.drain = .idle := DisconnectDone.idle (SessionRun.inStep hr2) hdone
  have hnone : ∀ c, ¬ s2.core.Pending c := hclears.done hdone hdrain
  have hown : ∀ a ∈ after1 ++ after2, SessionAction.ofIncoming a = true ∨ a.ofDisconnect = true := by
    intro a ha
    exact (List.mem_append.1 ha).imp (hown1 a) (hown2 a)
  have hhands := Run.hands (SessionRun.client hr2)
  rw [List.append_assoc] at hr2
  refine ⟨after1 ++ after2, s2, hown, hr2, hnone, fun c hc => ?_⟩
  exact resume_enabled hr2 (SessionRun.waits hr hr2 hown hc) (hnone c) hidle2 (hhands.idle hdrain c)

/-- A request is sent, and then the connection is lost. -/
def lostWhileWaiting : List SessionAction :=
  [.link .subscribe, .link .reconnect] ++ requestSent ++ [.link .lose, .link .publishDisconnected]

theorem waiters_released_lost : ∃ s, (session session2).Run Machine.always lostWhileWaiting s ∧
    ∃ after s', (∀ a ∈ after, SessionAction.ofIncoming a = true ∨ a.ofDisconnect = true) ∧
      (session session2).Run Machine.always (lostWhileWaiting ++ after) s' ∧
      ¬ s'.core.Pending 0 ∧
      ∃ s'', (session session2).step s' (.link (.client (.call 0 .resume))) = some s'' := by
  have hrun : ((session session2).exec (session session2).init lostWhileWaiting).any
      (fun s => s.link.events.log = [.Disconnected] ∧ s.link.events.capacity = 64 ∧
        s.link.task = .reading 0 0 ∧ s.core.unary.phase 0 = .waiting) = true := by decide +kernel
  obtain ⟨s, hs, hend⟩ := (Option.any_eq_true _ _).1 hrun
  obtain ⟨hlog, hcap, htask, hphase⟩ := of_decide_eq_true hend
  have hr := Machine.Run.of_exec hs
  have hlost : s.link.Awaits :=
    ⟨0, 0, 0, by rw [hlog]; rfl, by simp [Channel.oldest, hlog, hcap], Nat.le_refl _, .inl htask⟩
  obtain ⟨after, s', hown, hr', hnone, hresume⟩ := waiters_released hr hlost
  exact ⟨s, hr, after, s', hown, hr', hnone 0, hresume 0 hphase⟩

/-! ## After a reply has arrived -/

/-- `incoming_task` is going to handle the frame: it has it in its hand, or the frame is still
retained, and the task has not come to it. -/
def Feed.Awaits (f : Feed) (msg : Message) : Prop :=
  (∃ pos, f.task = .handling msg pos) ∨ ∃ j pos, f.frames.log[j]? = some msg ∧
    f.frames.oldest ≤ j ∧ pos ≤ j ∧ (f.task = .reading pos ∨ ∃ msg', f.task = .handling msg' pos)

/-- What `incoming_task` does brings it to the frame, or to its end. -/
theorem Feed.Awaits.step {a : SessionAction} {msg : Message} (h : s.feed.Awaits msg)
    (ha : a.ofIncoming = true) (hne : a ≠ .handle msg) (hs : SessionStep cfg s a s') :
    s'.feed.Awaits msg ∨ s'.feed.task = .panicked := by
  cases hs with
  | link => exact .inl h
  | @handle l f core msg' pos htask hcore =>
    rcases h with ⟨pos', ht⟩ | ⟨j, pos', hj, hold, hle, ht | ⟨msg'', ht⟩⟩
    · cases htask.symm.trans ht
      exact absurd rfl hne
    · cases htask.symm.trans ht
    · cases htask.symm.trans ht
      refine (Feed.handle_task cfg.feed f msg' pos).imp_left fun ht' => .inr ⟨j, pos, ?_⟩
      change (f.handle cfg.feed msg' pos).frames.log[j]? = some msg ∧
        (f.handle cfg.feed msg' pos).frames.oldest ≤ j ∧ _
      rw [Feed.handle_frames]
      exact ⟨hj, hold, hle, .inl ht'⟩
  | @feed l f f' a hno hidle hs =>
    cases hs with
    | start htask =>
      rcases h with ⟨pos', ht⟩ | ⟨j, pos', hj, hold, hle, ht | ⟨msg'', ht⟩⟩ <;>
        cases htask.symm.trans ht
    | @item pos pos' msg' htask hrecv =>
      rcases h with ⟨p, ht⟩ | ⟨j, p, hj, hold, hle, ht | ⟨msg'', ht⟩⟩
      · cases htask.symm.trans ht
      · cases htask.symm.trans ht
        obtain ⟨-, hlog, rfl⟩ := Channel.recv_item hrecv
        by_cases hlt : pos < j
        · exact .inl (.inr ⟨j, pos + 1, hj, hold, hlt, .inr ⟨msg', rfl⟩⟩)
        · obtain rfl : pos = j := by omega
          obtain rfl := Option.some.inj (hlog.symm.trans hj)
          exact .inl (.inl ⟨pos + 1, rfl⟩)
      · cases htask.symm.trans ht
    | @lagged pos pos' n htask hrecv =>
      rcases h with ⟨p, ht⟩ | ⟨j, p, hj, hold, hle, ht | ⟨msg'', ht⟩⟩
      · cases htask.symm.trans ht
      · rcases Channel.recv_cases hrecv with ⟨_, heq, -⟩ | ⟨_, -, -, -, rfl⟩
        · cases heq
        · exact .inl (.inr ⟨j, f.frames.oldest, hj, hold, hold, .inl rfl⟩)
      · cases htask.symm.trans ht
    | handled => exact absurd rfl hno
    | receive => cases ha
    | subscribe => cases ha
    | poll => cases ha

section
variable {cfg : Config R} {h : List Action} {s : State} {c : Nat} {ag : Agent}

/-- The senders that were taken are from the call's own map, as those that are pending. -/
theorem isRequest_of_hand (hr : (client cfg).Run Machine.always h s) {v : Option Reply}
    (hx : s.unary.hand ag = some (c, v)) : (cfg.calls c).isRequest = true := by
  obtain ⟨id, t1, t2, hhist, t, hrt, hk⟩ :=
    (Oneshot.Run.provenanceInv (tableRun_unary hr)).held ag c v hx
  have hmapped := (Oneshot.Run.provenanceInv hrt).mapped id c hk
  have hmem : Act.register c ∈ h.filterMap (Action.onUnary cfg) := by
    rw [hhist]
    exact List.mem_append_left _ (hmapped.subset (by simp))
  obtain ⟨a, -, ha⟩ := List.mem_filterMap.1 hmem
  exact (onUnary_call .insert ha).2

theorem isBatch_of_hand (hr : (client cfg).Run Machine.always h s) {v : Option (Result BatchResult)}
    (hx : s.batch.hand ag = some (c, v)) : (cfg.calls c).isRequest = false := by
  obtain ⟨key, t1, t2, hhist, t, hrt, hk⟩ :=
    (Oneshot.Run.provenanceInv (tableRun_batch hr)).held ag c v hx
  have hmapped := (Oneshot.Run.provenanceInv hrt).mapped key c hk
  have hmem : Act.register c ∈ h.filterMap (Action.onBatch cfg) := by
    rw [hhist]
    exact List.mem_append_left _ (hmapped.subset (by simp))
  obtain ⟨a, -, ha⟩ := List.mem_filterMap.1 hmem
  exact (onBatch_call .insert ha).2

/-- A call whose sender is in a map is not being failed. -/
theorem not_failing_of_pending (hr : (client cfg).Run Machine.always h s) (hc : s.Pending c) :
    ¬ s.Failing c := by
  rintro (⟨v, hv⟩ | ⟨v, hv⟩) <;> rcases hc with ⟨id, hk⟩ | ⟨key, hk⟩
  · exact (Run.safe_unary hr).gone _ _ _ hv id hk
  · have hreq := isRequest_of_hand hr hv
    rw [isBatch_of_pending hr hk] at hreq
    cases hreq
  · have hreq := isBatch_of_hand hr hv
    rw [isRequest_of_pending hr hk] at hreq
    cases hreq
  · exact (Run.safe_batch hr).gone _ _ _ hv key hk

end

/-- `incoming_task` fails nobody. -/
theorem failing_of_ofIncoming {a : SessionAction} (ha : a.ofIncoming = true)
    (hs : SessionStep cfg s a s') {c : Nat} (hc : s'.core.Failing c) : s.core.Failing c := by
  rcases hs.client with ⟨b, hb, hstep⟩ | ⟨-, hcore⟩
  · have hnot : (∀ act, b ≠ .drainUnary act) ∧ ∀ act, b ≠ .drainBatch act := by
      constructor <;> rintro act rfl <;>
        rcases eq_of_onClient hb rfl with rfl | ⟨msg, -, heq⟩
      · cases ha
      · cases heq
      · cases ha
      · cases heq
    rcases hc with ⟨v, hv⟩ | ⟨v, hv⟩
    · rcases hand_unary_step hstep hv with hv | ⟨id, hid, -⟩
      · exact .inl ⟨v, hv⟩
      · exact absurd hid (hnot.1 _)
    · rcases hand_batch_step hstep hv with hv | ⟨key, hkey, -⟩
      · exact .inr ⟨v, hv⟩
      · exact absurd hkey (hnot.2 _)
  · exact hcore ▸ hc

/-- Handling the frame takes the sender of the call it is for. -/
theorem not_pending_of_handle {msg : Message} {c : Nat}
    (hres : Resolves cfg.toConfig (h.filterMap SessionAction.onClient) msg c)
    (hr : (session cfg).Run Machine.always (h ++ [.handle msg]) s) : ¬ s.core.Pending c := by
  have hclient := SessionRun.client hr
  rw [List.filterMap_append] at hclient
  obtain ⟨hunary, hbatch⟩ := hres.gone hclient
  rintro (⟨id, hk⟩ | ⟨key, hk⟩)
  · exact hunary id hk
  · exact hbatch key hk

/-- **A reply that has arrived gets to its call.** In every run of a session, once a frame that
carries the key of a pending call is in the channel of `incoming_task`, the task's own steps lead to
a state in which the call, if it was waiting, can return; or the task panics before it gets there, in
a build with overflow checks, and the call is still pending. -/
theorem reply_releases {msg : Message} {c : Nat} (hr : (session cfg).Run Machine.always h s)
    (hframe : s.feed.Awaits msg)
    (hres : Resolves cfg.toConfig (h.filterMap SessionAction.onClient) msg c)
    (hc : s.core.Waits cfg.toConfig c) :
    ∃ after s', (∀ a ∈ after, SessionAction.ofIncoming a = true) ∧
      (session cfg).Run Machine.always (h ++ after) s' ∧
      (cfg.profile = .checked ∧ s'.feed.task = .panicked ∧ s'.core.Pending c ∨
        ∃ s'', (session cfg).step s' (.link (.client (.call c .resume))) = some s'') := by
  obtain ⟨after, s', hown, hr', hidle, hdone⟩ := incoming_finishes hr
  refine ⟨after, s', hown, hr', ?_⟩
  have hpending := hres.pending (SessionRun.client hr)
  have hmem : ∀ {p a}, p ++ [a] <+: after → SessionAction.ofIncoming a = true :=
    fun {p a} hp => hown a (hp.subset (by simp))
  -- until the frame is handled, the task has it before it
  have hreleased : ¬ s'.core.Pending c ∨ s'.feed.task = .panicked ∨ s'.feed.Awaits msg := by
    refine hr'.segment (P := fun s => ¬ s.core.Pending c ∨ s.feed.task = .panicked ∨
      s.feed.Awaits msg) hr (.inr (.inr hframe)) ?_
    intro p a s1 s2 hp hr1 hreleased hs
    have ha := hmem hp
    have hstep := session_cases hs
    by_cases hc2 : s2.core.Pending c
    · refine .inr ?_
      have hc1 : s1.core.Pending c := by
        refine (hstep.pending hc2).resolve_right ?_
        rintro ⟨hinsert, -⟩
        rcases eq_of_onClient hinsert rfl with rfl | ⟨msg', -, heq⟩
        · cases ha
        · cases heq
      have hlater : Resolves cfg.toConfig ((h ++ p).filterMap SessionAction.onClient) msg c := by
        have hclient := SessionRun.client hr1
        rw [List.filterMap_append] at hclient ⊢
        exact hres.later hclient hc1
      have hne : a ≠ .handle msg := by
        rintro rfl
        exact not_pending_of_handle hlater (hr1.snoc trivial hs) hc2
      rcases hreleased with hno | hpanic | hawait
      · exact absurd hc1 hno
      · exact .inl (SessionRun.panicked hr1 hpanic (hr1.snoc trivial hs))
      · exact (hawait.step ha hne hstep).symm
    · exact .inl hc2
  have hfailing : ¬ s'.core.Failing c := by
    refine hr'.segment (P := fun s => ¬ s.core.Failing c) hr ?_ ?_
    · exact not_failing_of_pending (SessionRun.client hr) hpending
    · exact fun p a s1 s2 hp _ hno hs => mt (failing_of_ofIncoming (hmem hp) (session_cases hs)) hno
  by_cases hc' : s'.core.Pending c
  · -- it has not come to the frame, so it did not get to the end of its channel
    rcases hdone with ⟨hprofile, hpanic⟩ | ⟨pos, htask, hlen⟩
    · exact .inl ⟨hprofile, hpanic, hc'⟩
    rcases hreleased with hno | hpanic | ⟨pos', ht⟩ | ⟨j, pos', hj, -, hle, ht | ⟨msg', ht⟩⟩
    · exact absurd hc' hno
    · cases htask.symm.trans hpanic
    · cases htask.symm.trans ht
    · obtain rfl := IncomingTask.reading.inj (htask.symm.trans ht)
      have hlt := (List.getElem?_eq_some_iff.1 hj).1
      omega
    · cases htask.symm.trans ht
  · have hwaits := SessionRun.waits hr hr' (fun a ha => .inl (hown a ha)) hc
    exact .inr (resume_enabled hr' hwaits hc' hidle hfailing)

/-- The reply to a request comes. -/
def replyArrived : List SessionAction := requestSent ++ [.feed (.receive replySeven)]

theorem reply_releases_seven : ∃ s, (session session2).Run Machine.always replyArrived s ∧
    ∃ after s', (∀ a ∈ after, SessionAction.ofIncoming a = true) ∧
      (session session2).Run Machine.always (replyArrived ++ after) s' ∧
      (session2.profile = .checked ∧ s'.feed.task = .panicked ∧ s'.core.Pending 0 ∨
        ∃ s'', (session session2).step s' (.link (.client (.call 0 .resume))) = some s'') := by
  have hrun : ((session session2).exec (session session2).init replyArrived).any (fun s =>
      s.feed.task = .reading 0 ∧ s.feed.frames.log = [replySeven] ∧ s.feed.frames.capacity = 2 ∧
        s.core.unary.phase 0 = .waiting ∧ s.core.unary.pending.lookup ⟨0⟩ = some 0) = true := by
    decide +kernel
  obtain ⟨s, hs, hend⟩ := (Option.any_eq_true _ _).1 hrun
  obtain ⟨htask, hlog, hcap, hphase, hpend⟩ := of_decide_eq_true hend
  have hr := Machine.Run.of_exec hs
  have hframe : s.feed.Awaits replySeven := by
    refine .inr ⟨0, 0, by rw [hlog]; rfl, ?_, Nat.le_refl _, .inl htask⟩
    simp [Channel.oldest, hlog, hcap]
  have hroute : routeMessage twoCalls.profile twoCalls.serde replySeven =
      .unary ⟨0⟩ (.ok (replySeven, ⟨33, 34⟩)) := by decide +kernel
  have hres : Resolves twoCalls _ replySeven 0 :=
    Resolves.unary (SessionRun.client hr) hroute hpend
  exact ⟨s, hr, reply_releases hr hframe hres hphase⟩

end JsonRpc.Ws
