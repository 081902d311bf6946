import JsonRpcClient.Concurrent.Broadcast
import JsonRpcClient.Ws.Correlation

/-!
# `disconnect_task` and the connections (handles.rs:218-282)

The client's machine, with the transport and `disconnect_task` around it. The transport loses its
connection, publishes `Disconnected` on its event channel some time after that, and connects again,
without waiting for anybody; it publishes other events when it likes. The task reads the channel and
drains both maps at each `Disconnected`; at `Lagged` it does nothing but log.

`Mark`s record when a call registered and when its message was sent: after how many events, after
how many lost connections, and whether a connection was up.

| here | there |
| --- | --- |
| `subscribe` | `client.subscribe_events()`, when the spawned task first runs |
| `recv`      | `events.recv()` and the arms of the `match`; on `Disconnected` the drain begins |
| `drained`   | the end of `fail_pending_requests` |
-/

namespace JsonRpc.Ws
open Json Arrange Oneshot Broadcast
open scoped List

variable {R : ResponseTypes}

/-- `stream_tungstenite`'s events, as far as `disconnect_task` tells them apart. -/
inductive ConnectionEvent where
  | Disconnected
  | Other
deriving DecidableEq

inductive Transport where
  | live
  /-- the connection is lost, and nobody has been told -/
  | lost
  | down
deriving DecidableEq

/-- When a step was taken. -/
structure Mark where
  events : Nat
  losses : Nat
  live : Bool
deriving DecidableEq

/-- `pos` is the receiver's position in the channel, `since` the one it began at. -/
inductive DisconnectTask where
  | spawned
  | reading (since pos : Nat)
  | draining (since pos : Nat)
deriving DecidableEq

/-- The task is done with the event at `i`: it has read it and drained the maps, or was told it lost
it. -/
def DisconnectTask.Handled : DisconnectTask → Nat → Prop
  | spawned, _ => False
  | reading since pos, i => since ≤ i ∧ i < pos
  | draining since pos, i => since ≤ i ∧ i + 1 < pos

structure Link where
  core : State
  transport : Transport
  losses : Nat
  events : Channel ConnectionEvent
  task : DisconnectTask
  registered : Nat → Option Mark
  sent : Nat → Option Mark

inductive LinkAction where
  | client (a : Action)
  | lose
  | publishDisconnected
  | publishOther
  | reconnect
  | subscribe
  | recv (r : Recv ConnectionEvent)
  | drained

/-- Steps of the client that only `disconnect_task` decides on. -/
def Action.ofTask : Action → Bool
  | .drainStart => true
  | .drainEnd => true
  | _ => false

namespace Link

def mark (l : Link) : Mark := ⟨l.events.tail, l.losses, l.transport = .live⟩

/-- The marks a step of the client leaves. -/
def registeredAfter (l : Link) : Action → Nat → Option Mark
  | .call c .insert => Function.update l.registered c (some l.mark)
  | _ => l.registered

def sentAfter (l : Link) : Action → Nat → Option Mark
  | .call c .sendOk => Function.update l.sent c (some l.mark)
  | _ => l.sent

def withCore (l : Link) (core : State) (a : Action) : Link :=
  { l with core := core, registered := l.registeredAfter a, sent := l.sentAfter a }

def step (cfg : Config R) (l : Link) : LinkAction → Option Link
  | .client a => if a.ofTask then none else (l.core.step cfg a).map fun core => l.withCore core a
  | .lose =>
    match l.transport with
    | .live => some { l with transport := .lost, losses := l.losses + 1 }
    | _ => none
  | .publishDisconnected =>
    match l.transport with
    | .lost => some { l with transport := .down, events := l.events.send .Disconnected }
    | _ => none
  | .publishOther => some { l with events := l.events.send .Other }
  | .reconnect =>
    match l.transport with
    | .down => some { l with transport := .live }
    | _ => none
  | .subscribe =>
    match l.task with
    | .spawned => some { l with task := .reading l.events.tail l.events.tail }
    | _ => none
  | .recv r =>
    match l.task with
    | .reading since pos =>
      match l.events.recv pos with
      | some (r', pos') =>
        if r' = r then
          if r = .item .Disconnected then
            (l.core.step cfg .drainStart).map fun core =>
              { l with core := core, task := .draining since pos' }
          else some { l with task := .reading since pos' }
        else none
      | none => none
    | _ => none
  | .drained =>
    match l.task with
    | .draining since pos =>
      (l.core.step cfg .drainEnd).map fun core =>
        { l with core := core, task := .reading since pos }
    | _ => none

/-- Before the first connection; `capacity` is that of the event channel. -/
def init (capacity : Nat) : Link :=
  ⟨.init, .down, 0, ⟨capacity, []⟩, .spawned, fun _ => none, fun _ => none⟩

end Link

def link (cfg : Config R) (capacity : Nat) : Machine Link LinkAction :=
  ⟨.init capacity, Link.step cfg⟩

/-- `Link.step` as a relation, one constructor for each way a step can go. -/
inductive LinkStep (cfg : Config R) : Link → LinkAction → Link → Prop
  | client {l a core} (ha : a.ofTask = false) (h : l.core.step cfg a = some core) :
      LinkStep cfg l (.client a) (l.withCore core a)
  | lose {l} (h : l.transport = .live) :
      LinkStep cfg l .lose { l with transport := .lost, losses := l.losses + 1 }
  | publishDisconnected {l} (h : l.transport = .lost) :
      LinkStep cfg l .publishDisconnected
        { l with transport := .down, events := l.events.send .Disconnected }
  | publishOther {l} : LinkStep cfg l .publishOther { l with events := l.events.send .Other }
  | reconnect {l} (h : l.transport = .down) : LinkStep cfg l .reconnect
      { l with transport := .live }
  | subscribe {l} (h : l.task = .spawned) :
      LinkStep cfg l .subscribe { l with task := .reading l.events.tail l.events.tail }
  | read {l since pos pos' core} (h : l.task = .reading since pos)
      (hr : l.events.recv pos = some (.item .Disconnected, pos'))
        (hs : l.core.step cfg .drainStart = some core) :
      LinkStep cfg l (.recv (.item .Disconnected))
        { l with core := core, task := .draining since pos' }
  | skip {l since pos pos' r} (h : l.task = .reading since pos)
      (hr : l.events.recv pos = some (r, pos'))
      (hne : r ≠ .item .Disconnected) : LinkStep cfg l (.recv r)
        { l with task := .reading since pos' }
  | drained {l since pos core} (h : l.task = .draining since pos)
      (hs : l.core.step cfg .drainEnd = some core) :
      LinkStep cfg l .drained { l with core := core, task := .reading since pos }

variable {cfg : Config R} {capacity : Nat}

theorem link_cases {l l' : Link} {a : LinkAction} (h : l.step cfg a = some l') :
    LinkStep cfg l a l' := by
  cases a with
  | client a =>
    simp only [Link.step] at h
    split at h
    · cases h
    · rename_i ha
      obtain ⟨core, hcore, rfl⟩ := Option.map_eq_some_iff.1 h
      exact .client (Bool.not_eq_true _ ▸ ha) hcore
  | lose => simp only [Link.step] at h; split at h <;> cases h; exact .lose ‹_›
  | publishDisconnected =>
    simp only [Link.step] at h; split at h <;> cases h; exact .publishDisconnected ‹_›
  | publishOther => cases h; exact .publishOther
  | reconnect => simp only [Link.step] at h; split at h <;> cases h; exact .reconnect ‹_›
  | subscribe => simp only [Link.step] at h; split at h <;> cases h; exact .subscribe ‹_›
  | recv r =>
    simp only [Link.step] at h
    split at h
    · rename_i since pos htask
      split at h
      · rename_i r' pos' hrecv
        split at h
        · rename_i hr
          subst hr
          split at h
          · rename_i hd
            subst hd
            obtain ⟨core, hcore, rfl⟩ := Option.map_eq_some_iff.1 h
            exact .read htask hrecv hcore
          · rename_i hd
            cases h
            exact .skip htask hrecv hd
        · cases h
      · cases h
    · cases h
  | drained =>
    simp only [Link.step] at h
    split at h
    · rename_i since pos htask
      obtain ⟨core, hcore, rfl⟩ := Option.map_eq_some_iff.1 h
      exact .drained htask hcore
    · cases h

theorem registeredAfter_cases {l : Link} {a : Action} {c : Nat} {m : Mark}
    (h : l.registeredAfter a c = some m) :
    (a = .call c .insert ∧ m = l.mark) ∨ (a ≠ .call c .insert ∧ l.registered c = some m) := by
  unfold Link.registeredAfter at h
  split at h
  · rename_i c'
    by_cases he : c = c'
    · subst he
      rw [Function.update_self] at h
      exact .inl ⟨rfl, (Option.some.inj h).symm⟩
    · rw [Function.update_of_ne he] at h
      exact .inr ⟨by simpa using Ne.symm he, h⟩
  · rename_i hno
    exact .inr ⟨fun he => hno c he, h⟩

theorem registeredAfter_of_ne {l : Link} {a : Action} {c : Nat} (h : a ≠ .call c .insert) :
    l.registeredAfter a c = l.registered c := by
  unfold Link.registeredAfter
  split
  · rename_i c'
    exact Function.update_of_ne (fun he => h (by rw [he])) ..
  · rfl

theorem sentAfter_cases {l : Link} {a : Action} {c : Nat} {m : Mark}
    (h : l.sentAfter a c = some m) :
    (a = .call c .sendOk ∧ m = l.mark) ∨ l.sent c = some m := by
  unfold Link.sentAfter at h
  split at h
  · rename_i c'
    by_cases he : c = c'
    · subst he
      rw [Function.update_self] at h
      exact .inl ⟨rfl, (Option.some.inj h).symm⟩
    · rw [Function.update_of_ne he] at h
      exact .inr h
  · exact .inr h

/-! ## The client inside -/

/-- The client's part in a step. -/
def LinkAction.onClient : LinkAction → Option Action
  | .client a => some a
  | .recv (.item .Disconnected) => some .drainStart
  | .drained => some .drainEnd
  | _ => none

theorem LinkRun.client {ok : Link → LinkAction → Prop} {h : List LinkAction} {l : Link}
    (hr : (link cfg capacity).Run ok h l) :
    (Ws.client cfg).Run Machine.always (h.filterMap LinkAction.onClient) l.core := by
  refine hr.project Link.core LinkAction.onClient rfl ?_
  intro l a l' hok hs
  have hstep := link_cases hs
  clear hs hok
  cases hstep with
  | client ha h => exact ⟨trivial, h⟩
  | read h hr hs => exact ⟨trivial, hs⟩
  | drained h hs => exact ⟨trivial, hs⟩
  | skip h hr hne =>
    rename_i since pos pos' r
    match r, hne with
    | .item .Disconnected, hne => exact absurd rfl hne
    | .item .Other, _ => rfl
    | .lagged n, _ => rfl
  | _ => rfl

/-- A sender gets into a map by its call's `insert` alone. -/
theorem pending_unary_step {s s' : State} {a : Action} (hs : s.step cfg a = some s')
    {id : RequestId} {c : Nat}
    (hk : s'.unary.pending.lookup id = some c) : s.unary.pending.lookup id = some c ∨
    a = .call c .insert := by
  rcases unary_step hs with he | ⟨act, hact, hstep⟩
  · exact .inl (he ▸ hk)
  · rcases step_pending hstep hk with hk | ⟨rfl, -⟩
    · exact .inl hk
    · exact .inr (eq_unaryOrigin hact rfl)

theorem pending_batch_step {s s' : State} {a : Action} (hs : s.step cfg a = some s')
    {key : RangeInclusive} {c : Nat}
    (hk : s'.batch.pending.lookup key = some c) : s.batch.pending.lookup key = some c ∨
    a = .call c .insert := by
  rcases batch_step hs with he | ⟨act, hact, hstep⟩
  · exact .inl (he ▸ hk)
  · rcases step_pending hstep hk with hk | ⟨rfl, -⟩
    · exact .inl hk
    · exact .inr (eq_batchOrigin hact rfl)

/-! ## What a drain does to the maps -/

/-- The sender of `c` is in one of the maps. -/
def State.Pending (s : State) (c : Nat) : Prop :=
  (∃ id, s.unary.pending.lookup id = some c) ∨ ∃ key, s.batch.pending.lookup key = some c

theorem pending_step {s s' : State} {a : Action} (hs : s.step cfg a = some s') {c : Nat}
    (hc : s'.Pending c) :
    s.Pending c ∨ a = .call c .insert := by
  rcases hc with ⟨id, hk⟩ | ⟨key, hk⟩
  · exact (pending_unary_step hs hk).imp_left fun h => .inl ⟨id, h⟩
  · exact (pending_batch_step hs hk).imp_left fun h => .inr ⟨key, h⟩

/-- A drain is under way, and is going to remove every pending sender whose call satisfies `P`. -/
def State.Draining (P : Nat → Prop) (s : State) : Prop :=
  match s.drain with
  | .idle => False
  | .unary d => Drain.Covers P s.unary.pending d
  | .batch d =>
    (∀ id c, P c → s.unary.pending.lookup id ≠ some c) ∧ Drain.Covers P s.batch.pending d

theorem draining_start {P : Nat → Prop} {s s' : State} (hs : s.step cfg .drainStart = some s') :
    s'.Draining P := by
  obtain ⟨-, hu, -⟩ := step_eq_some.1 hs
  have hu : s.unary = s'.unary := Option.some.inj hu
  have hd := drain_step hs
  unfold State.Draining
  generalize s'.drain = d' at hd ⊢
  cases hd with
  | start => exact hu ▸ Drain.covers_start
  | other ha => cases ha

/-- After `remove(&key)` by an agent the key is not in the map. -/
theorem take_pending {K A V : Type} [DecidableEq K] [DecidableEq A] {t t' : Table K Nat A V} {a : A}
    {k k' : K} {v : Option V} {c : Nat} (hs : t.step (.take a k v) = some t')
    (hk : t'.pending.lookup k' = some c) :
    (t.pending.erase k).lookup k' = some c := by
  cases step_cases hs with
  | take => exact hk
  | miss _ hnone =>
    have hne : k' ≠ k := by rintro rfl; rw [hnone] at hk; cases hk
    rw [AList.lookup_erase_ne hne]; exact hk

/-- A drain under way stays so, whatever happens, as long as no call of its kind registers. -/
theorem draining_step {P P' : Nat → Prop} {s s' : State} {a : Action} (hs : s.step cfg a = some s')
    (ha : a.ofTask = false) (hP : ∀ c, P' c → P c) (hnew : ∀ c, a = .call c .insert → ¬ P' c)
    (h : s.Draining P) : s'.Draining P' := by
  obtain ⟨-, hu, hb, -⟩ := step_eq_some.1 hs
  have hsubU : ∀ id c, P' c → s'.unary.pending.lookup id = some c →
      s.unary.pending.lookup id = some c :=
    fun id c hc hk => (pending_unary_step hs hk).resolve_right fun he => hnew c he hc
  have hsubB : ∀ key c, P' c → s'.batch.pending.lookup key = some c →
      s.batch.pending.lookup key = some c :=
    fun key c hc hk => (pending_batch_step hs hk).resolve_right fun he => hnew c he hc
  have hd := drain_step hs
  unfold State.Draining at h ⊢
  generalize s'.drain = d' at hd ⊢
  cases hd with
  | start => cases ha
  | done => cases ha
  | @unary d d' act hdrain _ hd =>
    simp only [hdrain] at h
    cases act with
    | remove k => exact (h.remove hd).shrink hP fun id c _ hk => take_pending hu hk
    | yield k => exact (h.step hd (by simp)).shrink hP hsubU
    | scanned => exact (h.step hd (by simp)).shrink hP hsubU
  | next hdrain _ hdone =>
    have hu : s.unary = s'.unary := Option.some.inj hu
    have hb : s.batch = s'.batch := Option.some.inj hb
    simp only [hdrain] at h
    simp only [← hu]
    exact ⟨fun id c hc => h.done hdone (hP c hc), hb ▸ Drain.covers_start⟩
  | @batch d d' act hdrain _ hd =>
    simp only [hdrain] at h
    refine ⟨fun id c hc hk => h.1 id c (hP c hc) (hsubU id c hc hk), ?_⟩
    cases act with
    | remove k => exact (h.2.remove hd).shrink hP fun key c _ hk => take_pending hb hk
    | yield k => exact (h.2.step hd (by simp)).shrink hP hsubB
    | scanned => exact (h.2.step hd (by simp)).shrink hP hsubB
  | other _ =>
    generalize s.drain = d at h ⊢
    cases d with
    | idle => exact h
    | unary d => exact h.shrink hP hsubU
    | batch d =>
      exact ⟨fun id c hc hk => h.1 id c (hP c hc) (hsubU id c hc hk), h.2.shrink hP hsubB⟩

/-- **When a drain ends, no call it was to remove is pending.** -/
theorem draining_end {P : Nat → Prop} {s s' : State} (hs : s.step cfg .drainEnd = some s')
    (h : s.Draining P) {c : Nat} (hc : P c) : ¬ s'.Pending c := by
  obtain ⟨-, hu, hb, -⟩ := step_eq_some.1 hs
  have hu : s.unary = s'.unary := Option.some.inj hu
  have hb : s.batch = s'.batch := Option.some.inj hb
  have hd := drain_step hs
  generalize s'.drain = d' at hd
  cases hd with
  | done hdrain _ hdone =>
    simp only [State.Draining, hdrain] at h
    rw [State.Pending, ← hu, ← hb]
    rintro (⟨id, hk⟩ | ⟨key, hk⟩)
    · exact h.1 id c hc hk
    · exact h.2.done hdone hc hk
  | other ha => cases ha

/-! ## No call survives a disconnect -/

/-- `c` was registered and sent before the event at `i` was published. -/
def Link.Before (l : Link) (i : Nat) (c : Nat) : Prop :=
  ∃ m m', l.registered c = some m ∧ l.sent c = some m' ∧ m.events ≤ i ∧ m'.events ≤ i

/-- No call from before a `Disconnected` event that the task is done with is still pending. -/
def NoSurvivor (l : Link) : Prop :=
  ∀ i, l.events.log[i]? = some .Disconnected → l.task.Handled i → ∀ c, l.Before i c →
    ¬ l.core.Pending c

/-- No call from before a `Disconnected` event is pending when the task is told that it lost that
event. -/
def SkipsSafely (l : Link) (a : LinkAction) : Prop :=
  ∀ n since pos, a = .recv (.lagged n) → l.task = .reading since pos → ∀ i, pos ≤ i → i < pos + n →
    l.events.log[i]? = some .Disconnected → ∀ c, l.Before i c → ¬ l.core.Pending c

/-- The task's position, and what the drain is good for that it is in. -/
structure Reading (l : Link) : Prop where
  reading : ∀ since pos, l.task = .reading since pos → since ≤ pos ∧ pos ≤ l.events.log.length
  draining : ∀ since pos, l.task = .draining since pos → since < pos ∧ pos ≤ l.events.log.length ∧
    l.core.Draining (l.Before (pos - 1))

/-- Calls do not become calls from before an event that is already there. -/
theorem before_withCore {l : Link} {core : State} {a : Action} {i c : Nat}
    (hi : i < l.events.log.length)
    (h : (l.withCore core a).Before i c) : l.Before i c ∧ a ≠ .call c .insert := by
  obtain ⟨m, m', hm, hm', hi1, hi2⟩ := h
  have hmark : l.mark.events = l.events.log.length := rfl
  rcases registeredAfter_cases hm with ⟨-, rfl⟩ | ⟨hne, hm⟩
  · omega
  rcases sentAfter_cases hm' with ⟨-, rfl⟩ | hm'
  · omega
  exact ⟨⟨m, m', hm, hm', hi1, hi2⟩, hne⟩

theorem before_of_eq {l l' : Link} {i c : Nat} (hr : l'.registered = l.registered)
    (hs : l'.sent = l.sent) (h : l'.Before i c) : l.Before i c := by
  obtain ⟨m, m', hm, hm', hi⟩ := h
  exact ⟨m, m', hr ▸ hm, hs ▸ hm', hi⟩

theorem Reading.step {l l' : Link} {a : LinkAction} (h : Reading l)
    (hs : LinkStep cfg l a l') : Reading l' := by
  cases hs with
  | client ha hcore =>
    refine ⟨h.reading, fun since pos htask => ?_⟩
    obtain ⟨hlt, hle, hdrain⟩ := h.draining since pos htask
    exact ⟨hlt, hle, draining_step hcore ha (fun c hc => (before_withCore (by omega) hc).1)
      (fun c hc hc' => (before_withCore (by omega) hc').2 hc) hdrain⟩
  | lose => exact ⟨h.reading, h.draining⟩
  | reconnect => exact ⟨h.reading, h.draining⟩
  | publishDisconnected =>
    constructor
    · intro since pos htask
      have := h.reading since pos htask; simp; omega
    · intro since pos htask
      obtain ⟨hlt, hle, hdrain⟩ := h.draining since pos htask
      exact ⟨hlt, by simp; omega, hdrain⟩
  | publishOther =>
    constructor
    · intro since pos htask
      have := h.reading since pos htask; simp; omega
    · intro since pos htask
      obtain ⟨hlt, hle, hdrain⟩ := h.draining since pos htask
      exact ⟨hlt, by simp; omega, hdrain⟩
  | subscribe =>
    refine ⟨fun since pos htask => ?_, fun since pos htask => by cases htask⟩
    cases htask
    exact ⟨Nat.le_refl _, Nat.le_refl _⟩
  | read htask hrecv hcore =>
    refine ⟨fun since pos htask => by (cases htask), fun since pos htask' => ?_⟩
    cases htask'
    have hle := h.reading _ _ htask
    have hrecv := Channel.recv_le hrecv
    exact ⟨by omega, hrecv.2, draining_start hcore⟩
  | skip htask hrecv hne =>
    refine ⟨fun since pos htask' => ?_, fun since pos htask => by cases htask⟩
    cases htask'
    have hle := h.reading _ _ htask
    have hrecv := Channel.recv_le hrecv
    exact ⟨by omega, hrecv.2⟩
  | drained htask hcore =>
    refine ⟨fun since pos htask' => ?_, fun since pos htask => by cases htask⟩
    cases htask'
    obtain ⟨hlt, hle, -⟩ := h.draining _ _ htask
    exact ⟨by omega, hle⟩

section
variable {ok : Link → LinkAction → Prop} {h : List LinkAction} {l : Link}

theorem LinkRun.reading (hr : (link cfg capacity).Run ok h l) : Reading l :=
  Machine.Run.invariant (P := fun _ l => Reading l)
    ⟨fun _ _ h => by (cases h), fun _ _ h => by cases h⟩
    (fun _ _ _ _ _ h _ hs => h.step (link_cases hs)) hr

theorem Reading.lt (h : Reading l) {i : Nat} (hi : l.task.Handled i) : i < l.events.log.length := by
  cases htask : l.task with
  | spawned => rw [htask] at hi; cases hi
  | reading since pos =>
    rw [htask] at hi
    have := h.reading since pos htask
    obtain ⟨-, hi⟩ := hi
    omega
  | draining since pos =>
    rw [htask] at hi
    obtain ⟨-, hle, -⟩ := h.draining since pos htask
    obtain ⟨-, hi⟩ := hi
    omega

/-- Publishing an event makes none handled. -/
theorem NoSurvivor.send {e : ConnectionEvent} (h : NoSurvivor l) (hread : Reading l) {l' : Link}
    (hcore : l'.core = l.core) (hevents : l'.events = l.events.send e) (htask : l'.task = l.task)
    (hreg : l'.registered = l.registered) (hsent : l'.sent = l.sent) : NoSurvivor l' := by
  intro i hi hhandled c hc
  rw [htask] at hhandled
  rw [hevents, Channel.send_log, List.getElem?_append_left (hread.lt hhandled)] at hi
  rw [hcore]
  exact h i hi hhandled c (before_of_eq hreg hsent hc)

theorem NoSurvivor.step {a : LinkAction} {l' : Link} (h : NoSurvivor l) (hread : Reading l)
    (hok : SkipsSafely l a) (hs : LinkStep cfg l a l') : NoSurvivor l' := by
  cases hs with
  | client ha hcore =>
    intro i hi hhandled c hc hpend
    obtain ⟨hbefore, hne⟩ := before_withCore (hread.lt hhandled) hc
    rcases pending_step hcore hpend with hpend | he
    · exact h i hi hhandled c hbefore hpend
    · exact hne he
  | lose => exact h
  | reconnect => exact h
  | publishDisconnected => exact h.send hread rfl rfl rfl rfl rfl
  | publishOther => exact h.send hread rfl rfl rfl rfl rfl
  | subscribe =>
    rintro i - ⟨hlo, hhi⟩
    omega
  | read htask hrecv hcore =>
    rename_i since pos pos' core
    rintro i hi ⟨hlo, hhi⟩ c hc hpend
    rcases Channel.recv_cases hrecv with ⟨a, -, -, rfl⟩ | ⟨n, hn, -⟩
    · rcases pending_step hcore hpend with hpend | he
      · exact h i hi (by rw [htask]; exact ⟨hlo, by omega⟩) c hc hpend
      · cases he
    · cases hn
  | skip htask hrecv hne =>
    rename_i since pos pos' r
    rintro i hi ⟨hlo, hhi⟩ c hc hpend
    by_cases hpos : i < pos
    · exact h i hi (by rw [htask]; exact ⟨hlo, hpos⟩) c hc hpend
    rcases Channel.recv_cases hrecv with ⟨e, rfl, he, rfl⟩ | ⟨n, rfl, -, rfl, -⟩
    · -- the event that was read is another one
      obtain rfl : i = pos := by omega
      rw [he] at hi
      cases hi
      exact hne rfl
    · exact hok n since pos rfl htask i (by omega) hhi hi c hc hpend
  | drained htask hcore =>
    rename_i since pos core
    rintro i hi ⟨hlo, hhi⟩ c hc hpend
    by_cases hpos : i + 1 < pos
    · rcases pending_step hcore hpend with hpend | he
      · exact h i hi (by rw [htask]; exact ⟨hlo, hpos⟩) c hc hpend
      · cases he
    · obtain rfl : i = pos - 1 := by omega
      exact draining_end hcore (hread.draining since pos htask).2.2 hc hpend

theorem LinkRun.noSurvivor (hr : (link cfg capacity).Run SkipsSafely h l) : NoSurvivor l := by
  refine Machine.Run.invariant (P := fun _ l => NoSurvivor l) ?_
    (fun _ _ _ _ hr h hok hs => h.step (LinkRun.reading hr) hok (link_cases hs)) hr
  rintro i - ⟨⟩

/-- Being told of a lost `Disconnected` while a call from before it is pending leaves that call
there. -/
theorem skipsSafely_of_noSurvivor {a : LinkAction} {l' : Link} (hread : Reading l)
    (hs : l.step cfg a = some l') (hno : NoSurvivor l') : SkipsSafely l a := by
  rintro n since pos rfl htask i hlo hhi hi c hc hpend
  cases link_cases hs with
  | skip htask' hrecv hne =>
    rename_i since' pos' pos''
    rw [htask] at htask'
    cases htask'
    rcases Channel.recv_cases hrecv with ⟨e, he, -⟩ | ⟨n', hn', -, rfl, -⟩
    · cases he
    · cases hn'
      have hsince := (hread.reading since pos htask).1
      exact hno i hi ⟨by omega, hhi⟩ c hc hpend

/-! ## How a call leaves the maps -/

/-- Where the sender of a registered call went that is not pending any more. -/
inductive LeftMaps (cfg : Config R) (h : List Action) (s : State) (c : Nat) : Prop
  /-- a frame answered it -/
  | answered {h1 msg h2} (heq : h = h1 ++ .handle msg :: h2) (hres : Resolves cfg h1 msg c)
  /-- its own caller removed it -/
  | removed (hmem : .call c .remove ∈ h)
  /-- `fail_pending_requests` removed it and sends it `connectionLost` -/
  | failedUnary {h1 id h2 s1} (heq : h = h1 ++ .drainUnary (.remove id) :: h2)
      (hr : (client cfg).Run Machine.always h1 s1) (hk : s1.unary.pending.lookup id = some c)
  | failedBatch {h1 key h2 s1} (heq : h = h1 ++ .drainBatch (.remove key) :: h2)
      (hr : (client cfg).Run Machine.always h1 s1) (hk : s1.batch.pending.lookup key = some c)
  /-- it was dropped, which fails the call with a `TransportError` too -/
  | closed (hc : s.unary.chan c = .closed ∨ s.batch.chan c = .closed)

theorem leftMaps_unary {h : List Action} {s : State} (hr : (client cfg).Run Machine.always h s)
    {c : Nat} (hleft : Left Machine.always (h.filterMap (Action.onUnary cfg)) s.unary c) :
    LeftMaps cfg h s c := by
  rcases hleft with ⟨a, k, v, t1, t2, hhist, hst⟩ | hun | hclosed
  · obtain ⟨h1, x, h2, rfl, hx, rfl, rfl⟩ := Machine.split_of_filterMap hhist
    obtain ⟨s1, hr1, -⟩ := Machine.Run.split hr
    have hk := hst.lookup (tableRun_unary hr1)
    rcases onUnary_take hx with ⟨msg, _, rfl, hroute, -, -⟩ | ⟨rfl, -, -⟩
    · exact .answered rfl (.unary hr1 hroute hk)
    · exact .failedUnary rfl hr1 hk
  · obtain ⟨x, hmem, hx⟩ := List.mem_filterMap.1 hun
    obtain ⟨rfl, -⟩ := onUnary_call .remove hx
    exact .removed hmem
  · exact .closed (.inl hclosed)

theorem leftMaps_batch {h : List Action} {s : State} (hr : (client cfg).Run Machine.always h s)
    {c : Nat} (hleft : Left Machine.always (h.filterMap (Action.onBatch cfg)) s.batch c) :
    LeftMaps cfg h s c := by
  rcases hleft with ⟨a, k, v, t1, t2, hhist, hst⟩ | hun | hclosed
  · obtain ⟨h1, x, h2, rfl, hx, rfl, rfl⟩ := Machine.split_of_filterMap hhist
    obtain ⟨s1, hr1, -⟩ := Machine.Run.split hr
    have hk := hst.lookup (tableRun_batch hr1)
    rcases onBatch_take hx with ⟨msg, rfl, hroute, -⟩ | ⟨rfl, -, -⟩
    · exact .answered rfl (.batch hr1 hroute hk)
    · exact .failedBatch rfl hr1 hk
  · obtain ⟨x, hmem, hx⟩ := List.mem_filterMap.1 hun
    obtain ⟨rfl, -⟩ := onBatch_call .remove hx
    exact .removed hmem
  · exact .closed (.inr hclosed)

theorem pending_or_leftMaps {h : List Action} {s : State} (hr : (client cfg).Run Machine.always h s)
    {c : Nat} (hc : .call c .insert ∈ h) : s.Pending c ∨ LeftMaps cfg h s c := by
  by_cases hreq : (cfg.calls c).isRequest = true
  · have hmem : Act.register c ∈ h.filterMap (Action.onUnary cfg) :=
      List.mem_filterMap.2 ⟨_, hc, by simp [Action.onUnary, hreq, CallStep.act]⟩
    exact (Oneshot.Run.left (tableRun_unary hr) hmem).imp .inl (leftMaps_unary hr)
  · have hmem : Act.register c ∈ h.filterMap (Action.onBatch cfg) :=
      List.mem_filterMap.2 ⟨_, hc, by simp [Action.onBatch, hreq, CallStep.act]⟩
    exact (Oneshot.Run.left (tableRun_batch hr) hmem).imp .inr (leftMaps_batch hr)

theorem LinkRun.registered (hr : (link cfg capacity).Run ok h l) :
    ∀ c m, l.registered c = some m → .call c .insert ∈ h.filterMap LinkAction.onClient := by
  refine Machine.Run.invariant
    (P := fun h l => ∀ c m, l.registered c = some m →
      .call c .insert ∈ h.filterMap LinkAction.onClient)
    (fun c m hm => by cases hm) (fun h l a l' _ ih _ hs c m hm => ?_) hr
  rw [List.filterMap_append, List.mem_append]
  have hstep := link_cases hs
  clear hs
  cases hstep with
  | client ha hcore =>
    rcases registeredAfter_cases hm with ⟨rfl, -⟩ | ⟨-, hm⟩
    · exact .inr (by simp [LinkAction.onClient])
    · exact .inl (ih c m hm)
  | _ => exact .inl (ih c m hm)

/-- **When no call survives a disconnect**: in just the runs in which no call from before a
`Disconnected` event is pending when the task is told that it lost that event. A registered call
that is not pending was answered, removed by its caller, or failed with a `TransportError`. -/
theorem no_survivor_iff (hr : (link cfg capacity).Run Machine.always h l) :
    ((link cfg capacity).Run SkipsSafely h l ↔
      ∀ h1 h2 l1, h = h1 ++ h2 → (link cfg capacity).Run Machine.always h1 l1 → NoSurvivor l1) ∧
    ∀ c m, l.registered c = some m → ¬ l.core.Pending c →
      LeftMaps cfg (h.filterMap LinkAction.onClient) l.core c := by
  refine ⟨⟨?_, fun hno => ?_⟩, fun c m hm hpend => ?_⟩
  · rintro hsafe h1 h2 l1 rfl hr1
    obtain ⟨l1', hr1', -⟩ := hsafe.split
    obtain rfl := hr1.unique hr1'
    exact LinkRun.noSurvivor hr1'
  · induction hr with
    | nil => exact .nil
    | snoc hr _ hs ih =>
      refine .snoc (ih fun h1 h2 l1 heq => ?_) ?_ hs
      · exact hno h1 (h2 ++ [_]) l1 (by rw [heq, List.append_assoc])
      · exact skipsSafely_of_noSurvivor (LinkRun.reading hr) hs
          (hno _ [] _ (by simp) (hr.snoc trivial hs))
  · have hleft := pending_or_leftMaps (LinkRun.client hr) (LinkRun.registered hr c m hm)
    exact hleft.resolve_left hpend

end

/-- A request sent on the first connection, which is then lost. -/
def lostRequest : List LinkAction :=
  [.subscribe, .reconnect, .client (.reserveId 0 ⟨0⟩), .client (.call 0 .insert),
    .client (.call 0 .sendOk), .lose,
    .publishDisconnected]

/-- The task reads `Disconnected`, and fails it. -/
def lostRequestFails : List LinkAction :=
  lostRequest ++ [.recv (.item .Disconnected), .client (.drainUnary (.yield ⟨0⟩)),
    .client (.drainUnary .scanned),
    .client (.drainUnary (.remove ⟨0⟩)), .client .failUnary, .client .drainNext,
      .client (.drainBatch .scanned), .drained]

theorem no_survivor_iff_lost : ∃ l, (link twoCalls 64).Run SkipsSafely lostRequestFails l ∧
    l.Before 0 0 ∧ l.task.Handled 0 ∧ NoSurvivor l := by
  have hrun : ((link twoCalls 64).exec (.init 64) lostRequestFails).any (fun l =>
      l.registered 0 = some ⟨0, 0, true⟩ ∧ l.sent 0 = some ⟨0, 0, true⟩ ∧
        l.task = .reading 0 1) = true := by
    decide +kernel
  obtain ⟨l, hl, hend⟩ := (Option.any_eq_true _ _).1 hrun
  obtain ⟨hreg, hsent, htask⟩ := of_decide_eq_true hend
  have hr := Machine.Run.of_exec hl
  have hsafe : (link twoCalls 64).Run SkipsSafely lostRequestFails l :=
    hr.restrict (by simp [lostRequestFails, lostRequest, SkipsSafely])
  exact ⟨l, hsafe, ⟨_, _, hreg, hsent, Nat.le_refl _, Nat.le_refl _⟩,
    htask ▸ ⟨Nat.le_refl _, Nat.one_pos⟩,
    (no_survivor_iff hr).1.1 hsafe _ [] l (by simp) hr⟩

/-- The task is slow: the channel overwrites `Disconnected` before it is read. -/
def lostRequestSkipped : List LinkAction :=
  lostRequest ++ List.replicate 64 .publishOther ++ [.recv (.lagged 1)]

/-- **The task has been told that it lost the event, and the request is still pending.** -/
theorem lagged_call_survives : ∃ l, (link twoCalls 64).Run Machine.always lostRequestSkipped l ∧
    l.events.log[0]? = some .Disconnected ∧ l.Before 0 0 ∧ l.task.Handled 0 ∧
    l.core.unary.pending.lookup ⟨0⟩ = some 0 ∧ l.core.unary.phase 0 = .waiting ∧
    ¬ NoSurvivor l := by
  have hrun : ((link twoCalls 64).exec (.init 64) lostRequestSkipped).any (fun l =>
      l.registered 0 = some ⟨0, 0, true⟩ ∧ l.sent 0 = some ⟨0, 0, true⟩ ∧ l.task = .reading 0 1 ∧
      l.events.log[0]? = some .Disconnected ∧ l.core.unary.pending.lookup ⟨0⟩ = some 0 ∧
      l.core.unary.phase 0 = .waiting) = true := by decide +kernel
  obtain ⟨l, hl, hend⟩ := (Option.any_eq_true _ _).1 hrun
  obtain ⟨hreg, hsent, htask, hevent, hpend, hphase⟩ := of_decide_eq_true hend
  have hbefore : l.Before 0 0 := ⟨_, _, hreg, hsent, Nat.le_refl _, Nat.le_refl _⟩
  have hhandled : l.task.Handled 0 := htask ▸ ⟨Nat.le_refl _, Nat.one_pos⟩
  exact ⟨l, Machine.Run.of_exec hl, hevent, hbefore, hhandled, hpend, hphase,
    fun hno => hno 0 hevent hhandled 0 hbefore (.inl ⟨_, hpend⟩)⟩

end JsonRpc.Ws
