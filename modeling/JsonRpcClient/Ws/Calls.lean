import JsonRpcClient.Concurrent.Drain
import JsonRpcClient.Core.Reservations
import JsonRpcClient.Ws.Agreement

/-!
# One connected `WsClient` as a machine (client.rs, handles.rs)

Callers, `incoming_task` and `fail_pending_requests` work on the id counter and the two maps. A step
is one access to something shared; what happens between two of them is the caller's or the task's
own.

| step | there |
| --- | --- |
| `reserveId`, `build` | client.rs:241-244, 305-312: the ids, and the message that is made of them |
| `call c insert` … `call c drop` | client.rs:247-264, 323-337, and cancellation at the two `await`s |
| `handle`, `reply`, `batchReply` | `handle_message`: decode and remove, then send (handles.rs:84-169) |
| `drainStart` … `drainEnd` | `fail_pending_requests` (handles.rs:222): iterate, then remove and send |

Frames are arbitrary, and here a drain may begin at any time; `Disconnect.lean` says when it does.
What a step does to each map is a function of its label alone (`onUnary`, `onBatch`), so a run of
the client is a run of each of its `Oneshot` tables (`Run.unary`, `Run.batch`), and the results
about those apply.
-/

namespace JsonRpc.Ws
open Json Arrange Oneshot
open scoped List

/-- `DEFAULT_REQUEST_TIMEOUT` (client.rs:23), in nanoseconds. -/
def DEFAULT_REQUEST_TIMEOUT : Duration := 30000000000

/-- The arguments of a call. -/
inductive CallSpec (R : ResponseTypes) where
  | request (T : R.TypeId) (method : String) (params : Option Serialized)
      (timeout : Option Duration)
  | batch (builder : List (BatchBuilder.Call R)) (timeout : Option Duration)

def CallSpec.isRequest {R : ResponseTypes} : CallSpec R → Bool
  | request .. => true
  | batch .. => false

/-- What a run does not change: the build, the client's own timeout, and every call that is ever
made. -/
structure Config (R : ResponseTypes) where
  profile : Profile
  serde : SerdeJson
  request_timeout : Option Duration
  calls : Nat → CallSpec R

/-- The tasks that take senders out of the maps. -/
inductive Agent where
  | incoming
  | disconnect
deriving DecidableEq

/-- What a unary call waits for: a message, and where in it the result is. -/
abbrev Reply := Result (Message × ByteRange)

inductive DrainStage where
  | idle
  | unary (d : Drain RequestId Nat)
  | batch (d : Drain RangeInclusive Nat)

structure State where
  idmgr : RequestIdManager
  unary : Table RequestId Nat Agent Reply
  batch : Table RangeInclusive Nat Agent (Result BatchResult)
  /-- `incoming_task` has not panicked -/
  alive : Bool
  drain : DrainStage

/-- What a caller does once it has its key. -/
inductive CallStep where
  | insert | sendOk | sendErr | expire | remove | resume | drop
deriving DecidableEq

def CallStep.act {K A V : Type} (c : Nat) : CallStep → Act K Nat A V
  | .insert => .register c
  | .sendOk => .sendOk c
  | .sendErr => .sendErr c
  | .expire => .expire c
  | .remove => .unregister c
  | .resume => .receive c
  | .drop => .drop c

inductive Action where
  | reserveId (c : Nat) (id : RequestId)
  /-- `key` is the range that is going to be inserted, if the call gets that far -/
  | build (c : Nat) (key : Option RangeInclusive)
  | call (c : Nat) (step : CallStep)
  | handle (msg : Message)
  | reply
  | batchReply
  | drainStart
  | drainUnary (act : DrainAct RequestId)
  | failUnary
  | drainNext
  | drainBatch (act : DrainAct RangeInclusive)
  | failBatch
  | drainEnd

variable {R : ResponseTypes}

/-- The error `fail_pending_requests` sends; its text goes on with the reason. -/
def connectionLost : Error := .TransportError "connection lost before a response was received"

namespace Action

/-- The id counter after a step; `none` where the label does not fit. -/
def onIds (cfg : Config R) (idmgr : RequestIdManager) : Action → Option RequestIdManager
  | .reserveId c id =>
    if (cfg.calls c).isRequest ∧ idmgr.reserveId.1 = id then some idmgr.reserveId.2 else none
  | .build c key =>
    match cfg.calls c with
    | .batch calls _ =>
      if buildKey ((BatchBuilder.ofCalls calls).build cfg.profile idmgr).1 = key then
        some ((BatchBuilder.ofCalls calls).build cfg.profile idmgr).2
      else none
    | .request .. => none
  | _ => some idmgr

/-- What a step does to `pending_requests` and its callers. -/
def onUnary (cfg : Config R) : Action → Option (Act RequestId Nat Agent Reply)
  | .reserveId c id =>
    match cfg.calls c with
    | .request _ method params _ =>
      -- a request that cannot be serialized returns here
      if (JsonRpcRequest.tryNew id method params []).1.toBool then some (.prepare c id)
        else some (.abort c)
    | .batch .. => none
  | .call c step => if (cfg.calls c).isRequest then some (step.act c) else none
  | .handle msg =>
    match routeMessage cfg.profile cfg.serde msg with
    | .unary id value => some (.take .incoming id (some value))
    | _ => none
  | .reply => some (.finish .incoming)
  | .drainUnary (.remove id) => some (.take .disconnect id (some (.error connectionLost)))
  | .failUnary => some (.finish .disconnect)
  | _ => none

/-- What a step does to `pending_batch_requests` and its callers. -/
def onBatch (cfg : Config R) : Action → Option (Act RangeInclusive Nat Agent (Result BatchResult))
  | .build c key =>
    match key with
    | some key => some (.prepare c key)
    | none => some (.abort c)
  | .call c step => if (cfg.calls c).isRequest then none else some (step.act c)
  | .handle msg =>
    match routeMessage cfg.profile cfg.serde msg with
    | .batch key value => some (.take .incoming key value)
    | _ => none
  | .batchReply => some (.finish .incoming)
  | .drainBatch (.remove key) => some (.take .disconnect key (some (.error connectionLost)))
  | .failBatch => some (.finish .disconnect)
  | _ => none

/-- Whether `incoming_task` lives after a step. It handles one message after the other, and ends
with a panic. -/
def onIncoming (cfg : Config R) (s : State) : Action → Option Bool
  | .handle msg =>
    match s.alive, s.unary.hand .incoming, s.batch.hand .incoming with
    | true, none, none => some (routeMessage cfg.profile cfg.serde msg ≠ .panic)
    | _, _, _ => none
  | .batchReply =>
    match s.batch.hand .incoming with
    | some (_, none) => some false
    | _ => some s.alive
  | _ => some s.alive

/-- How far `fail_pending_requests` is after a step. It answers each sender before it removes the
next. -/
def onDrain (s : State) : Action → Option DrainStage
  | .drainStart =>
    match s.drain with
    | .idle => some (.unary (Drain.start s.unary.pending))
    | _ => none
  | .drainUnary act =>
    match s.drain, s.unary.hand .disconnect with
    | .unary d, none => (d.step s.unary.pending act).map .unary
    | _, _ => none
  | .drainNext =>
    match s.drain, s.unary.hand .disconnect with
    | .unary d, none => if d.done then some (.batch (Drain.start s.batch.pending)) else none
    | _, _ => none
  | .drainBatch act =>
    match s.drain, s.batch.hand .disconnect with
    | .batch d, none => (d.step s.batch.pending act).map .batch
    | _, _ => none
  | .drainEnd =>
    match s.drain, s.batch.hand .disconnect with
    | .batch d, none => if d.done then some .idle else none
    | _, _ => none
  | _ => some s.drain

end Action

/-- A table's part in a step, if it has one. -/
def tableStep {K A V : Type} [DecidableEq K] [DecidableEq A] (t : Table K Nat A V) :
    Option (Act K Nat A V) → Option (Table K Nat A V)
  | some act => t.step act
  | none => some t

def State.step (cfg : Config R) (s : State) (a : Action) : Option State := do
  let idmgr ← a.onIds cfg s.idmgr
  let unary ← tableStep s.unary (a.onUnary cfg)
  let batch ← tableStep s.batch (a.onBatch cfg)
  let alive ← a.onIncoming cfg s
  let drain ← a.onDrain s
  return ⟨idmgr, unary, batch, alive, drain⟩

/-- A client that has just been connected. -/
def State.init : State := ⟨.new, .init, .init, true, .idle⟩

def client (cfg : Config R) : Machine State Action := ⟨.init, State.step cfg⟩

theorem step_eq_some {cfg : Config R} {s s' : State} {a : Action} :
    s.step cfg a = some s' ↔ a.onIds cfg s.idmgr = some s'.idmgr ∧
      tableStep s.unary (a.onUnary cfg) = some s'.unary ∧
        tableStep s.batch (a.onBatch cfg) = some s'.batch ∧
      a.onIncoming cfg s = some s'.alive ∧ a.onDrain s = some s'.drain := by
  simp only [State.step, Option.bind_eq_bind, Option.bind_eq_some_iff]
  constructor
  · rintro ⟨i, hi, u, hu, b, hb, al, hal, d, hd, h⟩
    cases h
    exact ⟨hi, hu, hb, hal, hd⟩
  · rintro ⟨hi, hu, hb, hal, hd⟩
    exact ⟨_, hi, _, hu, _, hb, _, hal, _, hd, rfl⟩

/-- A call that is built is a batch. -/
theorem batch_of_build {cfg : Config R} {s s' : State} {c : Nat} {key : Option RangeInclusive}
    (hs : s.step cfg (.build c key) = some s') :
    ∃ calls timeout, cfg.calls c = .batch calls timeout ∧
      buildKey ((BatchBuilder.ofCalls calls).build cfg.profile s.idmgr).1 = key := by
  obtain ⟨hids, -⟩ := step_eq_some.1 hs
  simp only [Action.onIds] at hids
  split at hids
  · split at hids
    · exact ⟨_, _, ‹_›, ‹_›⟩
    · cases hids
  · cases hids

/-- The part of a step in the map of requests. -/
theorem unary_step {cfg : Config R} {s s' : State} {a : Action} (hs : s.step cfg a = some s') :
    s'.unary = s.unary ∨ ∃ act, a.onUnary cfg = some act ∧ Step s.unary act s'.unary := by
  obtain ⟨-, hu, -⟩ := step_eq_some.1 hs
  cases hact : a.onUnary cfg with
  | none =>
    rw [hact] at hu
    exact .inl (Option.some.inj hu).symm
  | some act =>
    rw [hact] at hu
    exact .inr ⟨act, rfl, step_cases hu⟩

theorem batch_step {cfg : Config R} {s s' : State} {a : Action} (hs : s.step cfg a = some s') :
    s'.batch = s.batch ∨ ∃ act, a.onBatch cfg = some act ∧ Step s.batch act s'.batch := by
  obtain ⟨-, -, hb, -⟩ := step_eq_some.1 hs
  cases hact : a.onBatch cfg with
  | none =>
    rw [hact] at hb
    exact .inl (Option.some.inj hb).symm
  | some act =>
    rw [hact] at hb
    exact .inr ⟨act, rfl, step_cases hb⟩

/-- The steps of `fail_pending_requests` other than its sends. -/
def Action.drains : Action → Bool
  | .drainStart | .drainUnary _ | .drainNext | .drainBatch _ | .drainEnd => true
  | _ => false

/-- How far `fail_pending_requests` is after a step, one constructor for each way it can go. -/
inductive DrainStep (s : State) : Action → DrainStage → Prop
  | start (h : s.drain = .idle) :
      DrainStep s .drainStart (.unary (Drain.start s.unary.pending))
  | unary {d d' act} (h : s.drain = .unary d) (hhand : s.unary.hand .disconnect = none)
      (hd : d.step s.unary.pending act = some d') : DrainStep s (.drainUnary act) (.unary d')
  | next {d} (h : s.drain = .unary d) (hhand : s.unary.hand .disconnect = none)
      (hd : d.done = true) : DrainStep s .drainNext (.batch (Drain.start s.batch.pending))
  | batch {d d' act} (h : s.drain = .batch d) (hhand : s.batch.hand .disconnect = none)
      (hd : d.step s.batch.pending act = some d') : DrainStep s (.drainBatch act) (.batch d')
  | done {d} (h : s.drain = .batch d) (hhand : s.batch.hand .disconnect = none)
      (hd : d.done = true) : DrainStep s .drainEnd .idle
  | other {a} (ha : a.drains = false) : DrainStep s a s.drain

theorem drain_step {cfg : Config R} {s s' : State} {a : Action} (hs : s.step cfg a = some s') :
    DrainStep s a s'.drain := by
  obtain ⟨-, -, -, -, hd⟩ := step_eq_some.1 hs
  generalize s'.drain = d' at hd
  cases a with
  | drainStart =>
    simp only [Action.onDrain] at hd
    split at hd <;> cases hd
    exact .start ‹_›
  | drainUnary act =>
    simp only [Action.onDrain] at hd
    split at hd
    · obtain ⟨d1, hd1, rfl⟩ := Option.map_eq_some_iff.1 hd
      exact .unary ‹_› ‹_› hd1
    · cases hd
  | drainNext =>
    simp only [Action.onDrain] at hd
    split at hd
    · split at hd <;> cases hd
      exact .next ‹_› ‹_› ‹_›
    · cases hd
  | drainBatch act =>
    simp only [Action.onDrain] at hd
    split at hd
    · obtain ⟨d1, hd1, rfl⟩ := Option.map_eq_some_iff.1 hd
      exact .batch ‹_› ‹_› hd1
    · cases hd
  | drainEnd =>
    simp only [Action.onDrain] at hd
    split at hd
    · split at hd <;> cases hd
      exact .done ‹_› ‹_› ‹_›
    · cases hd
  | _ =>
    cases hd
    exact .other rfl

/-! ## The step `handle` is `handle_message` -/

/-- `incoming_task` holds what `handle_message` sends, and the maps are as it leaves them. -/
structure HandledAs (out : Handled Nat) (s : State) : Prop where
  maps : out.maps = ⟨s.unary.pending, s.batch.pending⟩
  reply : ∀ c v, out.sent = some (.reply c v) ↔ s.unary.hand .incoming = some (c, some v)
  batchReply : ∀ c v, out.sent = some (.batchReply c v) ↔ s.batch.hand .incoming = some (c, some v)
  alive : out.panicked = !s.alive

/-- Taking what is stored under a key, if anything is. -/
theorem step_take {K A V : Type} [DecidableEq K] [DecidableEq A] {t t' : Table K Nat A V} {a : A}
    {k : K} {v : Option V} (ha : t.hand a = none) (h : t.step (.take a k v) = some t') :
    (∃ c, t.pending.lookup k = some c ∧ t' = { t with
      pending := t.pending.erase k, hand := Function.update t.hand a (some (c, v)) }) ∨
    (t.pending.lookup k = none ∧ t' = t) := by
  simp only [Table.step, ha] at h
  split at h
  · rename_i c _ hc
    cases h
    exact .inl ⟨c, hc, rfl⟩
  · rename_i _ hc
    cases h
    exact .inr ⟨hc, rfl⟩
  · cases h

theorem handle_refines {cfg : Config R} {s s' : State} {msg : Message} {data : Bytes}
    (hdata : msg.data? = some data) (h : s.step cfg (.handle msg) = some s') :
    HandledAs (handleMessage cfg.profile cfg.serde msg data ⟨s.unary.pending, s.batch.pending⟩)
      s' := by
  obtain ⟨-, hu, hb, hal, -⟩ := step_eq_some.1 h
  have hmsg : routeMessage cfg.profile cfg.serde msg = route cfg.profile cfg.serde msg data := by
    simp only [routeMessage, hdata]
  simp only [Action.onUnary, Action.onBatch, Action.onIncoming, hmsg] at hu hb hal
  split at hal
  · rename_i halive hnu hnb
    cases hroute : route cfg.profile cfg.serde msg data with
    | unary id v =>
      simp only [hroute, tableStep, Option.some.injEq] at hu hb hal
      rcases step_take hnu hu with ⟨c, hc, heq⟩ | ⟨hc, heq⟩ <;>
        constructor <;> simp [handleMessage, hroute, hc, heq, ← hb, hnu, hnb, ← hal]
    | batch key v =>
      obtain ⟨result, rfl⟩ := route_batch_value hroute
      simp only [hroute, tableStep, Option.some.injEq] at hu hb hal
      rcases step_take hnb hb with ⟨c, hc, heq⟩ | ⟨hc, heq⟩ <;>
        constructor <;> simp [handleMessage, hroute, hc, heq, ← hu, hnu, hnb, ← hal]
    | notification n =>
      simp only [hroute, tableStep, Option.some.injEq] at hu hb hal
      constructor <;> simp [handleMessage, hroute, ← hu, ← hb, hnu, hnb, ← hal]
    | drop =>
      simp only [hroute, tableStep, Option.some.injEq] at hu hb hal
      constructor <;> simp [handleMessage, hroute, ← hu, ← hb, hnu, hnb, ← hal]
    | panic =>
      simp only [hroute, tableStep, Option.some.injEq] at hu hb hal
      constructor <;> simp [handleMessage, hroute, ← hu, ← hb, hnu, hnb, ← hal]
  · cases hal

/-! ## The runs of the tables -/

section
variable {cfg : Config R} {ok : State → Action → Prop} {h : List Action} {s : State}

theorem Run.unary (ok' : Table RequestId Nat Agent Reply → Act RequestId Nat Agent Reply → Prop)
    (hok : ∀ s a act, ok s a → a.onUnary cfg = some act → ok' s.unary act)
    (hr : (client cfg).Run ok h s) :
    machine.Run ok' (h.filterMap (Action.onUnary cfg)) s.unary := by
  refine hr.project State.unary (Action.onUnary cfg) rfl ?_
  intro s a s' hoka hs
  obtain ⟨-, hu, -⟩ := step_eq_some.1 hs
  cases hact : a.onUnary cfg with
  | none => rw [hact] at hu; exact (Option.some.inj hu).symm
  | some act => rw [hact] at hu; exact ⟨hok s a act hoka hact, hu⟩

theorem Run.batch (ok' : Table RangeInclusive Nat Agent (Result BatchResult) →
      Act RangeInclusive Nat Agent (Result BatchResult) → Prop)
    (hok : ∀ s a act, ok s a → a.onBatch cfg = some act → ok' s.batch act)
    (hr : (client cfg).Run ok h s) :
    machine.Run ok' (h.filterMap (Action.onBatch cfg)) s.batch := by
  refine hr.project State.batch (Action.onBatch cfg) rfl ?_
  intro s a s' hoka hs
  obtain ⟨-, -, hb, -⟩ := step_eq_some.1 hs
  cases hact : a.onBatch cfg with
  | none => rw [hact] at hb; exact (Option.some.inj hb).symm
  | some act => rw [hact] at hb; exact ⟨hok s a act hoka hact, hb⟩

theorem Run.safe_unary (hr : (client cfg).Run ok h s) : Safe s.unary :=
  Oneshot.Run.safe (Run.unary Machine.always (fun _ _ _ _ _ => trivial) hr)

theorem Run.safe_batch (hr : (client cfg).Run ok h s) : Safe s.batch :=
  Oneshot.Run.safe (Run.batch Machine.always (fun _ _ _ _ _ => trivial) hr)

/-- A call keeps its id. -/
theorem Run.unary_key (hr : (client cfg).Run ok h s) {s' : State} {a : Action}
    (hs : s.step cfg a = some s') {c : Nat} {id : RequestId} (hid : s.unary.key c = some id) :
    s'.unary.key c = some id := by
  rcases unary_step hs with hu | ⟨act, -, hu⟩
  · rw [hu]
    exact hid
  · exact step_key (Run.safe_unary hr) hu hid

theorem Run.batch_key (hr : (client cfg).Run ok h s) {s' : State} {a : Action}
    (hs : s.step cfg a = some s') {c : Nat} {key : RangeInclusive}
    (hkey : s.batch.key c = some key) : s'.batch.key c = some key := by
  rcases batch_step hs with hb | ⟨act, -, hb⟩
  · rw [hb]
    exact hkey
  · exact step_key (Run.safe_batch hr) hb hkey

end

/-! ## What a call returns -/

/-- The timeout a call waits for (client.rs:230-232). -/
def Config.effectiveTimeout (cfg : Config R) (timeout : Option Duration) : Duration :=
  (timeout.or cfg.request_timeout).getD DEFAULT_REQUEST_TIMEOUT

/-- client.rs:263-268. -/
def readReply (T : R.TypeId) (msg : Message) (range : ByteRange) : Outcome (R.Val T) :=
  match msg.data? with
  | none => .err (.InvalidMessage "expected a Text or Binary message")
  | some buf =>
    match range.index buf with
    | none => .panic
    | some bytes => .ret (serdeOk (R.fromSlice T bytes))

/-- What `WsClient::request` returns after it ended so; nothing if it was dropped. -/
def requestReturn (cfg : Config R) (T : R.TypeId) (method : String) (params : Option Serialized)
    (timeout : Option Duration) : Exit Reply → Option (Outcome (R.Val T))
  | .early =>
    match (JsonRpcRequest.tryNew ⟨0⟩ method params []).1 with
    | .error e => some (.err e)
    | .ok _ => none
  | .sendFailed => some (.err (.TransportError "the message was not sent"))
  | .timedOut => some (.err (.RequestTimeout (cfg.effectiveTimeout timeout)))
  | .dropped => none
  | .disconnected => some (.err (.TransportError "channel closed"))
  | .received (.error e) => some (.err e)
  | .received (.ok (msg, range)) => some (readReply T msg range)

/-- The parsers of a batch that was built on `key`. -/
def builtParsers (calls : List (BatchBuilder.Call R)) (key : RangeInclusive) :
    List (ResponseParser R) :=
  match (BatchBuilder.ofCalls calls).assemble (some key) with
  | .ok batch => batch.parsers
  | .error _ => []

/-- What `WsClient::batch_request` returns after it registered under `key` and ended so. -/
def batchReturn (cfg : Config R) (calls : List (BatchBuilder.Call R)) (timeout : Option Duration)
    (key : RangeInclusive) : Exit (Result BatchResult) →
    Option (Outcome (Option (List (BatchResponseItem R))))
  | .early => none
  | .sendFailed => some (.err (.TransportError "the message was not sent"))
  | .timedOut => some (.err (.RequestTimeout (cfg.effectiveTimeout timeout)))
  | .dropped => none
  | .disconnected => some (.err (.TransportError "channel closed"))
  | .received (.error e) => some (.err e)
  | .received (.ok result) =>
    some ((readBatch result (builtParsers calls key)).bind fun items => .ok (some items))

/-- `c`, a `request` that has returned, returned `out`. -/
def RequestReturned (cfg : Config R) (s : State) (c : Nat) {T : R.TypeId}
    (out : Outcome (R.Val T)) : Prop :=
  ∃ method params timeout e, cfg.calls c = .request T method params timeout ∧
    s.unary.phase c = .over e ∧
    requestReturn cfg T method params timeout e = some out

/-- `c`, a `batch_request` that was registered under `key` and has returned, returned `out`. -/
def BatchReturned (cfg : Config R) (s : State) (c : Nat) (calls : List (BatchBuilder.Call R))
    (key : RangeInclusive) (out : Outcome (Option (List (BatchResponseItem R)))) : Prop :=
  ∃ timeout e, cfg.calls c = .batch calls timeout ∧ s.batch.key c = some key ∧
    s.batch.phase c = .over e ∧
    batchReturn cfg calls timeout key e = some out

end JsonRpc.Ws
