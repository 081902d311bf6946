import JsonRpcClient.Concurrent.Broadcast
import JsonRpcClient.Concurrent.Run
import JsonRpcClient.Concurrent.Ticker
import JsonRpcClient.Ws.HandleMessage

/-!
# Keepalive pings (handles.rs:17-76, builder.rs)

`management_task` waits for frames and for its ticker at the same time. Frames it only logs; at a
tick it sends a ping, and while it sends it waits for nothing else. How long anything takes is open:
`elapse` may happen at any time, and what is ready may be left waiting.

| here | there |
| --- | --- |
| `start`       | handles.rs:23-29: `subscribe`, and the ticker; `interval` panics on a period of zero |
| `recv`, `finish` | handles.rs:42-67: `messages.recv()`, `Closed` ends the loop |
| `tick`        | handles.rs:69: the tick completes, and the ping is handed to `client.send` |
| `sent`        | handles.rs:70-72: it was sent, or not, which is logged |
| `abort`       | `Drop for Connected` (client.rs:102) aborts the task where it waits |

`kept_alive`: pings are never less than a period apart, and one is due a period after the last,
whatever was received meanwhile; nothing but the end of the connection, or of the client, ends the
task.
-/

namespace JsonRpc.Ws
open Broadcast

/-- `WsClientBuilder` (builder.rs:9), without the connection it is built around. -/
structure WsClientBuilder where
  ping_interval : Option Duration
  request_timeout : Option Duration

namespace WsClientBuilder

/-- `new` and `from_websocket_client`. -/
def new : WsClientBuilder := ⟨none, none⟩

def pingInterval (b : WsClientBuilder) (interval : Duration) : WsClientBuilder :=
  { b with ping_interval := some interval }

def requestTimeout (b : WsClientBuilder) (timeout : Duration) : WsClientBuilder :=
  { b with request_timeout := some timeout }

end WsClientBuilder

structure KeepAliveConfig where
  builder : WsClientBuilder
  /-- of the transport's broadcast channel -/
  capacity : Nat
  /-- how late a tick of the ticker may be without being missed -/
  tolerance : Duration

inductive ManagementTask where
  | spawned
  | waiting (pos : Nat)
  | pinging (pos : Nat)
  | ended (pos : Nat)
  | aborted
  | panicked
deriving DecidableEq

structure KeepAlive where
  now : Nat
  frames : Channel Message
  /-- the transport will not broadcast any more -/
  closed : Bool
  task : ManagementTask
  ticker : Option Ticker
  /-- when the pings were handed to the transport -/
  pings : List Nat

inductive KeepAction where
  | elapse (d : Duration)
  | receive (msg : Message)
  | close
  | start
  | recv (r : Recv Message)
  | finish
  | tick
  | sent (ok : Bool)
  | abort

variable (cfg : KeepAliveConfig)

namespace KeepAlive

def step (s : KeepAlive) : KeepAction → Option KeepAlive
  | .elapse d => some { s with now := s.now + d }
  | .receive msg => if s.closed then none else some { s with frames := s.frames.send msg }
  | .close => some { s with closed := true }
  | .start =>
    match s.task with
    | .spawned =>
      match cfg.builder.ping_interval with
      | none => some { s with task := .waiting s.frames.tail }
      | some d =>
        match Ticker.start? d s.now with
        | some ticker => some { s with task := .waiting s.frames.tail, ticker := some ticker }
        | none => some { s with task := .panicked }
    | _ => none
  | .recv r =>
    match s.task with
    | .waiting pos =>
      match s.frames.recv pos with
      | some (r', pos') => if r' = r then some { s with task := .waiting pos' } else none
      | none => none
    | _ => none
  | .finish =>
    match s.task with
    | .waiting pos =>
      if s.closed ∧ s.frames.recv pos = none then some { s with task := .ended pos } else none
    | _ => none
  | .tick =>
    match s.task, s.ticker with
    | .waiting pos, some ticker =>
      (ticker.tick cfg.tolerance s.now).map fun ticker =>
        { s with task := .pinging pos, ticker := some ticker, pings := s.pings ++ [s.now] }
    | _, _ => none
  | .sent _ =>
    match s.task with
    | .pinging pos => some { s with task := .waiting pos }
    | _ => none
  | .abort =>
    match s.task with
    | .spawned | .waiting _ | .pinging _ => some { s with task := .aborted }
    | _ => none

def init : KeepAlive := ⟨0, ⟨cfg.capacity, []⟩, false, .spawned, none, []⟩

end KeepAlive

def keepAlive : Machine KeepAlive KeepAction := ⟨KeepAlive.init cfg, KeepAlive.step cfg⟩

variable {cfg} {s s' : KeepAlive} {a : KeepAction} {h : List KeepAction}

/-- `KeepAlive.step` as a relation, one constructor for each way a step can go. -/
inductive KeepStep (cfg : KeepAliveConfig) (s : KeepAlive) : KeepAction → KeepAlive → Prop
  | elapse {d} : KeepStep cfg s (.elapse d) { s with now := s.now + d }
  | receive {msg} (hopen : s.closed = false) :
      KeepStep cfg s (.receive msg) { s with frames := s.frames.send msg }
  | close : KeepStep cfg s .close { s with closed := true }
  | quiet (htask : s.task = .spawned) (hping : cfg.builder.ping_interval = none) :
      KeepStep cfg s .start { s with task := .waiting s.frames.tail }
  | start {d ticker} (htask : s.task = .spawned) (hping : cfg.builder.ping_interval = some d)
      (hticker : Ticker.start? d s.now = some ticker) :
      KeepStep cfg s .start { s with task := .waiting s.frames.tail, ticker := some ticker }
  | panic {d} (htask : s.task = .spawned) (hping : cfg.builder.ping_interval = some d)
      (hticker : Ticker.start? d s.now = none) : KeepStep cfg s .start { s with task := .panicked }
  | recv {pos r pos'} (htask : s.task = .waiting pos)
      (hrecv : s.frames.recv pos = some (r, pos')) :
      KeepStep cfg s (.recv r) { s with task := .waiting pos' }
  | finish {pos} (htask : s.task = .waiting pos) (hclosed : s.closed = true)
      (hrecv : s.frames.recv pos = none) : KeepStep cfg s .finish { s with task := .ended pos }
  | tick {pos ticker ticker'} (htask : s.task = .waiting pos) (hticker : s.ticker = some ticker)
      (htick : ticker.tick cfg.tolerance s.now = some ticker') :
      KeepStep cfg s .tick
        { s with task := .pinging pos, ticker := some ticker', pings := s.pings ++ [s.now] }
  | sent {pos ok} (htask : s.task = .pinging pos) :
      KeepStep cfg s (.sent ok) { s with task := .waiting pos }
  | abort : KeepStep cfg s .abort { s with task := .aborted }

theorem keep_cases (hs : s.step cfg a = some s') : KeepStep cfg s a s' := by
  cases a with
  | elapse d => cases hs; exact .elapse
  | receive msg =>
    simp only [KeepAlive.step] at hs
    split at hs <;> cases hs
    rename_i hopen
    exact .receive (by simpa using hopen)
  | close => cases hs; exact .close
  | start =>
    simp only [KeepAlive.step] at hs
    split at hs
    · split at hs
      · cases hs
        exact .quiet ‹_› ‹_›
      · split at hs <;> cases hs
        · exact .start ‹_› ‹_› ‹_›
        · exact .panic ‹_› ‹_› ‹_›
    · cases hs
  | recv r =>
    simp only [KeepAlive.step] at hs
    split at hs
    · split at hs
      · split at hs
        · rename_i hr
          subst hr
          cases hs
          exact .recv ‹_› ‹_›
        · cases hs
      · cases hs
    · cases hs
  | finish =>
    simp only [KeepAlive.step] at hs
    split at hs
    · split at hs <;> cases hs
      rename_i hend
      exact .finish ‹_› hend.1 hend.2
    · cases hs
  | tick =>
    simp only [KeepAlive.step] at hs
    split at hs
    · obtain ⟨ticker', htick, rfl⟩ := Option.map_eq_some_iff.1 hs
      exact .tick ‹_› ‹_› htick
    · cases hs
  | sent ok =>
    simp only [KeepAlive.step] at hs
    split at hs <;> cases hs
    exact .sent ‹_›
  | abort =>
    simp only [KeepAlive.step] at hs
    split at hs <;> cases hs <;> exact .abort

/-- The task's position in the frames. -/
def ManagementTask.pos? : ManagementTask → Option Nat
  | .waiting pos | .pinging pos | .ended pos => some pos
  | .spawned | .aborted | .panicked => none

/-- The pings are the ticks of the ticker, if there is one. -/
structure KeepInv (cfg : KeepAliveConfig) (s : KeepAlive) : Prop where
  silent : s.ticker = none → s.pings = []
  ticks : ∀ ticker, s.ticker = some ticker → ∃ first : Ticker, first.Ticks cfg.tolerance s.pings ticker ∧
    cfg.builder.ping_interval = some first.period ∧ first.deadline ≤ s.now
  ticker : s.task.pos?.isSome = true → s.ticker.isSome = cfg.builder.ping_interval.isSome
  idle : s.task = .spawned → s.ticker = none
  pos_le : ∀ pos, s.task.pos? = some pos → pos ≤ s.frames.log.length
  panicked : s.task = .panicked → cfg.builder.ping_interval = some 0
  ended : ∀ pos, s.task = .ended pos → s.closed = true ∧ s.frames.log.length ≤ pos

theorem KeepInv.init (cfg : KeepAliveConfig) : KeepInv cfg (.init cfg) := by
  constructor <;> simp [KeepAlive.init, ManagementTask.pos?]

theorem KeepInv.step (hi : KeepInv cfg s) (hs : KeepStep cfg s a s') : KeepInv cfg s' := by
  cases hs with
  | elapse =>
    refine ⟨hi.silent, ?_, hi.ticker, hi.idle, hi.pos_le, hi.panicked, hi.ended⟩
    intro ticker hticker
    obtain ⟨first, hticks, hping, hle⟩ := hi.ticks ticker hticker
    exact ⟨first, hticks, hping, Nat.le_add_right_of_le hle⟩
  | receive hopen =>
    refine ⟨hi.silent, hi.ticks, hi.ticker, hi.idle, ?_, hi.panicked, ?_⟩
    · intro pos hpos
      have hle := hi.pos_le pos hpos
      simp only [Channel.send_log, List.length_append]
      omega
    · intro pos hended
      rw [(hi.ended pos hended).1] at hopen
      cases hopen
  | close =>
    exact ⟨hi.silent, hi.ticks, hi.ticker, hi.idle, hi.pos_le, hi.panicked,
      fun pos hended => ⟨rfl, (hi.ended pos hended).2⟩⟩
  | quiet htask hping =>
    have hno := hi.idle htask
    refine ⟨hi.silent, hi.ticks, ?_, by simp, ?_, by simp, by simp⟩
    · simp [hno, hping]
    · rintro pos ⟨⟩
      exact le_rfl
  | @start d ticker htask hping hticker =>
    have hnil := hi.silent (hi.idle htask)
    obtain ⟨hperiod, hdeadline⟩ := Ticker.start?_eq_some hticker
    refine ⟨by simp, ?_, by simp [hping], by simp, ?_, by simp, by simp⟩
    · rintro _ ⟨⟩
      refine ⟨ticker, ?_, by rw [hperiod, hping], hdeadline.le⟩
      simp only [hnil]
      exact .nil
    · rintro pos ⟨⟩
      exact le_rfl
  | panic htask hping hticker =>
    rw [Ticker.start?_eq_none.1 hticker] at hping
    exact ⟨hi.silent, hi.ticks, by simp [ManagementTask.pos?], by simp,
      by simp [ManagementTask.pos?], fun _ => hping, by simp⟩
  | recv htask hrecv =>
    have hle := Channel.recv_le hrecv
    refine ⟨hi.silent, hi.ticks, ?_, by simp, ?_, by simp, by simp⟩
    · exact fun _ => hi.ticker (by rw [htask]; rfl)
    · rintro pos ⟨⟩
      exact hle.2
  | @finish pos htask hclosed hrecv =>
    refine ⟨hi.silent, hi.ticks, ?_, by simp, ?_, by simp, ?_⟩
    · exact fun _ => hi.ticker (by rw [htask]; rfl)
    · exact fun pos' hpos' => hi.pos_le pos' (by rw [htask]; exact hpos')
    · rintro pos' ⟨⟩
      exact ⟨hclosed, Channel.length_le_of_recv hrecv⟩
  | @tick pos ticker ticker' htask hticker htick =>
    refine ⟨by simp, ?_, ?_, by simp, ?_, by simp, by simp⟩
    · rintro _ ⟨⟩
      obtain ⟨first, hticks, hping, hle⟩ := hi.ticks ticker hticker
      exact ⟨first, hticks.tick htick, hping, hle⟩
    · intro _
      rw [← hi.ticker (by rw [htask]; rfl), hticker]
      rfl
    · exact fun pos' hpos' => hi.pos_le pos' (by rw [htask]; exact hpos')
  | sent htask =>
    refine ⟨hi.silent, hi.ticks, ?_, by simp, ?_, by simp, by simp⟩
    · exact fun _ => hi.ticker (by rw [htask]; rfl)
    · exact fun pos' hpos' => hi.pos_le pos' (by rw [htask]; exact hpos')
  | abort =>
    exact ⟨hi.silent, hi.ticks, by simp [ManagementTask.pos?], by simp,
      by simp [ManagementTask.pos?], by simp, by simp⟩

theorem KeepRun.inv (hr : (keepAlive cfg).Run Machine.always h s) : KeepInv cfg s :=
  Machine.Run.invariant (P := fun _ s => KeepInv cfg s) (.init cfg)
    (fun _ _ _ _ _ hi _ hs => hi.step (keep_cases hs)) hr

section
variable {d : Duration}

/-- The ticker of a client that pings, if it has been made. -/
theorem KeepInv.pinged (hi : KeepInv cfg s) (hd : cfg.builder.ping_interval = some d) :
    s.pings = [] ∧ s.ticker = none ∨ ∃ first ticker : Ticker, s.ticker = some ticker ∧
      first.Ticks cfg.tolerance s.pings ticker ∧ first.period = d ∧ first.deadline ≤ s.now := by
  cases hticker : s.ticker with
  | none => exact .inl ⟨hi.silent hticker, rfl⟩
  | some ticker =>
    obtain ⟨first, hticks, hping, hle⟩ := hi.ticks ticker hticker
    exact .inr ⟨first, ticker, rfl, hticks, Option.some.inj (hping.symm.trans hd), hle⟩

theorem KeepInv.asked (hi : KeepInv cfg s) (hne : s.pings ≠ []) :
    ∃ d, cfg.builder.ping_interval = some d ∧ 0 < d := by
  cases hticker : s.ticker with
  | none => exact absurd (hi.silent hticker) hne
  | some ticker =>
    obtain ⟨first, -, hping, -⟩ := hi.ticks ticker hticker
    exact ⟨_, hping, first.period_pos⟩

theorem KeepInv.spaced (hi : KeepInv cfg s) (hd : cfg.builder.ping_interval = some d) :
    s.pings.IsChain fun t t' => t + d ≤ t' + cfg.tolerance := by
  rcases hi.pinged hd with ⟨hnil, -⟩ | ⟨first, ticker, -, hticks, rfl, -⟩
  · rw [hnil]
    exact .nil
  · exact hticks.spaced

theorem KeepInv.few (hi : KeepInv cfg s) (hd : cfg.builder.ping_interval = some d) {l : List Nat}
    (hl : l <:+: s.pings) {lo hi' : Nat} (hb : ∀ t ∈ l, lo ≤ t ∧ t ≤ hi') :
    (l.length - 1) * d ≤ hi' - lo + cfg.tolerance := by
  rcases hi.pinged hd with ⟨hnil, -⟩ | ⟨first, ticker, -, hticks, rfl, -⟩
  · rw [hnil, List.infix_nil] at hl
    rw [hl]
    simp
  · exact hticks.length_le hl hb

theorem KeepInv.due (hi : KeepInv cfg s) (hd : cfg.builder.ping_interval = some d) {pos : Nat}
    (htask : s.task = .waiting pos) (hlast : ∀ t ∈ s.pings.getLast?, t + d ≤ s.now) :
    (s.step cfg .tick).isSome = true := by
  rcases hi.pinged hd with ⟨-, hno⟩ | ⟨first, ticker, hticker, hticks, rfl, hle⟩
  · have hsome := hi.ticker (by rw [htask]; rfl)
    rw [hno, hd] at hsome
    cases hsome
  · simp only [KeepAlive.step, htask, hticker, Option.isSome_map, Ticker.tick_isSome]
    obtain ⟨hfirst, hnext⟩ := hticks.due
    cases hpings : s.pings.getLast? with
    | none =>
      rw [hfirst (List.getLast?_eq_none_iff.1 hpings)]
      exact hle
    | some t => exact (hnext t hpings).trans (hlast t hpings)

end

/-- What `ping_interval` promises. -/
structure KeptAlive (cfg : KeepAliveConfig) (s : KeepAlive) : Prop where
  /-- no pings unless they were asked for -/
  asked : s.pings ≠ [] → ∃ d, cfg.builder.ping_interval = some d ∧ 0 < d
  /-- no bursts, however late the task is -/
  spaced : ∀ d, cfg.builder.ping_interval = some d →
    s.pings.IsChain fun t t' => t + d ≤ t' + cfg.tolerance
  few : ∀ d l lo hi, cfg.builder.ping_interval = some d → l <:+: s.pings →
    (∀ t ∈ l, lo ≤ t ∧ t ≤ hi) → (l.length - 1) * d ≤ hi - lo + cfg.tolerance
  /-- nothing that is received puts a ping off -/
  due : ∀ d pos, cfg.builder.ping_interval = some d → s.task = .waiting pos →
    (∀ t ∈ s.pings.getLast?, t + d ≤ s.now) → (s.step cfg .tick).isSome = true
  /-- the task waits or sends, until the client is dropped, or the connection is over and all of it
  was read or missed -/
  alive : s.task ≠ .spawned → (∃ pos, s.task = .waiting pos ∨ s.task = .pinging pos) ∨
    s.task = .aborted ∨ (s.closed = true ∧ s.task = .ended s.frames.log.length) ∨
      (s.task = .panicked ∧ cfg.builder.ping_interval = some 0)

/-- **A client is kept alive as its builder says**, in every run: pings are a period apart at least,
but for the tolerance of the timer, and due a period after the last one at most; a missed frame or a
ping that cannot be sent does not end them. -/
theorem kept_alive (hr : (keepAlive cfg).Run Machine.always h s) : KeptAlive cfg s := by
  have hi := KeepRun.inv hr
  refine ⟨hi.asked, fun d => hi.spaced, fun d l lo hi' hd hl => hi.few hd hl,
    fun d pos hd => hi.due hd, ?_⟩
  intro hspawned
  cases htask : s.task with
  | spawned => exact absurd htask hspawned
  | waiting pos => exact .inl ⟨pos, .inl rfl⟩
  | pinging pos => exact .inl ⟨pos, .inr rfl⟩
  | aborted => exact .inr (.inl rfl)
  | ended pos =>
    obtain ⟨hclosed, hend⟩ := hi.ended pos htask
    have hle := hi.pos_le pos (by rw [htask]; rfl)
    rw [Nat.le_antisymm hle hend]
    exact .inr (.inr (.inl ⟨hclosed, rfl⟩))
  | panicked => exact .inr (.inr (.inr ⟨rfl, hi.panicked htask⟩))

/-- Every 10, on a channel for one message. -/
def everyTen : KeepAliveConfig := ⟨WsClientBuilder.new.pingInterval 10, 1, 0⟩

/-- Sending the first ping takes 25, and fails. The second is late, and the third comes 10 after it. -/
def latePings : List KeepAction :=
  [.receive .Control, .start, .tick, .elapse 25, .sent false, .receive .Control, .receive .Control,
    .recv (.lagged 1), .tick, .sent true, .elapse 10, .tick]

theorem kept_alive_late : ∃ s, (keepAlive everyTen).Run Machine.always latePings s ∧
    s.pings = [0, 25, 35] ∧ KeptAlive everyTen s := by
  have hrun : ((keepAlive everyTen).exec (.init everyTen) latePings).any (fun s =>
      s.pings = [0, 25, 35]) = true := by decide
  obtain ⟨s, hs, hpings⟩ := (Option.any_eq_true _ _).1 hrun
  have hr := Machine.Run.of_exec hs
  exact ⟨s, hr, of_decide_eq_true hpings, kept_alive hr⟩

end JsonRpc.Ws
