import JsonRpcClient.Concurrent.Broadcast
import JsonRpcClient.Concurrent.Run
import JsonRpcClient.Ws.HandleMessage

/-!
# Notifications, from the transport to the streams

A notification crosses two bounded broadcast channels: the transport's, which `incoming_task` reads,
and `notification_channel`, which it writes to and every stream reads. A stream reports what it
missed of the second. What `incoming_task` misses of the first nobody reports.

| here | there |
| --- | --- |
| `receive`   | the transport broadcasts a received frame |
| `start`, `recv`, `handled` | `incoming_task` (handles.rs:171-216): `subscribe`, `recv`, `handle_message` |
| `subscribe`, `poll` | `WsClient::subscribe` (client.rs:361) and the stream it returns |

Of `handle_message` only what it does with notifications matters here, and whether it panics, which
ends the task; both are decided by the frame alone (`routeMessage`).
-/

namespace JsonRpc.Ws
open Json Broadcast

/-- client.rs:31. -/
def NOTIFICATION_CHANNEL_CAPACITY : Nat := 100

inductive IncomingTask where
  | spawned
  | reading (pos : Nat)
  | handling (msg : Message) (pos : Nat)
  | panicked
deriving DecidableEq

/-- A stream: its receiver's position in `notification_channel`, and what it has yielded; also where
it began, and how many frames the transport had received by then. -/
structure Stream where
  start : Nat
  framesBefore : Nat
  pos : Nat
  yielded : List (Recv Notification)

structure Feed where
  frames : Channel Message
  task : IncomingTask
  notifications : Channel Notification
  streams : List Stream

inductive FeedAction where
  | receive (msg : Message)
  | start
  | recv (r : Recv Message)
  | handled
  | subscribe
  /-- the `i`-th stream yields `Ok(n)`, or `Err(NotificationsMissed(n))` for `lagged n` -/
  | poll (i : Nat) (r : Recv Notification)

/-- What `incoming_task` needs to know of the build, and how much the two channels retain. -/
structure FeedConfig where
  profile : Profile
  serde : SerdeJson
  /-- of the transport's broadcast channel -/
  capacity : Nat
  /-- of `notification_channel`: `broadcast::channel` retains at least what it is asked to -/
  retained : Nat
  capacity_le : NOTIFICATION_CHANNEL_CAPACITY ≤ retained

variable (cfg : FeedConfig)

/-- The notification in a frame. -/
def FeedConfig.notification? (msg : Message) : Option Notification :=
  match routeMessage cfg.profile cfg.serde msg with
  | .notification n => some n
  | _ => none

namespace Feed

/-- What `handle_message` does with a frame, and where the task is after it. -/
def handle (f : Feed) (msg : Message) (pos : Nat) : Feed :=
  match routeMessage cfg.profile cfg.serde msg with
  | .notification n => { f with notifications := f.notifications.send n, task := .reading pos }
  | .panic => { f with task := .panicked }
  | _ => { f with task := .reading pos }

def step (f : Feed) : FeedAction → Option Feed
  | .receive msg => some { f with frames := f.frames.send msg }
  | .start =>
    match f.task with
    | .spawned => some { f with task := .reading f.frames.tail }
    | _ => none
  | .recv r =>
    match f.task with
    | .reading pos =>
      match f.frames.recv pos with
      | some (r', pos') =>
        if r' = r then
          match r with
          | .item msg => some { f with task := .handling msg pos' }
          | .lagged _ => some { f with task := .reading pos' }
        else none
      | none => none
    | _ => none
  | .handled =>
    match f.task with
    | .handling msg pos => some (f.handle cfg msg pos)
    | _ => none
  | .subscribe =>
    some { f with
      streams := f.streams ++ [⟨f.notifications.tail, f.frames.tail, f.notifications.tail, []⟩] }
  | .poll i r =>
    match f.streams[i]? with
    | some st =>
      match f.notifications.recv st.pos with
      | some (r', pos') =>
        if r' = r then
          some { f with
            streams := f.streams.set i { st with pos := pos', yielded := st.yielded ++ [r] } }
        else none
      | none => none
    | none => none

def init : Feed := ⟨⟨cfg.capacity, []⟩, .spawned, ⟨cfg.retained, []⟩, []⟩

end Feed

def feed : Machine Feed FeedAction := ⟨Feed.init cfg, Feed.step cfg⟩

/-- `Feed.step` as a relation, one constructor for each way a step can go. -/
inductive FeedStep : Feed → FeedAction → Feed → Prop
  | receive {f msg} : FeedStep f (.receive msg) { f with frames := f.frames.send msg }
  | start {f} (h : f.task = .spawned) : FeedStep f .start { f with task := .reading f.frames.tail }
  | item {f pos pos' msg} (h : f.task = .reading pos)
      (hr : f.frames.recv pos = some (.item msg, pos')) :
      FeedStep f (.recv (.item msg)) { f with task := .handling msg pos' }
  | lagged {f pos pos' n} (h : f.task = .reading pos)
      (hr : f.frames.recv pos = some (.lagged n, pos')) :
      FeedStep f (.recv (.lagged n)) { f with task := .reading pos' }
  | handled {f msg pos} (h : f.task = .handling msg pos) :
      FeedStep f .handled (f.handle cfg msg pos)
  | subscribe {f} : FeedStep f .subscribe { f with
      streams := f.streams ++ [⟨f.notifications.tail, f.frames.tail, f.notifications.tail, []⟩] }
  | poll {f i r st pos'} (h : f.streams[i]? = some st)
      (hr : f.notifications.recv st.pos = some (r, pos')) :
      FeedStep f (.poll i r)
        { f with streams := f.streams.set i { st with pos := pos', yielded := st.yielded ++ [r] } }

variable {cfg}

theorem feed_cases {f f' : Feed} {a : FeedAction} (h : f.step cfg a = some f') :
    FeedStep cfg f a f' := by
  cases a with
  | receive msg => cases h; exact .receive
  | start => simp only [Feed.step] at h; split at h <;> cases h; exact .start ‹_›
  | recv r =>
    simp only [Feed.step] at h
    split at h
    · rename_i pos htask
      split at h
      · rename_i r' pos' hrecv
        split at h
        · rename_i hr
          subst hr
          cases r' with
          | item msg => cases h; exact .item htask hrecv
          | lagged n => cases h; exact .lagged htask hrecv
        · cases h
      · cases h
    · cases h
  | handled => simp only [Feed.step] at h; split at h <;> cases h; exact .handled ‹_›
  | subscribe => cases h; exact .subscribe
  | poll i r =>
    simp only [Feed.step] at h
    split at h
    · rename_i st hst
      split at h
      · rename_i r' pos' hrecv
        split at h
        · rename_i hr
          subst hr
          cases h
          exact .poll hst hrecv
        · cases h
      · cases h
    · cases h

/-! ## What a stream is owed, and where it is -/

variable (cfg)

/-- The notifications in the frames from `pos` on. -/
def Feed.framesFrom (f : Feed) (pos : Nat) : List Notification :=
  (f.frames.log.drop pos).filterMap cfg.notification?

/-- The notifications that the transport received after the stream was made. -/
def Feed.owed (f : Feed) (st : Stream) : List Notification := f.framesFrom cfg st.framesBefore

/-- The first frame that `incoming_task` may still read: the channel has overwritten the ones
before, or the task has read them, or it is not there to read any. -/
def Feed.unread (f : Feed) : Nat :=
  match f.task with
  | .reading pos => max pos f.frames.oldest
  | .handling _ pos => max pos f.frames.oldest
  | _ => f.frames.log.length

def Feed.inHand (f : Feed) : List Notification :=
  match f.task with
  | .handling msg _ => (cfg.notification? msg).toList
  | _ => []

/-- Received, not lost, and not sent to `notification_channel` yet. -/
def Feed.onTheWay (f : Feed) : List Notification := f.inHand cfg ++ f.framesFrom cfg f.unread

/-- The notifications that wait for the stream in one of the channels. -/
def Feed.buffered (f : Feed) (st : Stream) : Nat :=
  (f.notifications.log.length - max st.pos f.notifications.oldest) + (f.onTheWay cfg).length

/-- What the stream has missed of `notification_channel` since it was last polled. -/
def Feed.unreported (f : Feed) (st : Stream) : Nat := f.notifications.oldest - st.pos

/-- The stream yields the notifications received after it was made, in their order and each once,
but for the ones it counts in a `NotificationsMissed` at their place; all others are waiting for it,
or are counted in the one it yields next. -/
structure Accounted (f : Feed) (st : Stream) : Prop where
  inOrder : Reads (f.owed cfg st) 0 st.yielded (st.pos - st.start)
  total : (items st.yielded).length + missed st.yielded + f.unreported st + f.buffered cfg st =
    (f.owed cfg st).length
  next : 0 < f.unreported st →
    ∃ pos', f.notifications.recv st.pos = some (.lagged (f.unreported st), pos')

/-! ## The steps that lose nothing -/

/-- Between `f` and `f'` no notification that a stream is owed has got out of reach of
`incoming_task`. -/
def Feed.LosesNone (f f' : Feed) : Prop :=
  ∀ st ∈ f.streams, ∀ j < f'.unread, f.unread ≤ j → st.framesBefore ≤ j →
    ∀ m ∈ f'.frames.log[j]?, cfg.notification? m = none

/-- While there are streams, no notification is overwritten before `incoming_task` reads it, or
received while the task is not there to read it, and the task does not panic while one is unread;
and no notification of an earlier frame is on its way when a stream is made. -/
def KeepsNotifications (f : Feed) : FeedAction → Prop
  | .receive msg => f.LosesNone cfg { f with frames := f.frames.send msg }
  | .handled =>
    match f.task with
    | .handling msg _ =>
      routeMessage cfg.profile cfg.serde msg = .panic → f.LosesNone cfg { f with task := .panicked }
    | _ => True
  | .subscribe => f.onTheWay cfg = []
  | _ => True

instance (f f' : Feed) : Decidable (f.LosesNone cfg f') :=
  inferInstanceAs (Decidable (∀ st ∈ f.streams, ∀ j < f'.unread, f.unread ≤ j →
    st.framesBefore ≤ j →
    ∀ m ∈ f'.frames.log[j]?, cfg.notification? m = none))

instance (f : Feed) (a : FeedAction) : Decidable (KeepsNotifications cfg f a) := by
  unfold KeepsNotifications
  split
  · infer_instance
  · split <;> infer_instance
  · infer_instance
  · infer_instance

/-! ## The invariant -/

/-- What a stream is owed has been sent to `notification_channel` since it was made, or is on its
way. -/
structure Tracks (f : Feed) (st : Stream) : Prop where
  balance : f.owed cfg st = f.notifications.log.drop st.start ++ f.onTheWay cfg
  reads : Reads f.notifications.log st.start st.yielded st.pos
  sent : st.pos ≤ f.notifications.log.length
  received : st.framesBefore ≤ f.frames.log.length
  /-- the unread frames from before the stream hold no notifications -/
  early : ∀ j, f.unread ≤ j → j < st.framesBefore → ∀ m, f.frames.log[j]? = some m →
    cfg.notification? m = none

structure FeedInv (f : Feed) : Prop where
  unread : f.unread ≤ f.frames.log.length
  tracks : ∀ st ∈ f.streams, Tracks cfg f st

variable {cfg}

theorem framesFrom_skip (cfg : FeedConfig) (f : Feed) {p q : Nat} (hle : p ≤ q) :
    ∃ skipped, f.framesFrom cfg p = skipped ++ f.framesFrom cfg q ∧
      (skipped = [] ↔ ∀ j, p ≤ j → j < q → ∀ m, f.frames.log[j]? = some m →
        cfg.notification? m = none) :=
  filterMap_drop_skip hle

/-- With the balance, what is accounted for is what is owed. -/
theorem Tracks.accounted {f : Feed} {st : Stream} (h : Tracks cfg f st) : Accounted cfg f st := by
  have hreads := h.reads.total
  have hle := h.reads.le
  have hold := f.notifications.oldest_le
  refine ⟨?_, ?_, ?_⟩
  · rw [h.balance]
    exact h.reads.drop.append _
  · rw [h.balance, List.length_append, List.length_drop]
    have hsent := h.sent
    simp only [Feed.unreported, Feed.buffered]
    omega
  · intro hpos
    simp only [Feed.unreported] at hpos ⊢
    exact ⟨_, by unfold Channel.recv; rw [if_pos (by omega)]⟩

/-- What is lost on the way is missing from the account. -/
theorem Accounted.onTheWay_length {f : Feed} {st : Stream} (h : Accounted cfg f st)
    (hreads : Reads f.notifications.log st.start st.yielded st.pos)
    (hsent : st.pos ≤ f.notifications.log.length) :
    (f.owed cfg st).length = (f.notifications.log.drop st.start).length +
    (f.onTheWay cfg).length := by
  have htotal := h.total
  have hreads' := hreads.total
  have hle := hreads.le
  have hold := f.notifications.oldest_le
  simp only [Feed.unreported, Feed.buffered] at htotal
  rw [List.length_drop]
  omega

/-- A step that only moves the boundary of what the task can still read, and may add a frame. -/
structure Shifts (cfg : FeedConfig) (f f' : Feed) (added : List Message) : Prop where
  log : f'.frames.log = f.frames.log ++ added
  notifications : f'.notifications = f.notifications
  inHand : f'.inHand cfg = f.inHand cfg
  unread : f.unread ≤ f'.unread

theorem framesFrom_append {f f' : Feed} {added : List Message}
    (hlog : f'.frames.log = f.frames.log ++ added) {p : Nat}
    (hp : p ≤ f.frames.log.length) :
    f'.framesFrom cfg p = f.framesFrom cfg p ++ added.filterMap cfg.notification? := by
  rw [Feed.framesFrom, Feed.framesFrom, hlog, List.drop_append_of_le_length hp,
    List.filterMap_append]

/-- The frames between the boundaries hold nothing that the stream is owed just when they hold
nothing: what is older than the stream holds nothing anyway. -/
theorem Tracks.between_iff {f f' : Feed} {st : Stream} {added : List Message} (h : Tracks cfg f st)
    (hs : Shifts cfg f f' added) :
    (∀ j, f.unread ≤ j → j < f'.unread → ∀ m, f'.frames.log[j]? = some m →
      cfg.notification? m = none) ↔
      ∀ j < f'.unread, f.unread ≤ j → st.framesBefore ≤ j → ∀ m ∈ f'.frames.log[j]?,
        cfg.notification? m = none := by
  refine ⟨fun hnone j hj hlo _ m hm => hnone j hlo hj m hm, fun hnone j hlo hj m hm => ?_⟩
  by_cases hbefore : st.framesBefore ≤ j
  · exact hnone j hj hlo hbefore m hm
  · have hreceived := h.received
    rw [hs.log, List.getElem?_append_left (by omega)] at hm
    exact h.early j hlo (by omega) m hm

theorem Tracks.shift {f f' : Feed} {st : Stream} {added : List Message} (h : Tracks cfg f st)
    (hunread : f.unread ≤ f.frames.log.length) (hs : Shifts cfg f f' added)
    (hnone : ∀ j < f'.unread, f.unread ≤ j → st.framesBefore ≤ j →
      ∀ m ∈ f'.frames.log[j]?, cfg.notification? m = none) : Tracks cfg f' st := by
  obtain ⟨skipped, hskip, hiff⟩ := framesFrom_skip cfg f' hs.unread
  rw [hiff.2 ((h.between_iff hs).2 hnone), List.nil_append] at hskip
  refine ⟨?_, ?_, ?_, ?_, ?_⟩
  · rw [Feed.owed, framesFrom_append hs.log h.received, ← Feed.owed, h.balance, hs.notifications,
      Feed.onTheWay,
      Feed.onTheWay, hs.inHand, ← hskip, framesFrom_append hs.log hunread]
    simp only [List.append_assoc]
  · rw [hs.notifications]; exact h.reads
  · rw [hs.notifications]; exact h.sent
  · rw [hs.log, List.length_append]
    exact Nat.le_add_right_of_le h.received
  · intro j hlo hj m hm
    have hreceived := h.received
    have hle := hs.unread
    rw [hs.log, List.getElem?_append_left (by omega)] at hm
    exact h.early j (by omega) hj m hm

/-- If the account is still right, nothing was lost. -/
theorem Tracks.unshift {f f' : Feed} {st : Stream} {added : List Message} (h : Tracks cfg f st)
    (hunread : f.unread ≤ f.frames.log.length) (hs : Shifts cfg f f' added)
    (hacc : Accounted cfg f' st) :
    ∀ j < f'.unread, f.unread ≤ j → st.framesBefore ≤ j → ∀ m ∈ f'.frames.log[j]?,
    cfg.notification? m = none := by
  obtain ⟨skipped, hskip, hiff⟩ := framesFrom_skip cfg f' hs.unread
  refine (h.between_iff hs).1 (hiff.1 (List.eq_nil_of_length_eq_zero ?_))
  have hlen := hacc.onTheWay_length (by rw [hs.notifications]; exact h.reads)
    (by rw [hs.notifications]; exact h.sent)
  have hskip' := congrArg List.length hskip
  have hbalance := congrArg List.length h.balance
  rw [framesFrom_append hs.log hunread] at hskip'
  rw [Feed.owed, framesFrom_append hs.log h.received, ← Feed.owed, hs.notifications, Feed.onTheWay,
    hs.inHand] at hlen
  simp only [List.length_append, Feed.onTheWay] at hlen hskip' hbalance
  omega

/-- A step that does not touch what a stream is tracked by. -/
theorem Tracks.same {f f' : Feed} {st : Stream} (h : Tracks cfg f st)
    (hframes : f'.frames = f.frames)
    (hnotifications : f'.notifications = f.notifications) (hway : f'.onTheWay cfg = f.onTheWay cfg)
    (hunread : f.unread ≤ f'.unread) : Tracks cfg f' st := by
  refine ⟨?_, ?_, ?_, ?_, ?_⟩
  · rw [hway, hnotifications, ← h.balance, Feed.owed, Feed.owed, Feed.framesFrom, Feed.framesFrom,
      hframes]
  · rw [hnotifications]; exact h.reads
  · rw [hnotifications]; exact h.sent
  · rw [hframes]; exact h.received
  · intro j hlo hj m hm
    rw [hframes] at hm
    exact h.early j (by omega) hj m hm

theorem shifts_receive (f : Feed) (msg : Message) :
    Shifts cfg f { f with frames := f.frames.send msg } [msg] := by
  refine ⟨rfl, rfl, rfl, ?_⟩
  have hold : f.frames.oldest ≤ (f.frames.send msg).oldest := by
    simp only [Channel.oldest, Channel.send_log, Channel.send_capacity, List.length_append,
      List.length_singleton]
    omega
  cases htask : f.task with
  | reading pos => simp only [Feed.unread, htask]; omega
  | handling msg pos => simp only [Feed.unread, htask]; omega
  | spawned => simp [Feed.unread, htask]
  | panicked => simp [Feed.unread, htask]

theorem notification?_panic {msg : Message} (h : routeMessage cfg.profile cfg.serde msg = .panic) :
    cfg.notification? msg = none := by simp only [FeedConfig.notification?, h]

theorem shifts_panic {f : Feed} {msg : Message} {pos : Nat} (htask : f.task = .handling msg pos)
    (hroute : routeMessage cfg.profile cfg.serde msg = .panic)
    (hunread : f.unread ≤ f.frames.log.length) :
    Shifts cfg f { f with task := .panicked } [] := by
  refine ⟨by simp, rfl, ?_, hunread⟩
  simp [Feed.inHand, htask, notification?_panic hroute]

theorem FeedInv.unread_step {f f' : Feed} {a : FeedAction} (h : FeedInv cfg f)
    (hs : FeedStep cfg f a f') :
    f'.unread ≤ f'.frames.log.length := by
  have hunread := h.unread
  cases hs with
  | receive =>
    rename_i msg
    have hold := (f.frames.send msg).oldest_le
    cases htask : f.task with
    | reading pos =>
      simp only [Feed.unread, htask, Channel.send_log, List.length_append] at hunread hold ⊢; omega
    | handling _ pos =>
      simp only [Feed.unread, htask, Channel.send_log, List.length_append] at hunread hold ⊢; omega
    | spawned => simp [Feed.unread]
    | panicked => simp [Feed.unread]
  | start => simpa [Feed.unread, Channel.tail] using f.frames.oldest_le
  | item htask hr =>
    have hle := (Channel.recv_le hr).2
    simpa [Feed.unread] using ⟨hle, f.frames.oldest_le⟩
  | lagged htask hr =>
    have hle := (Channel.recv_le hr).2
    simpa [Feed.unread] using ⟨hle, f.frames.oldest_le⟩
  | handled htask =>
    rename_i msg pos
    simp only [Feed.unread, htask] at hunread
    unfold Feed.handle
    split
    · simpa [Feed.unread] using hunread
    · exact Nat.le_refl _
    · simpa [Feed.unread] using hunread
  | subscribe => exact hunread
  | poll => exact hunread

/-- `handle_message` on a frame that does not make it panic. -/
theorem Tracks.handle {f : Feed} {st : Stream} {msg : Message} {pos : Nat} (h : Tracks cfg f st)
    (htask : f.task = .handling msg pos)
    (hroute : routeMessage cfg.profile cfg.serde msg ≠ .panic) :
    Tracks cfg (f.handle cfg msg pos) st := by
  have hbalance := h.balance
  have hunread : f.unread = max pos f.frames.oldest := by simp only [Feed.unread, htask]
  simp only [Feed.onTheWay, Feed.inHand, htask, hunread] at hbalance
  unfold Feed.handle
  split
  · rename_i n hn
    have hnot : cfg.notification? msg = some n := by simp only [FeedConfig.notification?, hn]
    have hstart : st.start ≤ f.notifications.log.length := Nat.le_trans h.reads.le h.sent
    refine ⟨?_, h.reads.append [n], ?_, h.received, fun j hlo => h.early j (hunread ▸ hlo)⟩
    · rw [hnot, Option.toList_some] at hbalance
      simp only [Feed.onTheWay, Feed.inHand, Feed.unread, Channel.send_log,
        List.drop_append_of_le_length hstart,
        List.nil_append, List.append_assoc]
      exact hbalance
    · rw [Channel.send_log, List.length_append]
      exact Nat.le_add_right_of_le h.sent
  · exact absurd ‹_› hroute
  · rename_i hno _
    have hnot : cfg.notification? msg = none := by
      unfold FeedConfig.notification?
      split
      · exact absurd ‹_› (hno _)
      · rfl
    refine h.same rfl rfl ?_ (Nat.le_of_eq (by simp only [Feed.unread, htask]))
    simp only [Feed.onTheWay, Feed.inHand, Feed.unread, htask, hnot, Option.toList_none]
    rfl

theorem onTheWay_item (cfg : FeedConfig) {f : Feed} {pos pos' : Nat} {msg : Message}
    (htask : f.task = .reading pos) (hr : f.frames.recv pos = some (.item msg, pos')) :
    Feed.onTheWay cfg { f with task := .handling msg pos' } = f.onTheWay cfg ∧
      f.unread ≤ Feed.unread { f with task := .handling msg pos' } := by
  obtain ⟨hold, hmsg, rfl⟩ := Channel.recv_item hr
  obtain ⟨hlt, hget⟩ := List.getElem?_eq_some_iff.1 hmsg
  have hpos : max pos f.frames.oldest = pos := by omega
  have hpos' : max (pos + 1) f.frames.oldest = pos + 1 := by omega
  simp only [Feed.onTheWay, Feed.inHand, Feed.unread, htask, hpos, hpos', Feed.framesFrom,
    List.nil_append]
  rw [List.drop_eq_getElem_cons hlt, hget]
  refine ⟨?_, by omega⟩
  cases hn : cfg.notification? msg with
  | none => rw [List.filterMap_cons_none hn]; rfl
  | some n => rw [List.filterMap_cons_some hn]; rfl

theorem FeedInv.step {f f' : Feed} {a : FeedAction} (h : FeedInv cfg f)
    (hok : KeepsNotifications cfg f a)
    (hs : FeedStep cfg f a f') : FeedInv cfg f' := by
  refine ⟨h.unread_step hs, ?_⟩
  cases hs with
  | receive => exact fun st hst =>
      (h.tracks st hst).shift h.unread (shifts_receive f _) (hok st hst)
  | start htask =>
    refine fun st hst => (h.tracks st hst).same rfl rfl ?_ ?_
    · have hmax : max f.frames.tail f.frames.oldest = f.frames.log.length :=
        Nat.max_eq_left f.frames.oldest_le
      simp only [Feed.onTheWay, Feed.inHand, Feed.unread, htask, hmax]
      rfl
    · simp only [Feed.unread, htask]
      exact Nat.le_max_left _ _
  | item htask hr =>
    obtain ⟨hway, hunread⟩ := onTheWay_item cfg htask hr
    exact fun st hst => (h.tracks st hst).same rfl rfl hway hunread
  | lagged htask hr =>
    rename_i pos pos' n
    -- the receiver goes on where the channel begins
    have hmax : max pos f.frames.oldest = max pos' f.frames.oldest := by
      rcases Channel.recv_cases hr with ⟨_, hn, -⟩ | ⟨_, -, _, hpos, hold⟩
      · cases hn
      · omega
    refine fun st hst => (h.tracks st hst).same rfl rfl ?_ ?_
    · simp only [Feed.onTheWay, Feed.inHand, Feed.unread, htask, hmax]
      rfl
    · simp only [Feed.unread, htask, hmax]
      exact Nat.le_refl _
  | handled htask =>
    rename_i msg pos
    intro st hst
    have hst' : st ∈ f.streams := by
      unfold Feed.handle at hst
      split at hst <;> exact hst
    by_cases hroute : routeMessage cfg.profile cfg.serde msg = .panic
    · have hlost : f.LosesNone cfg { f with task := .panicked } := by
        simp only [KeepsNotifications, htask] at hok
        exact hok hroute
      have hpanic : f.handle cfg msg pos = { f with task := .panicked } := by
        simp only [Feed.handle, hroute]
      rw [hpanic]
      exact (h.tracks st hst').shift h.unread (shifts_panic htask hroute h.unread) (hlost st hst')
    · exact (h.tracks st hst').handle htask hroute
  | subscribe =>
    intro st hst
    rcases List.mem_append.1 hst with hst | hst
    · have htracks := h.tracks st hst
      exact ⟨htracks.balance, htracks.reads, htracks.sent, htracks.received, htracks.early⟩
    · rw [List.mem_singleton] at hst
      subst hst
      have hway : f.onTheWay cfg = [] := hok
      have hfrom : f.framesFrom cfg f.unread = [] := (List.append_eq_nil_iff.1 hway).2
      refine ⟨?_, .nil, Nat.le_refl _, Nat.le_refl _, fun j hlo hj m hm => ?_⟩
      · show f.framesFrom cfg f.frames.tail = f.notifications.log.drop f.notifications.tail ++
          f.onTheWay cfg
        simp [hway, Feed.framesFrom, Channel.tail]
      · refine List.filterMap_eq_nil_iff.1 hfrom m (List.mem_of_getElem? (i := j - f.unread) ?_)
        have hj' : f.unread + (j - f.unread) = j := Nat.add_sub_of_le hlo
        rw [List.getElem?_drop, hj']
        exact hm
  | poll hst hr =>
    rename_i i r st pos'
    intro st' hst'
    rcases List.mem_or_eq_of_mem_set hst' with hst' | rfl
    · have htracks := h.tracks st' hst'
      exact ⟨htracks.balance, htracks.reads, htracks.sent, htracks.received, htracks.early⟩
    · have htracks := h.tracks st (List.mem_of_getElem? hst)
      exact ⟨htracks.balance, htracks.reads.recv hr, (Channel.recv_le hr).2, htracks.received,
        htracks.early⟩

theorem FeedRun.inv {h : List FeedAction} {f : Feed}
    (hr : (feed cfg).Run (KeepsNotifications cfg) h f) :
    FeedInv cfg f := by
  refine Machine.Run.invariant (P := fun _ f => FeedInv cfg f)
    ⟨Nat.le_refl _, fun st hst => by cases hst⟩
    (fun _ _ _ _ _ h hok hs => h.step hok (feed_cases hs)) hr

/-- A step after which every stream's account is right has lost nothing. -/
theorem keepsNotifications_of_accounted {f f' : Feed} {a : FeedAction} (h : FeedInv cfg f)
    (hs : f.step cfg a = some f') (hacc : ∀ st ∈ f'.streams, Accounted cfg f' st) :
    KeepsNotifications cfg f a := by
  cases feed_cases hs with
  | receive => exact fun st hst =>
      (h.tracks st hst).unshift h.unread (shifts_receive f _) (hacc st hst)
  | handled htask =>
    rename_i msg pos
    simp only [KeepsNotifications, htask]
    intro hroute st hst
    have hpanic : f.handle cfg msg pos = { f with task := .panicked } := by
      simp only [Feed.handle, hroute]
    rw [hpanic] at hacc
    exact (h.tracks st hst).unshift h.unread (shifts_panic htask hroute h.unread) (hacc st hst)
  | subscribe =>
    -- a new stream is owed nothing
    have hnew := (hacc _ (List.mem_append_right _ List.mem_cons_self)).total
    have howed : f.framesFrom cfg f.frames.tail = [] := by simp [Feed.framesFrom, Channel.tail]
    simp only [Feed.owed, Feed.framesFrom] at hnew howed
    rw [howed] at hnew
    have hway : Feed.onTheWay cfg { f with streams := f.streams ++
        [⟨f.notifications.tail, f.frames.tail, f.notifications.tail, []⟩] } = f.onTheWay cfg := rfl
    simp only [Feed.buffered, List.length_nil, hway] at hnew
    exact List.eq_nil_of_length_eq_zero (by omega)
  | start => trivial
  | item => trivial
  | lagged => trivial
  | poll => trivial

/-- **When no notification is lost silently**: in just the runs in which, while there are streams,
the frames channel overwrites no notification that `incoming_task` has not read, the task is there
when one is received and does not panic while one is unread, and in which no stream is made while an
earlier notification is on its way. Then every stream accounts for each notification received after
it was made. -/
theorem notifications_accounted_iff {h : List FeedAction} {f : Feed}
    (hr : (feed cfg).Run Machine.always h f) :
    (feed cfg).Run (KeepsNotifications cfg) h f ↔
      ∀ h1 h2 f1, h = h1 ++ h2 → (feed cfg).Run Machine.always h1 f1 → ∀ st ∈ f1.streams,
        Accounted cfg f1 st := by
  constructor
  · rintro hkeeps h1 h2 f1 rfl hr1 st hst
    obtain ⟨f1', hr1', -⟩ := hkeeps.split
    obtain rfl := hr1.unique hr1'
    exact ((FeedRun.inv hr1').tracks st hst).accounted
  · intro hacc
    induction hr with
    | nil => exact .nil
    | snoc hr _ hs ih =>
      have hkeeps := ih fun h1 h2 f1 heq => hacc h1 (h2 ++ [_]) f1 (by rw [heq, List.append_assoc])
      refine .snoc hkeeps ?_ hs
      exact keepsNotifications_of_accounted (FeedRun.inv hkeeps) hs
        (hacc _ [] _ (by simp) (hr.snoc trivial hs))

/-- A frames channel that retains 16 frames, and a `notification_channel` that retains 128. -/
def feed16 : FeedConfig := ⟨.checked, ⟨fun _ => true⟩, 16, 128, by decide⟩

def tick : Message := .Text "\x7b\"jsonrpc\":\"2.0\",\"method\":\"tick\"\x7d"

/-- The task is quick, and the stream is slow: it misses the first of 129 notifications, and says
so. -/
def slowStream : List FeedAction :=
  [.start, .subscribe] ++
    (List.replicate 129 [.receive tick, .recv (.item tick), .handled]).flatten ++
    [.poll 0 (.lagged 1), .poll 0 (.item ⟨"tick", none⟩)]

theorem notifications_accounted_iff_slow :
    ∃ f, (feed feed16).Run (KeepsNotifications feed16) slowStream f ∧
      ∃ st ∈ f.streams, st.yielded = [.lagged 1, .item ⟨"tick", none⟩] ∧
        Accounted feed16 f st := by
  have hrun : ((feed feed16).execOk (KeepsNotifications feed16) (Feed.init feed16) slowStream).any
      (fun f => f.streams.any fun st => st.yielded = [.lagged 1, .item ⟨"tick", none⟩]) = true := by
    decide +kernel
  obtain ⟨f, hf, hend⟩ := (Option.any_eq_true _ _).1 hrun
  obtain ⟨st, hst, hyielded⟩ := List.any_eq_true.1 hend
  have hr := Machine.Run.of_execOk hf
  exact ⟨f, hr, st, hst, of_decide_eq_true hyielded,
    (notifications_accounted_iff hr.any).1 hr _ [] f (by simp) hr.any st hst⟩

/-- The stream is quick, and the task is slow: the frames channel overwrites the first of 17
notifications. -/
def slowTask : List FeedAction :=
  [.start, .subscribe] ++ List.replicate 17 (.receive tick) ++ [.recv (.lagged 1)] ++
    (List.replicate 16 [.recv (.item tick), .handled, .poll 0 (.item ⟨"tick", none⟩)]).flatten

/-- **The stream yields 16 notifications of 17, nothing is left to come, and no
`NotificationsMissed` says so.** -/
theorem overwritten_frame_is_silent : ∃ f, (feed feed16).Run Machine.always slowTask f ∧
    ∃ st ∈ f.streams, st.yielded = List.replicate 16 (.item ⟨"tick", none⟩) ∧
      (f.owed feed16 st).length = 17 ∧ f.buffered feed16 st = 0 ∧ f.unreported st = 0 ∧
      ¬ Accounted feed16 f st := by
  have hrun : ((feed feed16).exec (Feed.init feed16) slowTask).any (fun f => f.streams.any fun st =>
      st.yielded = List.replicate 16 (.item ⟨"tick", none⟩) ∧ (f.owed feed16 st).length = 17 ∧
        f.buffered feed16 st = 0 ∧ f.unreported st = 0) = true := by decide +kernel
  obtain ⟨f, hf, hend⟩ := (Option.any_eq_true _ _).1 hrun
  obtain ⟨st, hst, hcheck⟩ := List.any_eq_true.1 hend
  obtain ⟨hyielded, howed, hbuffered, hunreported⟩ := of_decide_eq_true hcheck
  refine ⟨f, Machine.Run.of_exec hf, st, hst, hyielded, howed, hbuffered, hunreported,
    fun hacc => ?_⟩
  have htotal := hacc.total
  rw [hyielded, howed, hbuffered, hunreported] at htotal
  exact absurd htotal (by decide)

end JsonRpc.Ws
