import JsonRpcClient.Concurrent.Product
import JsonRpcClient.Ws.Disconnect
import JsonRpcClient.Ws.Notifications

/-!
# One `WsClient`, whole (client.rs, handles.rs)

`Disconnect.lean` has the callers, the two maps, `disconnect_task` and the connections; frames come
from nowhere there. `Notifications.lean` has the frames, the receiver of `incoming_task` and the
streams; nobody waits for a reply there. Here they run side by side and `incoming_task` is one task:
it handles the frame it has read, and reads the next one when it has answered on the sender it took.

| step | there |
| --- | --- |
| `link`   | the callers, `fail_pending_requests`, `disconnect_task` and the connections; the `channel.send` and `tx.send` of `handle_message` (handles.rs:138, 151, 158) |
| `feed`   | the frames the transport receives, `messages.recv()` (handles.rs:185), the streams |
| `handle` | `handle_message` (handles.rs:84) up to the sender it takes; for a notification, all of it |

`frames_accounted` is what `incoming_task` makes of the transport's frames in every run: each is
handled once and in its order, or counted in a `Lagged`, or still to come.
-/

namespace JsonRpc.Ws
open Json Arrange Oneshot Broadcast
open scoped List

variable {R : ResponseTypes}

/-- A client, and how much the three broadcast channels retain. -/
structure SessionConfig (R : ResponseTypes) extends Config R where
  /-- of the transport's event channel -/
  events : Nat
  /-- of its channel of received frames -/
  frames : Nat
  /-- of `notification_channel` -/
  retained : Nat
  capacity_le : NOTIFICATION_CHANNEL_CAPACITY ≤ retained

def SessionConfig.feed (cfg : SessionConfig R) : FeedConfig :=
  ⟨cfg.profile, cfg.serde, cfg.frames, cfg.retained, cfg.capacity_le⟩

abbrev Session := Link × Feed

namespace Session

abbrev link (s : Session) : Link := s.1
abbrev feed (s : Session) : Feed := s.2
abbrev core (s : Session) : State := s.link.core

end Session

inductive SessionAction where
  | link (a : LinkAction)
  | feed (a : FeedAction)
  | handle (msg : Message)

/-- `handle_message` has returned. -/
def State.idle (s : State) : Bool :=
  (s.unary.hand .incoming).isNone && (s.batch.hand .incoming).isNone

namespace SessionAction

def onLink : SessionAction → Option LinkAction
  | link a => some a
  | feed _ => none
  | handle msg => some (.client (.handle msg))

def onFeed : SessionAction → Option FeedAction
  | link _ => none
  | feed a => some a
  | handle _ => some .handled

/-- The two steps that are one here are not taken by one side alone, the frame that is handled is
the one that was read, and the next one is read after `handle_message` has returned. -/
def guard (l : Link) (f : Feed) : SessionAction → Bool
  | link (.client (.handle _)) => false
  | link _ => true
  | feed .handled => false
  | feed (.recv _) => l.core.idle
  | feed _ => true
  | handle msg =>
    match f.task with
    | .handling msg' _ => msg' = msg
    | _ => false

/-- The part of the client without its surroundings. -/
def onClient : SessionAction → Option Action
  | link a => a.onClient
  | feed _ => none
  | handle msg => some (.handle msg)

end SessionAction

def session (cfg : SessionConfig R) : Machine Session SessionAction :=
  (link cfg.toConfig cfg.events).join (feed cfg.feed)
    ⟨SessionAction.onLink, SessionAction.onFeed, SessionAction.guard⟩

variable {cfg : SessionConfig R} {ok : Session → SessionAction → Prop} {h : List SessionAction}
  {s s' : Session}

/-- A step of the session as a relation, one constructor for each way it can go. -/
inductive SessionStep (cfg : SessionConfig R) : Session → SessionAction → Session → Prop
  | link {l l' f a} (hno : ∀ msg, a ≠ .client (.handle msg)) (hs : LinkStep cfg.toConfig l a l') :
      SessionStep cfg (l, f) (.link a) (l', f)
  | feed {l f f' a} (hno : a ≠ .handled) (hidle : ∀ r, a = .recv r → l.core.idle = true)
      (hs : FeedStep cfg.feed f a f') : SessionStep cfg (l, f) (.feed a) (l, f')
  | handle {l f core msg pos} (htask : f.task = .handling msg pos)
      (hs : l.core.step cfg.toConfig (.handle msg) = some core) :
      SessionStep cfg (l, f) (.handle msg)
        (l.withCore core (.handle msg), f.handle cfg.feed msg pos)

theorem session_cases {a : SessionAction} (h : (session cfg).step s a = some s') :
    SessionStep cfg s a s' := by
  obtain ⟨hguard, hlink, hfeed⟩ := Machine.join_step.1 h
  obtain ⟨l, f⟩ := s
  obtain ⟨l', f'⟩ := s'
  cases a with
  | link a =>
    obtain rfl := Option.some.inj hfeed
    refine .link ?_ (link_cases hlink)
    rintro msg rfl
    cases hguard
  | feed a =>
    obtain rfl := Option.some.inj hlink
    refine .feed ?_ ?_ (feed_cases hfeed)
    · rintro rfl
      cases hguard
    · rintro r rfl
      exact hguard
  | handle msg =>
    simp only [SessionAction.guard] at hguard
    split at hguard
    · rename_i msg' pos htask
      obtain rfl := of_decide_eq_true hguard
      have hstep : FeedStep cfg.feed f .handled f' := feed_cases hfeed
      have hl : LinkStep cfg.toConfig l (.client (.handle msg')) l' := link_cases hlink
      cases hl with
      | client _ hcore =>
        cases hstep with
        | handled htask' =>
          rw [htask] at htask'
          cases htask'
          exact .handle htask hcore
    · cases hguard

/-! ## The runs of the parts -/

theorem SessionRun.link (hr : (session cfg).Run ok h s) :
    (Ws.link cfg.toConfig cfg.events).Run Machine.always (h.filterMap SessionAction.onLink) s.link :=
  Machine.Run.left hr

theorem SessionRun.feed (hr : (session cfg).Run ok h s) :
    (Ws.feed cfg.feed).Run Machine.always (h.filterMap SessionAction.onFeed) s.feed :=
  Machine.Run.right hr

theorem SessionRun.client (hr : (session cfg).Run ok h s) :
    (Ws.client cfg.toConfig).Run Machine.always (h.filterMap SessionAction.onClient) s.core := by
  have hclient : h.filterMap SessionAction.onClient =
      (h.filterMap SessionAction.onLink).filterMap LinkAction.onClient := by
    rw [List.filterMap_filterMap]
    apply List.filterMap_congr
    intro a _
    cases a <;> rfl
  rw [hclient]
  exact LinkRun.client (SessionRun.link hr)

/-! ## What becomes of the frames -/

/-- What `messages.recv()` has returned to `incoming_task`. -/
def reads (h : List SessionAction) : List (Recv Message) :=
  h.filterMap fun | .feed (.recv r) => some r | _ => none

/-- The frames `handle_message` has been called on. -/
def handled (h : List SessionAction) : List Message :=
  h.filterMap fun | .handle msg => some msg | _ => none

namespace IncomingTask

/-- The frame that is read and not handled yet. -/
def inHand : IncomingTask → List Message
  | handling msg _ => [msg]
  | _ => []

/-- Its receiver is at `q`; a task that has panicked has none. -/
def At : IncomingTask → Nat → Prop
  | reading pos, q => pos = q
  | handling _ pos, q => pos = q
  | spawned, _ => False
  | panicked, _ => True

end IncomingTask

/-- `incoming_task` subscribed when the transport had received `p` frames. -/
def Subscribed (cfg : SessionConfig R) (h : List SessionAction) (p : Nat) : Prop :=
  ∃ h1 h2 s1, h = h1 ++ .feed .start :: h2 ∧ (session cfg).Run Machine.always h1 s1 ∧
    s1.feed.frames.tail = p

/-- The account of the frames from `p`, where the task subscribed, to `q`, where it is. -/
structure FrameAccount (cfg : SessionConfig R) (h : List SessionAction) (s : Session) (p q : Nat) :
    Prop where
  subscribed : Subscribed cfg h p
  position : s.feed.task.At q
  /-- it has read them in their order, each once, or was told it lost them -/
  read : Reads s.feed.frames.log p (reads h) q
  /-- it has handled what it has read, in that order, but for the one in its hand -/
  order : items (reads h) = handled h ++ s.feed.task.inHand
  /-- `notification_channel` got the notifications among them, and nothing else -/
  notifications : s.feed.notifications.log = (handled h).filterMap cfg.feed.notification?

/-- Nothing has been read. -/
structure Unstarted (h : List SessionAction) (s : Session) : Prop where
  task : s.feed.task = .spawned
  noReads : reads h = []
  noneHandled : handled h = []
  notifications : s.feed.notifications.log = []

@[simp] theorem reads_append (h h' : List SessionAction) : reads (h ++ h') = reads h ++ reads h' :=
  List.filterMap_append

@[simp] theorem handled_append (h h' : List SessionAction) :
    handled (h ++ h') = handled h ++ handled h' := List.filterMap_append

theorem Subscribed.append {p : Nat} (hp : Subscribed cfg h p) (h' : List SessionAction) :
    Subscribed cfg (h ++ h') p := by
  obtain ⟨h1, h2, s1, rfl, hr1, hp⟩ := hp
  exact ⟨h1, h2 ++ h', s1, by simp, hr1, hp⟩

/-- A step in which the task reads nothing and handles nothing. -/
theorem FrameAccount.keep {p q : Nat} {a : SessionAction} {added : List Message}
    (hacc : FrameAccount cfg h s p q)
    (hreads : reads [a] = []) (hhandled : handled [a] = [])
    (htask : s'.feed.task = s.feed.task)
    (hlog : s'.feed.frames.log = s.feed.frames.log ++ added)
    (hnot : s'.feed.notifications.log = s.feed.notifications.log) :
    FrameAccount cfg (h ++ [a]) s' p q where
  subscribed := hacc.subscribed.append _
  position := htask ▸ hacc.position
  read := by
    rw [reads_append, hreads, List.append_nil, hlog]
    exact hacc.read.append added
  order := by
    rw [reads_append, handled_append, hreads, hhandled, List.append_nil, List.append_nil, htask]
    exact hacc.order
  notifications := by
    rw [handled_append, hhandled, List.append_nil, hnot]
    exact hacc.notifications

theorem Unstarted.keep {a : SessionAction} (hno : Unstarted h s) (hreads : reads [a] = [])
    (hhandled : handled [a] = []) (htask : s'.feed.task = s.feed.task)
    (hnot : s'.feed.notifications.log = s.feed.notifications.log) : Unstarted (h ++ [a]) s' where
  task := htask.trans hno.task
  noReads := by rw [reads_append, hno.noReads, hreads, List.append_nil]
  noneHandled := by rw [handled_append, hno.noneHandled, hhandled, List.append_nil]
  notifications := hnot.trans hno.notifications

/-- The position of a task that has subscribed. -/
theorem FrameAccount.reading {p q pos : Nat} (hacc : FrameAccount cfg h s p q)
    (htask : s.feed.task = .reading pos) : pos = q := by
  have hpos := hacc.position
  rwa [htask] at hpos

theorem FrameAccount.read_item {p q pos pos' : Nat} {l : Link} {f : Feed} {msg : Message}
    (hacc : FrameAccount cfg h (l, f) p q) (htask : f.task = .reading pos)
    (hr : f.frames.recv pos = some (.item msg, pos')) :
    FrameAccount cfg (h ++ [.feed (.recv (.item msg))])
      (l, { f with task := .handling msg pos' }) p pos' := by
  obtain rfl := hacc.reading htask
  have hitems := hacc.order
  refine ⟨hacc.subscribed.append _, rfl, ?_, ?_, ?_⟩
  · rw [reads_append]
    exact hacc.read.recv hr
  · rw [reads_append, items_append, handled_append, hitems, htask]
    simp [IncomingTask.inHand, reads, handled, items]
  · rw [handled_append]
    simpa [handled] using hacc.notifications

theorem FrameAccount.read_lagged {p q pos pos' n : Nat} {l : Link} {f : Feed}
    (hacc : FrameAccount cfg h (l, f) p q) (htask : f.task = .reading pos)
    (hr : f.frames.recv pos = some (.lagged n, pos')) :
    FrameAccount cfg (h ++ [.feed (.recv (.lagged n))]) (l, { f with task := .reading pos' })
      p pos' := by
  obtain rfl := hacc.reading htask
  have hitems := hacc.order
  refine ⟨hacc.subscribed.append _, rfl, ?_, ?_, ?_⟩
  · rw [reads_append]
    exact hacc.read.recv hr
  · rw [reads_append, items_append, handled_append, hitems, htask]
    simp [IncomingTask.inHand, reads, handled, items]
  · rw [handled_append]
    simpa [handled] using hacc.notifications

/-- What `handle_message` does to `notification_channel`. -/
theorem Feed.handle_notifications (cfg : FeedConfig) (f : Feed) (msg : Message) (pos : Nat) :
    (f.handle cfg msg pos).notifications.log =
      f.notifications.log ++ (cfg.notification? msg).toList := by
  unfold Feed.handle FeedConfig.notification?
  cases routeMessage cfg.profile cfg.serde msg <;> simp

theorem Feed.handle_frames (cfg : FeedConfig) (f : Feed) (msg : Message) (pos : Nat) :
    (f.handle cfg msg pos).frames = f.frames := by
  unfold Feed.handle
  split <;> rfl

/-- After `handle_message` the task goes on from where it was, or is gone. -/
theorem Feed.handle_task (cfg : FeedConfig) (f : Feed) (msg : Message) (pos : Nat) :
    (f.handle cfg msg pos).task = .reading pos ∨ (f.handle cfg msg pos).task = .panicked := by
  unfold Feed.handle
  split
  · exact .inl rfl
  · exact .inr rfl
  · exact .inl rfl

theorem FrameAccount.handle {p q pos : Nat} {l : Link} {f : Feed} {msg : Message} {core : State}
    (hacc : FrameAccount cfg h (l, f) p q) (htask : f.task = .handling msg pos) :
    FrameAccount cfg (h ++ [.handle msg])
      (l.withCore core (.handle msg), f.handle cfg.feed msg pos) p q := by
  obtain rfl : pos = q := by
    have hpos := hacc.position
    rwa [htask] at hpos
  have hitems : items (reads h) = handled h ++ f.task.inHand := hacc.order
  rw [htask] at hitems
  refine ⟨hacc.subscribed.append _, ?_, ?_, ?_, ?_⟩
  · change (f.handle cfg.feed msg pos).task.At pos
    rcases Feed.handle_task cfg.feed f msg pos with ht | ht <;> rw [ht]
    · rfl
    · trivial
  · change Reads (f.handle cfg.feed msg pos).frames.log p _ pos
    rw [reads_append, Feed.handle_frames]
    simpa [reads] using hacc.read
  · have hnone : (f.handle cfg.feed msg pos).task.inHand = [] := by
      rcases Feed.handle_task cfg.feed f msg pos with ht | ht <;> rw [ht] <;> rfl
    change items (reads (h ++ [.handle msg])) =
      handled (h ++ [.handle msg]) ++ (f.handle cfg.feed msg pos).task.inHand
    rw [reads_append, handled_append, items_append, hitems, hnone]
    simp [reads, handled, items, IncomingTask.inHand]
  · have hnot := hacc.notifications
    change (f.handle cfg.feed msg pos).notifications.log = _
    rw [Feed.handle_notifications, hnot, handled_append, List.filterMap_append]
    congr 1

/-- What one step makes of the account. -/
theorem FrameAccount.step {p q : Nat} {a : SessionAction} (hacc : FrameAccount cfg h s p q)
    (hs : SessionStep cfg s a s') : ∃ q', FrameAccount cfg (h ++ [a]) s' p q' := by
  cases hs with
  | link hno hs => exact ⟨q, hacc.keep rfl rfl rfl (List.append_nil _).symm rfl⟩
  | handle htask hcore => exact ⟨q, hacc.handle htask⟩
  | feed hno hidle hs =>
    cases hs with
    | receive => exact ⟨q, hacc.keep rfl rfl rfl rfl rfl⟩
    | start htask =>
      have hpos := hacc.position
      rw [htask] at hpos
      cases hpos
    | item htask hrecv => exact ⟨_, hacc.read_item htask hrecv⟩
    | lagged htask hrecv => exact ⟨_, hacc.read_lagged htask hrecv⟩
    | handled => exact absurd rfl hno
    | subscribe => exact ⟨q, hacc.keep rfl rfl rfl (List.append_nil _).symm rfl⟩
    | poll => exact ⟨q, hacc.keep rfl rfl rfl (List.append_nil _).symm rfl⟩

theorem Unstarted.step {a : SessionAction} (hr : (session cfg).Run Machine.always h s)
    (hun : Unstarted h s) (hs : SessionStep cfg s a s') :
    Unstarted (h ++ [a]) s' ∨ ∃ p q, FrameAccount cfg (h ++ [a]) s' p q := by
  cases hs with
  | link hno hs => exact .inl (hun.keep rfl rfl rfl rfl)
  | handle htask hcore => exact absurd (hun.task.symm.trans htask) (by simp)
  | @feed l f f' a hno hidle hs =>
    cases hs with
    | receive => exact .inl (hun.keep rfl rfl rfl rfl)
    | start htask =>
      refine .inr ⟨_, _, ⟨h, [], (l, f), rfl, hr, rfl⟩, rfl, ?_, ?_, ?_⟩
      · rw [reads_append, hun.noReads]
        exact .nil
      · rw [reads_append, handled_append, hun.noReads, hun.noneHandled]
        rfl
      · rw [handled_append, hun.noneHandled]
        exact hun.notifications
    | item htask hrecv => exact absurd (hun.task.symm.trans htask) (by simp)
    | lagged htask hrecv => exact absurd (hun.task.symm.trans htask) (by simp)
    | handled => exact absurd rfl hno
    | subscribe => exact .inl (hun.keep rfl rfl rfl rfl)
    | poll => exact .inl (hun.keep rfl rfl rfl rfl)

theorem SessionRun.account (hr : (session cfg).Run Machine.always h s) :
    Unstarted h s ∨ ∃ p q, FrameAccount cfg h s p q := by
  induction hr with
  | nil => exact .inl ⟨rfl, rfl, rfl, rfl⟩
  | snoc hr hok hs ih =>
    rcases ih with hun | ⟨p, q, hacc⟩
    · exact hun.step hr (session_cases hs)
    · obtain ⟨q', hacc'⟩ := hacc.step (session_cases hs)
      exact .inr ⟨p, q', hacc'⟩

/-- **What becomes of the frames.** In every run, once `incoming_task` has subscribed: from there to
where it is, each frame was read once, at its place, or counted in a `Lagged` there; what it read it
has handled, in that order and once each, but for the frame in its hand; and `notification_channel`
holds the notifications of the frames it handled, and no others. -/
theorem frames_accounted (hr : (session cfg).Run Machine.always h s)
    (hstarted : s.feed.task ≠ .spawned) :
    ∃ p q, FrameAccount cfg h s p q ∧
      p + (handled h).length + s.feed.task.inHand.length + missed (reads h) = q ∧
      ∀ j, p ≤ j → j < q →
        Given s.feed.frames.log p (reads h) j ∨ Missed s.feed.frames.log p (reads h) j := by
  rcases SessionRun.account hr with hun | ⟨p, q, hacc⟩
  · exact absurd hun.task hstarted
  · refine ⟨p, q, hacc, ?_, ?_⟩
    · have htotal := hacc.read.total
      rw [hacc.order, List.length_append] at htotal
      omega
    · intro j hlo hhi
      exact hacc.read.passed hlo hhi

/-- The transport's channel retains two frames. -/
def session2 : SessionConfig basicTypes where
  toConfig := twoCalls
  events := 64
  frames := 2
  retained := 100
  capacity_le := Nat.le_refl _

/-- Three frames arrive while the task is at none of them: it loses the first. -/
def lateFrames : List SessionAction :=
  [.feed .start, .feed (.receive tick), .feed (.receive tick), .feed (.receive (.Text "x")),
    .feed (.recv (.lagged 1)), .feed (.recv (.item tick)), .handle tick,
    .feed (.recv (.item (.Text "x")))]

theorem frames_accounted_late : ∃ s, (session session2).Run Machine.always lateFrames s ∧
    ∃ p q, FrameAccount session2 lateFrames s p q ∧ p + 1 + 1 + 1 = q ∧
      ∀ j, p ≤ j → j < q → Given s.feed.frames.log p (reads lateFrames) j ∨
        Missed s.feed.frames.log p (reads lateFrames) j := by
  have hrun : ((session session2).exec (session session2).init lateFrames).any
      (fun s => s.feed.task = .handling (.Text "x") 3) = true := by decide +kernel
  obtain ⟨s, hs, hend⟩ := (Option.any_eq_true _ _).1 hrun
  have htask := of_decide_eq_true hend
  have hr := Machine.Run.of_exec hs
  obtain ⟨p, q, hacc, hsum, hpassed⟩ := frames_accounted hr (by rw [htask]; simp)
  rw [htask] at hsum
  exact ⟨s, hr, p, q, hacc, hsum, hpassed⟩

end JsonRpc.Ws
