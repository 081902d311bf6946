import JsonRpcClient.Ws.DrainOnce
import JsonRpcClient.Ws.Session

/-!
# Replies and notifications on one connection

`reply_settles`: a reply whose frame the transport has received settles its call when the task gets to
it; until then the frame is ahead of the task, or the task lost it to a `Lagged`, or is gone.

`notifications_precede`: `incoming_task` is one task, so the frames' order is the order of what they
do. When a call gets its reply, the notifications of the frames before that reply are in
`notification_channel` already.
-/

namespace JsonRpc.Ws
open Json Arrange Oneshot Broadcast
open scoped List

variable {R : ResponseTypes} {cfg : SessionConfig R} {h h1 h2 : List SessionAction}
  {s s' s1 : Session} {a : SessionAction} {msg : Message} {c : Nat}

/-- The client's part in a step of the session. -/
theorem SessionStep.client (hs : SessionStep cfg s a s') :
    (∃ b, a.onClient = some b ∧ s.core.step cfg.toConfig b = some s'.core) ∨
      a.onClient = none ∧ s'.core = s.core := by
  cases hs with
  | handle htask hcore => exact .inl ⟨_, rfl, hcore⟩
  | feed => exact .inr ⟨rfl, rfl⟩
  | link hno hs =>
    cases hs with
    | client ha hcore => exact .inl ⟨_, rfl, hcore⟩
    | read htask hrecv hcore => exact .inl ⟨_, rfl, hcore⟩
    | drained htask hcore => exact .inl ⟨_, rfl, hcore⟩
    | @skip since pos pos' r htask hrecv hne =>
      match r, hne with
      | .item .Disconnected, hne => exact absurd rfl hne
      | .item .Other, _ => exact .inr ⟨rfl, rfl⟩
      | .lagged n, _ => exact .inr ⟨rfl, rfl⟩
    | _ => exact .inr ⟨rfl, rfl⟩

/-- Frames are only ever added. -/
theorem SessionStep.frames (hs : SessionStep cfg s a s') :
    ∃ added, s'.feed.frames.log = s.feed.frames.log ++ added := by
  cases hs with
  | link => exact ⟨[], by simp⟩
  | @handle l f core msg pos htask hcore =>
    refine ⟨[], ?_⟩
    change (f.handle cfg.feed msg pos).frames.log = _
    rw [Feed.handle_frames, List.append_nil]
  | feed hno hidle hs =>
    cases hs with
    | @receive msg => exact ⟨[msg], rfl⟩
    | handled => exact absurd rfl hno
    | _ => exact ⟨[], by simp⟩

/-- What a step does to `incoming_task`. -/
inductive TaskStep (s s' : Session) : SessionAction → Prop
  | none {a : SessionAction} (ht' : s'.feed.task = s.feed.task) : TaskStep s s' a
  | start (ht : s.feed.task = .spawned) (ht' : s'.feed.task = .reading s.feed.frames.tail) :
      TaskStep s s' (.feed .start)
  | item {pos : Nat} {msg : Message} (ht : s.feed.task = .reading pos)
      (hlog : s.feed.frames.log[pos]? = some msg) (ht' : s'.feed.task = .handling msg (pos + 1)) :
      TaskStep s s' (.feed (.recv (.item msg)))
  | lagged {pos n : Nat} (ht : s.feed.task = .reading pos)
      (hle : pos + n ≤ s.feed.frames.log.length) (ht' : s'.feed.task = .reading (pos + n)) :
      TaskStep s s' (.feed (.recv (.lagged n)))
  | handle {msg : Message} {pos : Nat} (ht : s.feed.task = .handling msg pos)
      (ht' : s'.feed.task = .reading pos ∨ s'.feed.task = .panicked) : TaskStep s s' (.handle msg)

theorem SessionStep.task (hs : SessionStep cfg s a s') : TaskStep s s' a := by
  cases hs with
  | link => exact .none rfl
  | handle htask => exact .handle htask (Feed.handle_task ..)
  | feed hno hidle hs =>
    cases hs with
    | start htask => exact .start htask rfl
    | item htask hrecv =>
      obtain ⟨-, hlog, rfl⟩ := Channel.recv_item hrecv
      exact .item htask hlog rfl
    | lagged htask hrecv =>
      have hle := (Channel.recv_le hrecv).2
      rcases Channel.recv_cases hrecv with ⟨_, heq, -⟩ | ⟨n, heq, -, rfl, -⟩ <;> cases heq
      exact .lagged htask hle rfl
    | handled => exact absurd rfl hno
    | _ => exact .none rfl

/-- The frame in the task's hand is the one before its position. -/
theorem SessionRun.inHand (hr : (session cfg).Run Machine.always h s) {pos : Nat}
    (htask : s.feed.task = .handling msg pos) :
    ∃ i, pos = i + 1 ∧ s.feed.frames.log[i]? = some msg := by
  refine Machine.Run.invariant (P := fun _ s => ∀ msg pos, s.feed.task = .handling msg pos →
    ∃ i, pos = i + 1 ∧ s.feed.frames.log[i]? = some msg) ?_ ?_ hr msg pos htask
  · intro msg pos h
    cases h
  · intro h s a s' _ ih _ hs msg pos htask
    obtain ⟨added, hlog⟩ := (session_cases hs).frames
    have hkeep : ∀ i : Nat, s.feed.frames.log[i]? = some msg → s'.feed.frames.log[i]? = some msg := by
      intro i hi
      rw [hlog, List.getElem?_append_left (List.getElem?_eq_some_iff.1 hi).1, hi]
    cases (session_cases hs).task with
    | none ht =>
      obtain ⟨i, hi, hmsg⟩ := ih msg pos (ht ▸ htask)
      exact ⟨i, hi, hkeep i hmsg⟩
    | start ht ht' => cases ht'.symm.trans htask
    | item ht hmsg ht' =>
      cases ht'.symm.trans htask
      exact ⟨_, rfl, hkeep _ hmsg⟩
    | lagged ht hle ht' => cases ht'.symm.trans htask
    | handle ht ht' => rcases ht' with ht' | ht' <;> cases ht'.symm.trans htask

theorem SessionRun.frames_append (hr : (session cfg).Run Machine.always (h1 ++ h2) s)
    (hr1 : (session cfg).Run Machine.always h1 s1) :
    ∃ added, s.feed.frames.log = s1.feed.frames.log ++ added := by
  refine hr.segment (P := fun s => ∃ added, s.feed.frames.log = s1.feed.frames.log ++ added) hr1
    ⟨[], by simp⟩ ?_
  rintro p a s2 s3 - - ⟨added, h2⟩ hs
  obtain ⟨added', h3⟩ := (session_cases hs).frames
  exact ⟨added ++ added', by rw [h3, h2, List.append_assoc]⟩

/-- A frame stays where it was received. -/
theorem SessionRun.received (hr1 : (session cfg).Run Machine.always h1 s1)
    (hr : (session cfg).Run Machine.always (h1 ++ .feed (.receive msg) :: h2) s) :
    s.feed.frames.log[s1.feed.frames.tail]? = some msg := by
  rw [List.append_cons] at hr
  obtain ⟨s2, hr2, -⟩ := hr.split
  obtain ⟨added, hlog⟩ := SessionRun.frames_append hr hr2
  obtain ⟨s1', hr1', -, hs⟩ := hr2.last
  obtain rfl := hr1.unique hr1'
  have hstep := session_cases hs
  have hframes : s2.feed.frames.log = s1.feed.frames.log ++ [msg] := by
    clear hs hr1'
    cases hstep with
    | feed hno hidle hs =>
      cases hs with
      | receive => rfl
  rw [hlog, hframes]
  simp [Channel.tail]

/-- The task does not get ahead of the transport. -/
theorem SessionRun.position_le (hr : (session cfg).Run Machine.always h s) {pos : Nat}
    (htask : s.feed.task = .reading pos ∨ ∃ msg, s.feed.task = .handling msg pos) :
    pos ≤ s.feed.frames.log.length := by
  refine Machine.Run.invariant (P := fun _ s => ∀ pos, (s.feed.task = .reading pos ∨
    ∃ msg, s.feed.task = .handling msg pos) → pos ≤ s.feed.frames.log.length) ?_ ?_ hr pos htask
  · rintro pos (h | ⟨msg, h⟩) <;> cases h
  · intro h s a s' _ ih _ hs pos htask
    obtain ⟨added, hlog⟩ := (session_cases hs).frames
    rw [hlog, List.length_append]
    apply Nat.le_add_right_of_le
    cases (session_cases hs).task with
    | none ht => exact ih pos (by rwa [ht] at htask)
    | start ht ht' =>
      rcases htask with h | ⟨msg, h⟩ <;> cases ht'.symm.trans h
      exact Nat.le_refl _
    | item ht hmsg ht' =>
      rcases htask with h | ⟨msg, h⟩ <;> cases ht'.symm.trans h
      exact (List.getElem?_eq_some_iff.1 hmsg).1
    | lagged ht hle ht' =>
      rcases htask with h | ⟨msg, h⟩ <;> cases ht'.symm.trans h
      exact hle
    | handle ht ht' =>
      rcases htask with h | ⟨msg, h⟩ <;> rcases ht' with ht' | ht' <;> cases ht'.symm.trans h
      exact ih _ (.inr ⟨_, ht⟩)

/-! ## A reply that has arrived -/

/-- What the frame at `j`, which answers a call that still waits, is waiting for. -/
inductive Due (cfg : SessionConfig R) (h : List SessionAction) (s : Session) (j : Nat) : Prop
  /-- the task has not read it -/
  | unread {pos} (htask : s.feed.task = .reading pos ∨ ∃ msg, s.feed.task = .handling msg pos)
      (hle : pos ≤ j)
  /-- the task has, and is going to handle it next -/
  | inHand {msg : Message} (htask : s.feed.task = .handling msg (j + 1))
  /-- the channel had overwritten it, and a `Lagged` counted it -/
  | missed {p q} (hacc : FrameAccount cfg h s p q)
      (hmissed : Missed s.feed.frames.log p (reads h) j)
  | panicked (htask : s.feed.task = .panicked)

/-- A frame that would settle a call does so as long as the call is pending. -/
theorem Resolves.later {cfg : Config R} {h1 h2 : List Action} {s : State}
    (hres : Resolves cfg h1 msg c) (hr : (client cfg).Run Machine.always (h1 ++ h2) s)
    (hc : s.Pending c) : Resolves cfg (h1 ++ h2) msg c := by
  obtain ⟨s1, hr1, -⟩ := Machine.Run.split hr
  rcases hres.cases hr1 with ⟨id, v, hroute, hk⟩ | ⟨key, v, hroute, hk⟩
  · rcases hc with ⟨id', hk'⟩ | ⟨key', hk'⟩
    · have hkey := Oneshot.Run.key (tableRuns_unary hr) (tableRun_unary hr1)
        ((Run.safe_unary hr1).keyed id c hk)
      obtain rfl := Option.some.inj (hkey.symm.trans ((Run.safe_unary hr).keyed id' c hk'))
      exact .unary hr hroute hk'
    · have hreq := isRequest_of_pending hr1 hk
      rw [isBatch_of_pending hr hk'] at hreq
      cases hreq
  · rcases hc with ⟨id', hk'⟩ | ⟨key', hk'⟩
    · have hreq := isRequest_of_pending hr hk'
      rw [isBatch_of_pending hr1 hk] at hreq
      cases hreq
    · have hkey := Oneshot.Run.key (tableRuns_batch hr) (tableRun_batch hr1)
        ((Run.safe_batch hr1).keyed key c hk)
      obtain rfl := Option.some.inj (hkey.symm.trans ((Run.safe_batch hr).keyed key' c hk'))
      exact .batch hr hroute hk'

theorem Resolves.pending {cfg : Config R} {h : List Action} {s : State}
    (hres : Resolves cfg h msg c) (hr : (client cfg).Run Machine.always h s) : s.Pending c := by
  rcases hres.cases hr with ⟨id, v, -, hk⟩ | ⟨key, v, -, hk⟩
  · exact .inl ⟨id, hk⟩
  · exact .inr ⟨key, hk⟩

/-- What is pending has registered. -/
theorem inserted_of_pending {cfg : Config R} {h : List Action} {s : State}
    (hr : (client cfg).Run Machine.always h s) (hc : s.Pending c) : .call c .insert ∈ h := by
  rcases hc with ⟨id, hk⟩ | ⟨key, hk⟩
  · have hmapped := (Oneshot.Run.provenanceInv (tableRun_unary hr)).mapped id c hk
    exact (sublist_unary [.prepare c id, .register c] (by simp [Traced]) hmapped).subset
      (by simp [unaryOrigin])
  · have hmapped := (Oneshot.Run.provenanceInv (tableRun_batch hr)).mapped key c hk
    exact (sublist_batch [.prepare c key, .register c] (by simp [Traced]) hmapped).subset
      (by simp [batchOrigin])

/-- A step leaves the frame due, but for the one that handles it. -/
theorem Due.step {j : Nat} (hdue : Due cfg h s j) (hr : (session cfg).Run Machine.always h s)
    (hs : SessionStep cfg s a s')
    (hhandle : ∀ msg, a = .handle msg → s.feed.task = .handling msg (j + 1) →
      s'.feed.task = .panicked) : Due cfg (h ++ [a]) s' j := by
  obtain ⟨added, hlog⟩ := hs.frames
  cases hdue with
  | missed hacc hmissed =>
    obtain ⟨q', hacc'⟩ := hacc.step hs
    refine .missed hacc' ?_
    rw [hlog, reads_append]
    exact hmissed.append added _
  | panicked htask =>
    cases hs.task with
    | none ht => exact .panicked (ht.trans htask)
    | start ht => cases htask.symm.trans ht
    | item ht => cases htask.symm.trans ht
    | lagged ht => cases htask.symm.trans ht
    | handle ht => cases htask.symm.trans ht
  | inHand htask =>
    cases hs.task with
    | none ht => exact .inHand (ht.trans htask)
    | start ht => cases htask.symm.trans ht
    | item ht => cases htask.symm.trans ht
    | lagged ht => cases htask.symm.trans ht
    | handle ht =>
      cases htask.symm.trans ht
      exact .panicked (hhandle _ rfl ht)
  | @unread pos htask hle =>
    -- the position is the same in both of the task's states
    have hreading : ∀ pos', s.feed.task = .reading pos' → pos' = pos := by
      intro pos' ht
      rcases htask with ht' | ⟨msg, ht'⟩ <;> cases ht'.symm.trans ht
      rfl
    cases hs.task with
    | none ht => exact .unread (by rwa [ht]) hle
    | start ht => rcases htask with ht' | ⟨msg, ht'⟩ <;> cases ht'.symm.trans ht
    | @item pos' msg ht hmsg ht' =>
      obtain rfl := hreading pos' ht
      by_cases hlt : pos' < j
      · exact .unread (.inr ⟨msg, ht'⟩) hlt
      · obtain rfl : pos' = j := by omega
        exact .inHand ht'
    | @lagged pos' n ht _ ht' =>
      obtain rfl := hreading pos' ht
      by_cases hlt : pos' + n ≤ j
      · exact .unread (.inl ht') hlt
      rcases SessionRun.account hr with hun | ⟨p, q, hacc⟩
      · cases hun.task.symm.trans ht
      obtain rfl := hacc.reading ht
      obtain ⟨q', hacc'⟩ := hacc.step hs
      refine .missed hacc' ⟨reads h, n, [], pos', by rw [reads_append]; rfl, ?_, hle, by omega⟩
      rw [hlog]
      exact hacc.read.append added
    | @handle msg pos' ht ht' =>
      obtain rfl : pos' = pos := by
        rcases htask with ht'' | ⟨msg', ht''⟩ <;> cases ht''.symm.trans ht
        rfl
      rcases ht' with ht' | ht'
      · exact .unread (.inl ht') hle
      · exact .panicked ht'

/-- What is pending was pending before, or has just registered. -/
theorem SessionStep.pending (hs : SessionStep cfg s a s') (hc : s'.core.Pending c) :
    s.core.Pending c ∨
      a.onClient = some (.call c .insert) ∧
        s.core.step cfg.toConfig (.call c .insert) = some s'.core := by
  rcases hs.client with ⟨b, hb, hstep⟩ | ⟨-, hcore⟩
  · rcases pending_step hstep hc with hc | rfl
    · exact .inl hc
    · exact .inr ⟨hb, hstep⟩
  · exact .inl (hcore ▸ hc)

/-- The frame that was received last is ahead of the task. -/
theorem due_received (hr : (session cfg).Run Machine.always h s) (hstarted : s.feed.task ≠ .spawned)
    (hs : SessionStep cfg s (.feed (.receive msg)) s') :
    Due cfg (h ++ [.feed (.receive msg)]) s' s.feed.frames.tail := by
  have htask : s'.feed.task = s.feed.task := by
    cases hs.task with
    | none ht => exact ht
  cases ht : s.feed.task with
  | spawned => exact absurd ht hstarted
  | reading pos =>
    exact .unread (.inl (htask.trans ht)) (SessionRun.position_le hr (.inl ht))
  | handling msg' pos =>
    exact .unread (.inr ⟨msg', htask.trans ht⟩) (SessionRun.position_le hr (.inr ⟨msg', ht⟩))
  | panicked => exact .panicked (htask.trans ht)

theorem pending_due (hr1 : (session cfg).Run Machine.always h1 s1)
    (hstarted : s1.feed.task ≠ .spawned)
    (hres : Resolves cfg.toConfig (h1.filterMap SessionAction.onClient) msg c)
    (hr : (session cfg).Run Machine.always (h1 ++ .feed (.receive msg) :: h2) s)
    (hc : s.core.Pending c) :
    Due cfg (h1 ++ .feed (.receive msg) :: h2) s s1.feed.frames.tail := by
  induction h2 using List.reverseRecOn generalizing s with
  | nil =>
    obtain ⟨s1', hr1', -, hs⟩ := hr.last
    obtain rfl := hr1.unique hr1'
    exact due_received hr1 hstarted (session_cases hs)
  | append_singleton h2 a ih =>
    rw [List.append_cons, ← List.append_assoc, ← List.append_cons] at hr ⊢
    obtain ⟨s2, hr2, -, hs⟩ := hr.last
    have hclient := SessionRun.client hr2
    rw [List.filterMap_append] at hclient
    have hc2 : s2.core.Pending c := by
      rcases (session_cases hs).pending hc with hc | ⟨-, hinsert⟩
      · exact hc
      · exact (pending_not_inserts hclient (SessionRun.client hr1)
          (hres.pending (SessionRun.client hr1)) hinsert).elim
    refine (ih hr2 hc2).step hr2 (session_cases hs) ?_
    -- handling the frame takes the call's sender out of its map
    rintro msg' rfl htask
    obtain ⟨i, hi, hlog⟩ := SessionRun.inHand hr2 htask
    obtain rfl : s1.feed.frames.tail = i := by omega
    obtain rfl := Option.some.inj ((SessionRun.received hr1 hr2).symm.trans hlog)
    have hlater := hres.later hclient hc2
    have hclient' := SessionRun.client hr
    rw [List.filterMap_append, List.filterMap_append] at hclient'
    obtain ⟨hunary, hbatch⟩ := hlater.gone hclient'
    rcases hc with ⟨id, hk⟩ | ⟨key, hk⟩
    · exact absurd hk (hunary id)
    · exact absurd hk (hbatch key)

/-- **No reply is lost without a trace.** A call is pending, `incoming_task` has subscribed, and the
transport receives a frame that carries the call's key. At any time after that: while the call is
pending, the frame is ahead of the task, in its hand, lost to a `Lagged` or left by a panic; and if
it is not, it was answered, failed with the connection, or given up by its caller. -/
theorem reply_settles (hr1 : (session cfg).Run Machine.always h1 s1)
    (hstarted : s1.feed.task ≠ .spawned)
    (hres : Resolves cfg.toConfig (h1.filterMap SessionAction.onClient) msg c)
    (hr : (session cfg).Run Machine.always (h1 ++ .feed (.receive msg) :: h2) s) :
    (s.core.Pending c → Due cfg (h1 ++ .feed (.receive msg) :: h2) s s1.feed.frames.tail) ∧
    (¬ s.core.Pending c → LeftMaps cfg.toConfig
      ((h1 ++ .feed (.receive msg) :: h2).filterMap SessionAction.onClient) s.core c) := by
  refine ⟨pending_due hr1 hstarted hres hr, fun hno => ?_⟩
  have hclient := SessionRun.client hr1
  refine (pending_or_leftMaps (SessionRun.client hr) ?_).resolve_left hno
  rw [List.filterMap_append]
  exact List.mem_append_left _ (inserted_of_pending hclient (hres.pending hclient))

/-- A request is sent on a connection whose frames the task reads. -/
def requestSent : List SessionAction :=
  [.feed .start, .link (.client (.reserveId 0 ⟨0⟩)), .link (.client (.call 0 .insert)),
    .link (.client (.call 0 .sendOk))]

def replySeven : Message := .Text "\x7b\"jsonrpc\":\"2.0\",\"id\":0,\"result\":7\x7d"

/-- The reply is followed by two frames, which is as much as the channel retains. -/
def replyOverwritten : List SessionAction :=
  requestSent ++ .feed (.receive replySeven) ::
    [.feed (.receive tick), .feed (.receive tick), .feed (.recv (.lagged 1))]

/-- The request goes on waiting. -/
theorem reply_settles_overwritten : ∃ s, (session session2).Run Machine.always replyOverwritten s ∧
    s.core.Pending 0 ∧ s.feed.task = .reading 1 ∧ Due session2 replyOverwritten s 0 := by
  have hrun1 : ((session session2).exec (session session2).init requestSent).any (fun s =>
      s.feed.task = .reading 0 ∧ s.feed.frames.log.length = 0 ∧
        s.core.unary.pending.lookup ⟨0⟩ = some 0) = true := by
    decide +kernel
  obtain ⟨s1, hs1, hend1⟩ := (Option.any_eq_true _ _).1 hrun1
  obtain ⟨htask1, hlen, hpend1⟩ := of_decide_eq_true hend1
  have hrun : ((session session2).exec (session session2).init replyOverwritten).any (fun s =>
      s.feed.task = .reading 1 ∧ s.core.unary.pending.lookup ⟨0⟩ = some 0) = true := by
    decide +kernel
  obtain ⟨s, hs, hend⟩ := (Option.any_eq_true _ _).1 hrun
  obtain ⟨htask, hpend⟩ := of_decide_eq_true hend
  have hr1 := Machine.Run.of_exec hs1
  have hr := Machine.Run.of_exec hs
  have hroute : ∃ v, routeMessage twoCalls.profile twoCalls.serde replySeven = .unary ⟨0⟩ v :=
    ⟨.ok (replySeven, ⟨33, 34⟩), by decide +kernel⟩
  obtain ⟨v, hroute⟩ := hroute
  have hres : Resolves twoCalls _ replySeven 0 :=
    Resolves.unary (SessionRun.client hr1) hroute hpend1
  have hdue := (reply_settles hr1 (by simp [htask1]) hres hr).1 (.inl ⟨_, hpend⟩)
  rw [show s1.feed.frames.tail = 0 from hlen] at hdue
  exact ⟨s, hr, .inl ⟨_, hpend⟩, htask, hdue⟩

/-! ## The order of replies and notifications -/

/-- The call has an answer from a frame. -/
def Answered (s : State) (c : Nat) : Prop :=
  (∃ v, s.unary.phase c = .over (.received v) ∧ v ≠ .error connectionLost) ∨
    ∃ v, s.batch.phase c = .over (.received v) ∧ v ≠ .error connectionLost

theorem Answered.resolved {cfg : Config R} {h : List Action} {s : State}
    (hr : (client cfg).Run Machine.always h s) (hc : Answered s c) :
    ∃ h1 msg h2, h = h1 ++ .handle msg :: h2 ∧ Resolves cfg h1 msg c ∧ .call c .resume ∈ h2 := by
  rcases hc with ⟨v, hphase, hv⟩ | ⟨v, hphase, hv⟩
  · rcases received_unary hr hphase with ⟨id, msg, -, -, h1, h2, heq, hres, -, hafter⟩ | hlost
    · exact ⟨h1, msg, h2, heq, hres, hafter.subset (by simp)⟩
    · exact absurd hlost hv
  · have hrun := tableRun_batch hr
    obtain ⟨a, key, t1, t2, hhist, hst, -, -⟩ := Oneshot.Run.provenance hrun hphase
    rw [hhist] at hrun
    rcases received_batch hr (hst.key_eq hrun) hphase with ⟨msg, -, h1, h2, heq, hres, -, hafter⟩ |
      hlost
    · exact ⟨h1, msg, h2, heq, hres, hafter.subset (by simp)⟩
    · exact absurd hlost hv

/-- A step of the client that is not `disconnect_task`'s is that step, or the handling of a frame. -/
theorem eq_of_onClient {b : Action} (hb : a.onClient = some b) (htask : b.ofTask = false) :
    a = .link (.client b) ∨ ∃ msg, a = .handle msg ∧ b = .handle msg := by
  cases a with
  | feed => cases hb
  | handle msg => exact .inr ⟨msg, rfl, (Option.some.inj hb).symm⟩
  | link a =>
    cases a with
    | client b' => exact .inl (congrArg (SessionAction.link ∘ LinkAction.client) (Option.some.inj hb))
    | recv r =>
      match r with
      | .item .Disconnected => cases hb; cases htask
      | .item .Other => cases hb
      | .lagged n => cases hb
    | drained => cases hb; cases htask
    | _ => cases hb

theorem SessionStep.handling (hs : SessionStep cfg s (.handle msg) s') :
    ∃ pos, s.feed.task = .handling msg pos := by
  cases hs with
  | handle htask => exact ⟨_, htask⟩

/-- Frames are handled by the task alone. -/
theorem SessionRun.handle_of_client (hr : (session cfg).Run Machine.always h s)
    {b1 b2 : List Action}
    (hh : h.filterMap SessionAction.onClient = b1 ++ .handle msg :: b2) :
    ∃ h1 h2, h = h1 ++ .handle msg :: h2 ∧ h1.filterMap SessionAction.onClient = b1 ∧
      h2.filterMap SessionAction.onClient = b2 := by
  obtain ⟨h1, x, h2, rfl, hx, hb1, hb2⟩ := Machine.split_of_filterMap hh
  rcases eq_of_onClient hx rfl with rfl | ⟨msg', rfl, heq⟩
  · obtain ⟨s1, s2, s3, -, -, hs⟩ := hr.of_mem (List.mem_append_right h1 List.mem_cons_self)
    cases session_cases hs with
    | link hno => exact absurd rfl (hno msg)
  · cases heq
    exact ⟨h1, h2, rfl, hb1, hb2⟩

/-- What resolves a call is no notification. -/
theorem Resolves.not_notification {h : List Action} (hres : Resolves cfg.toConfig h msg c) :
    cfg.feed.notification? msg = none := by
  obtain ⟨s, -, hk⟩ := hres
  unfold FeedConfig.notification?
  split
  · rename_i n hroute
    have hroute : routeMessage cfg.profile cfg.serde msg = .notification n := hroute
    simp only [hroute] at hk
  · rfl

/-- **Replies do not overtake notifications.** A call that has its answer got it from a frame that
`incoming_task` handled before the call resumed, at a time when all notifications of the frames
before that one were in `notification_channel`, in the frames' order, but for those in frames that
the task was told it lost. -/
theorem notifications_precede (hr : (session cfg).Run Machine.always h s)
    (hc : Answered s.core c) :
    ∃ h1 msg h2 s1 p j, h = h1 ++ .handle msg :: h2 ∧ (session cfg).Run Machine.always h1 s1 ∧
      Resolves cfg.toConfig (h1.filterMap SessionAction.onClient) msg c ∧
      .link (.client (.call c .resume)) ∈ h2 ∧
      s1.feed.frames.log[j]? = some msg ∧ FrameAccount cfg h1 s1 p (j + 1) ∧
      ∀ i m n, p ≤ i → i < j → s1.feed.frames.log[i]? = some m →
        cfg.feed.notification? m = some n →
        n ∈ s1.feed.notifications.log ∨ Missed s1.feed.frames.log p (reads h1) i := by
  obtain ⟨b1, msg, b2, hh, hres, hresume⟩ := hc.resolved (SessionRun.client hr)
  obtain ⟨h1, h2, rfl, rfl, rfl⟩ := SessionRun.handle_of_client hr hh
  obtain ⟨s1, hr1, -⟩ := hr.split
  have hr' := hr
  rw [List.append_cons] at hr'
  obtain ⟨s2, hr2, -⟩ := hr'.split
  obtain ⟨s1', hr1', -, hs⟩ := hr2.last
  obtain rfl := hr1.unique hr1'
  obtain ⟨pos, htask⟩ := (session_cases hs).handling
  obtain ⟨j, rfl, hlog⟩ := SessionRun.inHand hr1 htask
  rcases SessionRun.account hr1 with hun | ⟨p, q, hacc⟩
  · cases hun.task.symm.trans htask
  obtain rfl : j + 1 = q := by
    have hpos := hacc.position
    rwa [htask] at hpos
  refine ⟨h1, msg, h2, s1, p, j, rfl, hr1, hres, ?_, hlog, hacc, ?_⟩
  · obtain ⟨x, hx, hxc⟩ := List.mem_filterMap.1 hresume
    rcases eq_of_onClient hxc rfl with rfl | ⟨_, -, heq⟩
    · exact hx
    · cases heq
  · intro i m n hlo hhi hm hn
    rcases hacc.read.passed hlo (by omega) with hgiven | hmissed
    · left
      obtain ⟨m', l1, l2, hm', hitems⟩ := hgiven.items
      obtain rfl := Option.some.inj (hm.symm.trans hm')
      have hmem : m ∈ handled h1 ++ [msg] := by
        have horder := hacc.order
        rw [htask] at horder
        rw [← show items (reads h1) = handled h1 ++ [msg] from horder, hitems]
        simp
      rw [hacc.notifications]
      refine List.mem_filterMap.2 ⟨m, (List.mem_append.1 hmem).resolve_right ?_, hn⟩
      -- the frame that answers the call holds none
      intro hmem
      obtain rfl := List.mem_singleton.1 hmem
      rw [hres.not_notification] at hn
      cases hn
    · exact .inr hmissed

/-- A notification arrives before the reply. -/
def tickThenReply : List SessionAction :=
  requestSent ++ [.feed (.receive tick), .feed (.receive replySeven), .feed (.recv (.item tick)),
    .handle tick, .feed (.recv (.item replySeven)), .handle replySeven, .link (.client .reply),
    .link (.client (.call 0 .resume))]

theorem notifications_precede_tick : ∃ s, (session session2).Run Machine.always tickThenReply s ∧
    Answered s.core 0 ∧
    ∃ h1 msg h2 s1 p j, tickThenReply = h1 ++ .handle msg :: h2 ∧
      (session session2).Run Machine.always h1 s1 ∧
      Resolves session2.toConfig (h1.filterMap SessionAction.onClient) msg 0 ∧
      .link (.client (.call 0 .resume)) ∈ h2 ∧
      s1.feed.frames.log[j]? = some msg ∧ FrameAccount session2 h1 s1 p (j + 1) ∧
      ∀ i m n, p ≤ i → i < j → s1.feed.frames.log[i]? = some m →
        session2.feed.notification? m = some n →
        n ∈ s1.feed.notifications.log ∨ Missed s1.feed.frames.log p (reads h1) i := by
  have hrun : ((session session2).exec (session session2).init tickThenReply).any (fun s =>
      s.core.unary.phase 0 = .over (.received (.ok (replySeven, ⟨33, 34⟩)))) = true := by
    decide +kernel
  obtain ⟨s, hs, hend⟩ := (Option.any_eq_true _ _).1 hrun
  have hr := Machine.Run.of_exec hs
  have hc : Answered s.core 0 := .inl ⟨_, of_decide_eq_true hend, by simp⟩
  exact ⟨s, hr, hc, notifications_precede hr hc⟩

end JsonRpc.Ws
