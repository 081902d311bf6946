import JsonRpcClient.Concurrent.Timed
import JsonRpcClient.Ws.Callers
import JsonRpcClient.Ws.KeepAlive

/-!
# Timeouts (client.rs:230-261, 299-343, builder.rs)

`request` and `batch_request` give a reply so much time: the `timeout` of the call, or else that of
the client, or else `DEFAULT_REQUEST_TIMEOUT`. The time is that of `time::timeout(timeout, rx)`, made
when the message has been sent; when it is polled it looks for the reply first, and for the clock only
if there is none. So `timedClient` is the client with a clock: `sendOk` starts the timer of its call,
and `expire` waits for it.

`timeouts_exact`: no call times out early, or with an answer in its channel, and one that waits gives
up as soon as it may. Timeouts are otherwise a matter of luck: `timed_client` says that the order of
everything else does not depend on them.
-/

namespace JsonRpc.Ws
open Json Arrange Oneshot

variable {R : ResponseTypes} {cfg : Config R} {h : List (TimedAct Action)} {s s' : Timed State Nat}
  {a : Action} {c : Nat} {d : Duration}

/-- A client that was built so. -/
def WsClientBuilder.config (b : WsClientBuilder) (profile : Profile) (serde : SerdeJson)
    (calls : Nat → CallSpec R) : Config R :=
  ⟨profile, serde, b.request_timeout, calls⟩

def CallSpec.timeout : CallSpec R → Option Duration
  | request _ _ _ timeout => timeout
  | batch _ timeout => timeout

/-- How long a call waits for its reply. -/
def Config.patience (cfg : Config R) (c : Nat) : Duration :=
  cfg.effectiveTimeout (cfg.calls c).timeout

def timers (cfg : Config R) : Timers Action Nat where
  starts
    | .call c .sendOk => some c
    | _ => none
  waits
    | .call c .expire => some c
    | _ => none
  limit := cfg.patience

def timedClient (cfg : Config R) : Machine (Timed State Nat) (TimedAct Action) :=
  (timers cfg).timed (client cfg)

theorem starts_eq_some : (timers cfg).starts a = some c ↔ a = .call c .sendOk := by
  constructor
  · intro h
    simp only [timers] at h
    split at h
    · rw [Option.some.inj h]
    · cases h
  · rintro rfl
    rfl

theorem waits_eq_some : (timers cfg).waits a = some c ↔ a = .call c .expire := by
  constructor
  · intro h
    simp only [timers] at h
    split at h
    · rw [Option.some.inj h]
    · cases h
  · rintro rfl
    rfl

/-! ## What a waiting call can do -/

/-- The call waits at its receiver. -/
def State.Waiting (cfg : Config R) (s : State) (c : Nat) : Prop :=
  if (cfg.calls c).isRequest then s.unary.phase c = .waiting else s.batch.phase c = .waiting

/-- The call's sender was used, or dropped. -/
def State.Answered (cfg : Config R) (s : State) (c : Nat) : Prop :=
  if (cfg.calls c).isRequest then s.unary.chan c ≠ .empty else s.batch.chan c ≠ .empty

section
variable {K V : Type} [DecidableEq K] {t t' : Table K Nat Agent V} {act : Act K Nat Agent V}

theorem waiting_step (hs : Step t act t') (hp : t.phase c = .waiting) (hc : act.caller = some c) :
    act = .receive c ∨ act = .expire c ∨ act = .drop c := by
  cases hs with
  | prepare h | abort h | register h | sendOk h | sendErr h =>
    obtain rfl := Option.some.inj hc
    rw [h] at hp
    cases hp
  | unregister h =>
    obtain rfl := Option.some.inj hc
    rw [hp] at h
    cases h
  | expire => exact .inr (.inl (by rw [Option.some.inj hc]))
  | receive | disconnect => exact .inl (by rw [Option.some.inj hc])
  | drop => exact .inr (.inr (by rw [Option.some.inj hc]))
  | take | miss | finish => cases hc

theorem receive_isSome (hp : t.phase c = .waiting) :
    (t.step (.receive c)).isSome = true ↔ t.chan c ≠ .empty := by
  cases hchan : t.chan c <;> simp [Table.step, hp, hchan]

theorem expire_isSome (hp : t.phase c = .waiting) :
    (t.step (.expire c)).isSome = true ↔ t.chan c = .empty := by
  cases hchan : t.chan c <;> simp [Table.step, hp, hchan]

theorem expire_eq_some (hs : t.step (.expire c) = some t') :
    t.phase c = .waiting ∧ t.chan c = .empty := by
  cases step_cases hs with
  | expire hp hchan => exact ⟨hp, hchan⟩

end

theorem call_isSome_unary {s : State} {step : CallStep} (hreq : (cfg.calls c).isRequest = true) :
    (s.step cfg (.call c step)).isSome = true ↔ (s.unary.step (step.act c)).isSome = true := by
  constructor
  · intro h
    obtain ⟨s', hs⟩ := Option.isSome_iff_exists.1 h
    obtain ⟨-, hu, -⟩ := step_eq_some.1 hs
    simp only [Action.onUnary, hreq, ↓reduceIte, tableStep] at hu
    rw [hu]
    rfl
  · intro h
    obtain ⟨t', ht⟩ := Option.isSome_iff_exists.1 h
    obtain ⟨s', hs⟩ := call_enabled_unary hreq ht
    rw [hs]
    rfl

theorem call_isSome_batch {s : State} {step : CallStep} (hreq : (cfg.calls c).isRequest = false) :
    (s.step cfg (.call c step)).isSome = true ↔ (s.batch.step (step.act c)).isSome = true := by
  constructor
  · intro h
    obtain ⟨s', hs⟩ := Option.isSome_iff_exists.1 h
    obtain ⟨-, -, hb, -⟩ := step_eq_some.1 hs
    simp only [Action.onBatch, hreq, Bool.false_eq_true, ↓reduceIte, tableStep] at hb
    rw [hb]
    rfl
  · intro h
    obtain ⟨t', ht⟩ := Option.isSome_iff_exists.1 h
    obtain ⟨s', hs⟩ := call_enabled_batch hreq ht
    rw [hs]
    rfl

theorem resume_isSome {s : State} (hw : s.Waiting cfg c) :
    (s.step cfg (.call c .resume)).isSome = true ↔ s.Answered cfg c := by
  by_cases hreq : (cfg.calls c).isRequest = true
  · rw [State.Waiting, if_pos hreq] at hw
    rw [State.Answered, if_pos hreq, call_isSome_unary hreq]
    exact receive_isSome hw
  · rw [State.Waiting, if_neg hreq] at hw
    rw [State.Answered, if_neg hreq, call_isSome_batch (Bool.not_eq_true _ ▸ hreq)]
    exact receive_isSome hw

theorem expire_call_isSome {s : State} (hw : s.Waiting cfg c) :
    (s.step cfg (.call c .expire)).isSome = true ↔ ¬ s.Answered cfg c := by
  by_cases hreq : (cfg.calls c).isRequest = true
  · rw [State.Waiting, if_pos hreq] at hw
    rw [State.Answered, if_pos hreq, not_not, call_isSome_unary hreq]
    exact expire_isSome hw
  · rw [State.Waiting, if_neg hreq] at hw
    rw [State.Answered, if_neg hreq, not_not, call_isSome_batch (Bool.not_eq_true _ ▸ hreq)]
    exact expire_isSome hw

/-- A call that waits takes no other step than these. -/
theorem waiting_only {s s' : State} (hw : s.Waiting cfg c) (hs : s.step cfg a = some s')
    (hc : a.caller = some c) : a = .call c .resume ∨ a = .call c .expire ∨ a = .call c .drop := by
  obtain ⟨-, hu, hb, -⟩ := step_eq_some.1 hs
  by_cases hreq : (cfg.calls c).isRequest = true
  · rw [State.Waiting, if_pos hreq] at hw
    obtain ⟨act, hact⟩ := onUnary_own hreq hs hc
    rw [hact] at hu
    rcases waiting_step (step_cases hu) hw ((onUnary_caller hact).trans hc) with rfl | rfl | rfl
    · exact .inl (onUnary_call .resume hact).1
    · exact .inr (.inl (onUnary_call .expire hact).1)
    · exact .inr (.inr (onUnary_call .drop hact).1)
  · rw [State.Waiting, if_neg hreq] at hw
    obtain ⟨act, hact⟩ := onBatch_own (Bool.not_eq_true _ ▸ hreq) hs hc
    rw [hact] at hb
    rcases waiting_step (step_cases hb) hw ((onBatch_caller hact).trans hc) with rfl | rfl | rfl
    · exact .inl (onBatch_call .resume hact).1
    · exact .inr (.inl (onBatch_call .expire hact).1)
    · exact .inr (.inr (onBatch_call .drop hact).1)

/-- Only a call that waits unanswered gives up. -/
theorem expire_waiting {s s' : State} (hs : s.step cfg (.call c .expire) = some s') :
    s.Waiting cfg c ∧ ¬ s.Answered cfg c := by
  obtain ⟨-, hu, hb, -⟩ := step_eq_some.1 hs
  by_cases hreq : (cfg.calls c).isRequest = true
  · rw [State.Waiting, State.Answered, if_pos hreq, if_pos hreq, not_not]
    simp only [Action.onUnary, hreq, ↓reduceIte] at hu
    exact expire_eq_some hu
  · rw [State.Waiting, State.Answered, if_neg hreq, if_neg hreq, not_not]
    simp only [Action.onBatch, hreq, Bool.false_eq_true, ↓reduceIte] at hb
    exact expire_eq_some hb

/-! ## The message was sent, and the time went by -/

theorem sendOk_mem {K V : Type} {p : Phase V} {k : Option K} {l : List (Act K Nat Agent V)}
    (h : Path c p k l) (hp : p = .waiting) : CallStep.sendOk.act c ∈ l := by
  cases h with
  | waiting => simp [CallStep.act]
  | _ => cases hp

theorem expire_mem {K V : Type} {p : Phase V} {k : Option K} {l : List (Act K Nat Agent V)}
    (h : Path c p k l) (hp : p = .over .timedOut) : CallStep.expire.act c ∈ l := by
  cases h with
  | timedOut => simp [CallStep.act]
  | _ => cases hp

section
variable {h : List Action} {s : State}

theorem mem_of_ownSteps_unary (step : CallStep)
    (hmem : step.act c ∈ ownSteps c (h.filterMap (Action.onUnary cfg))) : .call c step ∈ h := by
  obtain ⟨a, ha, hact⟩ := List.mem_filterMap.1 (List.mem_of_mem_filter hmem)
  obtain ⟨rfl, -⟩ := onUnary_call step hact
  exact ha

theorem mem_of_ownSteps_batch (step : CallStep)
    (hmem : step.act c ∈ ownSteps c (h.filterMap (Action.onBatch cfg))) : .call c step ∈ h := by
  obtain ⟨a, ha, hact⟩ := List.mem_filterMap.1 (List.mem_of_mem_filter hmem)
  obtain ⟨rfl, -⟩ := onBatch_call step hact
  exact ha

theorem sendOk_of_waiting (hr : (client cfg).Run Machine.always h s) (hw : s.Waiting cfg c) :
    .call c .sendOk ∈ h := by
  by_cases hreq : (cfg.calls c).isRequest = true
  · rw [State.Waiting, if_pos hreq] at hw
    exact mem_of_ownSteps_unary .sendOk (sendOk_mem (Oneshot.Run.path (tableRun_unary hr) c) hw)
  · rw [State.Waiting, if_neg hreq] at hw
    exact mem_of_ownSteps_batch .sendOk (sendOk_mem (Oneshot.Run.path (tableRun_batch hr) c) hw)

/-- A `request` that reports a timeout has given up waiting. -/
theorem request_gaveUp {T : R.TypeId} (hr : (client cfg).Run Machine.always h s)
    (hret : RequestReturned cfg s c (.err (.RequestTimeout d) : Outcome (R.Val T))) :
    d = cfg.patience c ∧ .call c .expire ∈ h := by
  obtain ⟨method, params, timeout, e, hcalls, hphase, hret⟩ := hret
  cases e with
  | early =>
    simp only [requestReturn] at hret
    split at hret
    · rename_i err herr
      cases hret
      rcases JsonRpcRequest.tryNew_error herr with h | h | h <;> cases h
    · cases hret
  | timedOut =>
    obtain ⟨⟩ := hret
    refine ⟨by rw [Config.patience, hcalls]; rfl, ?_⟩
    exact mem_of_ownSteps_unary .expire (expire_mem (Oneshot.Run.path (tableRun_unary hr) c) hphase)
  | received v =>
    rcases received_unary hr hphase with ⟨id, msg, -, hroute, -⟩ | rfl
    · rcases routeMessage_unary hroute with ⟨resp, hdec, -, rfl⟩ | ⟨err, hdec, -, rfl⟩
      · simp only [requestReturn, readReply_result hdec, Option.some.injEq] at hret
        cases hparse : R.fromSlice T resp.result.raw.bytes <;> rw [hparse] at hret <;> cases hret
      · cases hret
    · cases hret
  | _ => cases hret

theorem batch_gaveUp {calls : List (BatchBuilder.Call R)} {key : RangeInclusive}
    (hr : (client cfg).Run Machine.always h s)
    (hret : BatchReturned cfg s c calls key (.err (.RequestTimeout d))) :
    d = cfg.patience c ∧ .call c .expire ∈ h := by
  obtain ⟨timeout, e, hcalls, hkey, hphase, hret⟩ := hret
  cases e with
  | timedOut =>
    obtain ⟨⟩ := hret
    refine ⟨by rw [Config.patience, hcalls]; rfl, ?_⟩
    exact mem_of_ownSteps_batch .expire (expire_mem (Oneshot.Run.path (tableRun_batch hr) c) hphase)
  | received v =>
    rcases received_batch_by hr hkey hphase with ⟨msg, hroute, -⟩ | ⟨rfl, -⟩
    · obtain ⟨wire, n, w, ⟨data, hdata, hdec⟩, -, -, hw, hv⟩ := routeMessage_batch hroute
      obtain rfl : v = .ok ⟨msg, w.map slotValue⟩ := Option.some.inj hv
      have hborrow : ∀ item ∈ w, ∀ r ∈ item.spans, r.BorrowedFrom data := fun item hitem =>
        JsonRpcIncoming.items_borrowed hdec item (List.mem_of_mem_filter (hw.perm.mem_iff.1 hitem))
      simp only [batchReturn, readBatch_slotValues hdata hborrow, Option.some.injEq] at hret
      cases hret
    · cases hret
  | _ => cases hret

end

/-! ## The clock -/

/-- What a call that has waited for `waited` can do. -/
structure Waits (cfg : Config R) (s : Timed State Nat) (c : Nat) (waited : Duration) : Prop where
  resume : ((timedClient cfg).step s (.act (.call c .resume))).isSome = true ↔ s.core.Answered cfg c
  expire : ((timedClient cfg).step s (.act (.call c .expire))).isSome = true ↔
    ¬ s.core.Answered cfg c ∧ cfg.patience c ≤ waited
  only : ∀ a s', a.caller = some c → (timedClient cfg).step s (.act a) = some s' →
    a = .call c .resume ∨ a = .call c .expire ∨ a = .call c .drop

/-- `c` has returned that its time was over. -/
def TimedOut (cfg : Config R) (s : State) (c : Nat) (d : Duration) : Prop :=
  (∃ T : R.TypeId, RequestReturned cfg s c (.err (.RequestTimeout d) : Outcome (R.Val T))) ∨
    ∃ calls key, BatchReturned cfg s c calls key (.err (.RequestTimeout d))

/-- A call that gave up had waited its time, and its channel was empty. -/
theorem gaveUp_late (hr : (timedClient cfg).Run Machine.always h s)
    (hgave : .call c .expire ∈ h.filterMap TimedAct.act?) :
    ∃ h1 h2 h3, h = h1 ++ .act (.call c .sendOk) :: h2 ++ .act (.call c .expire) :: h3 ∧
      cfg.patience c ≤ TimedAct.elapsed h2 ∧
      ∀ s2, (timedClient cfg).Run Machine.always (h1 ++ .act (.call c .sendOk) :: h2) s2 →
        ¬ s2.core.Answered cfg c := by
  obtain ⟨x, hx, hact⟩ := List.mem_filterMap.1 hgave
  rw [TimedAct.act?_eq_some.1 hact] at hx
  obtain ⟨g, h3, rfl⟩ := List.append_of_mem hx
  obtain ⟨h1, b, h2, rfl, hst, hle⟩ := Timers.Run.waited hr (waits_eq_some.2 rfl)
  obtain rfl := starts_eq_some.1 hst.starts
  refine ⟨h1, h2, h3, rfl, hle, ?_⟩
  intro s2 hr2
  rw [List.append_cons] at hr
  obtain ⟨s4, hr4, -⟩ := hr.split
  obtain ⟨s3, hr3, -, hs⟩ := hr4.last
  obtain rfl := hr2.unique hr3
  exact (expire_waiting (Timers.timed_step_act.1 hs).2.1).2

theorem waits (hr : (timedClient cfg).Run Machine.always h s) (hw : s.core.Waiting cfg c) :
    ∃ h1 h2, h = h1 ++ .act (.call c .sendOk) :: h2 ∧ Waits cfg s c (TimedAct.elapsed h2) := by
  obtain ⟨x, hx, hact⟩ := List.mem_filterMap.1 (sendOk_of_waiting (Timers.Run.untimed hr) hw)
  rw [TimedAct.act?_eq_some.1 hact] at hx
  obtain ⟨t, ht⟩ := Option.isSome_iff_exists.1
    (Timers.Run.since_isSome hr hx (starts_eq_some.2 rfl))
  obtain ⟨h1, b, h2, rfl, hst, rfl⟩ := Timers.Run.started hr ht
  obtain rfl := starts_eq_some.1 hst.starts
  refine ⟨h1, h2, rfl, ?_, ?_, ?_⟩
  · rw [timedClient, Timers.timed_act_isSome]
    refine (and_iff_right ?_).trans (resume_isSome hw)
    simp [timers]
  · rw [timedClient, Timers.timed_act_isSome, and_comm]
    refine and_congr (expire_call_isSome hw) ?_
    have hnow : s.now = TimedAct.elapsed h1 + TimedAct.elapsed h2 := by
      simpa using Timers.Run.now_eq hr
    have hreached : (timers cfg).reached s c = true ↔ cfg.patience c ≤ TimedAct.elapsed h2 := by
      rw [Timers.reached_eq_true]
      simp only [ht, Option.some.injEq, exists_eq_left', hnow]
      exact Nat.add_le_add_iff_left
    rw [← hreached]
    simp [timers]
  · intro a s' hc hs
    exact waiting_only hw (Timers.timed_step_act.1 hs).2.1 hc

/-- What `request_timeout` promises. -/
structure OnTime (cfg : Config R) (h : List (TimedAct Action)) (s : Timed State Nat) : Prop where
  /-- a timeout is reported after the call's own patience, if nobody had answered by then -/
  late : ∀ c d, TimedOut cfg s.core c d → d = cfg.patience c ∧ ∃ h1 h2 h3,
    h = h1 ++ .act (.call c .sendOk) :: h2 ++ .act (.call c .expire) :: h3 ∧
    cfg.patience c ≤ TimedAct.elapsed h2 ∧
    ∀ s2, (timedClient cfg).Run Machine.always (h1 ++ .act (.call c .sendOk) :: h2) s2 →
      ¬ s2.core.Answered cfg c
  /-- what waits may take its answer at once, and may give up without one from then on -/
  waits : ∀ c, s.core.Waiting cfg c → ∃ h1 h2, h = h1 ++ .act (.call c .sendOk) :: h2 ∧
    Waits cfg s c (TimedAct.elapsed h2)

/-- **Timeouts are exact**, in every run: a call reports a timeout of its own patience, counted from
when its message was sent, never early, and never with an answer in its channel. While it waits it can
take an answer as soon as there is one, and give up as soon as its time is over and there is none; and
there is nothing else it can do, but be dropped. -/
theorem timeouts_exact (hr : (timedClient cfg).Run Machine.always h s) : OnTime cfg h s := by
  constructor
  · intro c d hout
    have hcore := Timers.Run.untimed hr
    rcases hout with ⟨T, hret⟩ | ⟨calls, key, hret⟩
    · obtain ⟨hd, hgave⟩ := request_gaveUp hcore hret
      exact ⟨hd, gaveUp_late hr hgave⟩
    · obtain ⟨hd, hgave⟩ := batch_gaveUp hcore hret
      exact ⟨hd, gaveUp_late hr hgave⟩
  · intro c hw
    exact waits hr hw

/-- Two requests of a client with a timeout of 100, the second with one of its own. -/
def hundred : Config basicTypes :=
  (WsClientBuilder.new.requestTimeout 100).config .checked ⟨fun _ => true⟩ fun
    | 0 => .request .U64 "ping" none none
    | _ => .request .U64 "ping" none (some 500)

/-- The first message takes 50 to be sent. Then the server never replies. -/
def neverReplies : List (TimedAct Action) :=
  [.act (.reserveId 0 ⟨0⟩), .act (.reserveId 1 ⟨1⟩), .act (.call 0 .insert), .act (.call 1 .insert),
    .act (.call 1 .sendOk), .elapse 50, .act (.call 0 .sendOk), .elapse 99, .elapse 3,
    .act (.call 0 .expire), .act (.call 0 .remove)]

theorem timeouts_exact_never : ∃ s, (timedClient hundred).Run Machine.always neverReplies s ∧
    TimedOut hundred s.core 0 100 ∧ s.core.Waiting hundred 1 ∧ OnTime hundred neverReplies s := by
  have hrun : ((timedClient hundred).exec (timedClient hundred).init neverReplies).any (fun s =>
      s.core.unary.phase 0 = .over .timedOut ∧ s.core.unary.phase 1 = .waiting) = true := by
    decide +kernel
  obtain ⟨s, hs, hend⟩ := (Option.any_eq_true _ _).1 hrun
  obtain ⟨hover, hwaiting⟩ := of_decide_eq_true hend
  have hr := Machine.Run.of_exec hs
  have hout : TimedOut hundred s.core 0 100 :=
    .inl ⟨.U64, "ping", none, none, .timedOut, rfl, hover, rfl⟩
  exact ⟨s, hr, hout, hwaiting, timeouts_exact hr⟩

/-- **The clock decides nothing else**: the runs of the client are those of the client with a clock,
when that is forgotten. -/
theorem timed_client {h : List Action} {s : State} : (client cfg).Run Machine.always h s ↔
    ∃ g s', (timedClient cfg).Run Machine.always g s' ∧ g.filterMap TimedAct.act? = h ∧
      s'.core = s := by
  constructor
  · intro hr
    refine Timers.exists_timed hr ?_
    rintro h1 a h2 c rfl hwaits
    obtain rfl := waits_eq_some.1 hwaits
    rw [List.append_cons] at hr
    obtain ⟨s2, hr2, -⟩ := hr.split
    obtain ⟨s1, hr1, -, hs⟩ := hr2.last
    exact ⟨_, sendOk_of_waiting hr1 (expire_waiting hs).1, starts_eq_some.2 rfl⟩
  · rintro ⟨g, s', hr, rfl, rfl⟩
    exact Timers.Run.untimed hr

end JsonRpc.Ws
