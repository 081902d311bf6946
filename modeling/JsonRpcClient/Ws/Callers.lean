import JsonRpcClient.Concurrent.Callers
import JsonRpcClient.Ws.Delivery
import JsonRpcClient.Ws.FrameEffect

/-!
# What a call does, and what it returns (client.rs:218-358)

`request` and `batch_request` are straight-line programs that share the id counter and the maps with
everybody else. `outcomes_explained`: the steps it took and what came of its sender for each of the
results it can return; as long as the ids last, `"channel closed"` is none of them. `deaf_after_panic`
is what is left of these once `incoming_task` has panicked.
-/

namespace JsonRpc.Ws
open Json Arrange Oneshot
open scoped List

variable {R : ResponseTypes} {cfg : Config R} {h h1 h2 : List Action} {s s' : State} {a : Action}
  {c : Nat}

/-- The call whose step it is. -/
def Action.caller : Action → Option Nat
  | .reserveId c _ => some c
  | .build c _ => some c
  | .call c _ => some c
  | _ => none

/-- The steps of one call. -/
def ownActions (c : Nat) (h : List Action) : List Action := h.filter fun a => a.caller = some c

theorem onUnary_caller {act : Act RequestId Nat Agent Reply} (h : a.onUnary cfg = some act) :
    act.caller = a.caller := by
  rcases onUnary_cases h with ⟨c, id, rfl, rfl | rfl⟩ | ⟨c, step, rfl, -, rfl⟩ |
    ⟨_, _, _, rfl, -, rfl⟩ | ⟨rfl, rfl⟩ | ⟨_, rfl, rfl⟩ | ⟨rfl, rfl⟩
  · rfl
  · rfl
  · cases step <;> rfl
  all_goals rfl

theorem onBatch_caller {act : Act RangeInclusive Nat Agent (Result BatchResult)}
    (h : a.onBatch cfg = some act) : act.caller = a.caller := by
  rcases onBatch_cases h with ⟨c, key, rfl, ⟨k, rfl, rfl⟩ | rfl⟩ | ⟨c, step, rfl, -, rfl⟩ |
    ⟨_, _, _, rfl, -, rfl⟩ | ⟨rfl, rfl⟩ | ⟨_, rfl, rfl⟩ | ⟨rfl, rfl⟩
  · rfl
  · rfl
  · cases step <;> rfl
  all_goals rfl

/-- A step of a request is one in the map of requests. -/
theorem onUnary_own (hreq : (cfg.calls c).isRequest = true) (hs : s.step cfg a = some s')
    (hc : a.caller = some c) : ∃ act, a.onUnary cfg = some act := by
  cases a with
  | reserveId c' id =>
    obtain rfl := Option.some.inj hc
    cases hcalls : cfg.calls c' with
    | request T method params timeout =>
      simp only [Action.onUnary, hcalls]
      split <;> exact ⟨_, rfl⟩
    | batch => rw [hcalls] at hreq; cases hreq
  | build c' key =>
    obtain rfl := Option.some.inj hc
    obtain ⟨hids, -⟩ := step_eq_some.1 hs
    simp only [Action.onIds] at hids
    split at hids
    · rename_i hcalls
      rw [hcalls] at hreq
      cases hreq
    · cases hids
  | call c' step =>
    obtain rfl := Option.some.inj hc
    exact ⟨step.act c', by simp only [Action.onUnary, hreq, ↓reduceIte]⟩
  | _ => cases hc

theorem onBatch_own (hreq : (cfg.calls c).isRequest = false) (hs : s.step cfg a = some s')
    (hc : a.caller = some c) : ∃ act, a.onBatch cfg = some act := by
  cases a with
  | reserveId c' id =>
    obtain rfl := Option.some.inj hc
    obtain ⟨hids, -⟩ := step_eq_some.1 hs
    simp only [Action.onIds, hreq] at hids
    cases hids
  | build c' key => cases key <;> exact ⟨_, rfl⟩
  | call c' step =>
    obtain rfl := Option.some.inj hc
    exact ⟨step.act c', by simp only [Action.onBatch, hreq, Bool.false_eq_true, ↓reduceIte]⟩
  | _ => cases hc

/-- The steps of a call are its steps in its map, when `g` is the part of a step in that map. -/
theorem ownActions_map {K V : Type} [DecidableEq K] {g : Action → Option (Act K Nat Agent V)}
    (hcaller : ∀ a act, g a = some act → act.caller = a.caller)
    (hown : ∀ (s : State) a s', s.step cfg a = some s' → a.caller = some c → ∃ act, g a = some act)
    (hr : (client cfg).Run Machine.always h s) :
    (ownActions c h).map g = (ownSteps c (h.filterMap g)).map some := by
  refine Machine.Run.invariant
    (P := fun h _ => (ownActions c h).map g = (ownSteps c (h.filterMap g)).map some) rfl ?_ hr
  intro h s a s' _ ih _ hs
  rw [ownActions, List.filter_append, List.map_append, List.filterMap_append, ownSteps_append,
    List.map_append, ← ih, ownActions, List.append_cancel_left_eq]
  by_cases hc : a.caller = some c
  · obtain ⟨act, hact⟩ := hown s a s' hs hc
    rw [List.filterMap_cons_some hact, List.filterMap_nil,
      ownSteps_own ((hcaller a act hact).trans hc)]
    simp [hc, hact]
  · cases hact : g a with
    | none => simp [hc, hact, ownSteps]
    | some act =>
      rw [List.filterMap_cons_some hact, List.filterMap_nil,
        ownSteps_other (hcaller a act hact ▸ hc)]
      simp [hc]

theorem ownActions_unary (hreq : (cfg.calls c).isRequest = true)
    (hr : (client cfg).Run Machine.always h s) :
    (ownActions c h).map (Action.onUnary cfg) =
      (ownSteps c (h.filterMap (Action.onUnary cfg))).map some :=
  ownActions_map (fun _ _ => onUnary_caller) (fun _ _ _ => onUnary_own hreq) hr

theorem ownActions_batch (hreq : (cfg.calls c).isRequest = false)
    (hr : (client cfg).Run Machine.always h s) :
    (ownActions c h).map (Action.onBatch cfg) =
      (ownSteps c (h.filterMap (Action.onBatch cfg))).map some :=
  ownActions_map (fun _ _ => onBatch_caller) (fun _ _ _ => onBatch_own hreq) hr

/-! ## Nobody keeps a caller from a step -/

/-- What a caller does next depends on nothing but its own map. -/
theorem call_enabled_unary {step : CallStep} {t' : Table RequestId Nat Agent Reply}
    (hreq : (cfg.calls c).isRequest = true) (ht : s.unary.step (step.act c) = some t') :
    ∃ s', s.step cfg (.call c step) = some s' := by
  refine ⟨⟨s.idmgr, t', s.batch, s.alive, s.drain⟩, step_eq_some.2 ⟨rfl, ?_, ?_, rfl, rfl⟩⟩
  · simp only [Action.onUnary, hreq, ↓reduceIte, tableStep, ht]
  · simp only [Action.onBatch, hreq, ↓reduceIte, tableStep]

theorem call_enabled_batch {step : CallStep}
    {t' : Table RangeInclusive Nat Agent (Result BatchResult)}
    (hreq : (cfg.calls c).isRequest = false) (ht : s.batch.step (step.act c) = some t') :
    ∃ s', s.step cfg (.call c step) = some s' := by
  refine ⟨⟨s.idmgr, s.unary, t', s.alive, s.drain⟩, step_eq_some.2 ⟨rfl, ?_, ?_, rfl, rfl⟩⟩
  · simp only [Action.onUnary, hreq, Bool.false_eq_true, ↓reduceIte, tableStep]
  · simp only [Action.onBatch, hreq, Bool.false_eq_true, ↓reduceIte, tableStep, ht]

/-- The rest of the session does not keep a caller from a step. -/
theorem session_enabled {cfg : SessionConfig R} {s : Session} {core : State}
    (hc : a.caller = some c) (hs : s.core.step cfg.toConfig a = some core) :
    ∃ s', (session cfg).step s (.link (.client a)) = some s' := by
  obtain ⟨l, f⟩ := s
  refine ⟨(l.withCore core a, f), Machine.join_step.2 ⟨?_, ?_, rfl⟩⟩
  · cases a with
    | handle => cases hc
    | _ => rfl
  · have htask : a.ofTask = false := by
      cases a with
      | drainStart => cases hc
      | drainEnd => cases hc
      | _ => rfl
    have hcore : l.core.step cfg.toConfig a = some core := hs
    change l.step cfg.toConfig (.client a) = some (l.withCore core a)
    simp only [Link.step, htask, Bool.false_eq_true, ↓reduceIte, hcore, Option.map_some]

/-! ## What a call returns, and why -/

/-- A caller's step in a map as a step of the client; `prep` is how it gets its key. -/
def ownOrigin {K V : Type} (prep : Nat → K → Action) : Act K Nat Agent V → Action
  | .prepare c k => prep c k
  | .register c => .call c .insert
  | .sendOk c => .call c .sendOk
  | .sendErr c => .call c .sendErr
  | .expire c => .call c .expire
  | .unregister c => .call c .remove
  | .receive c => .call c .resume
  | .drop c => .call c .drop
  | .abort c => .call c .drop
  | .take .. => .reply
  | .finish _ => .reply

theorem ownOrigin_callStep {K V : Type} (prep : Nat → K → Action) (step : CallStep) :
    ownOrigin prep (step.act c : Act K Nat Agent V) = .call c step := by
  cases step <;> rfl

theorem eq_ownOrigin_unary {act : Act RequestId Nat Agent Reply} (h : a.onUnary cfg = some act)
    (hc : act.caller = some c) (hno : act ≠ .abort c) : a = ownOrigin .reserveId act := by
  rcases onUnary_cases h with ⟨c', id, rfl, rfl | rfl⟩ | ⟨c', step, rfl, -, rfl⟩ |
    ⟨_, _, _, -, -, rfl⟩ | ⟨-, rfl⟩ | ⟨_, -, rfl⟩ | ⟨-, rfl⟩
  · rfl
  · cases hc
    exact absurd rfl hno
  · exact (ownOrigin_callStep ..).symm
  all_goals cases hc

theorem eq_ownOrigin_batch {act : Act RangeInclusive Nat Agent (Result BatchResult)}
    (h : a.onBatch cfg = some act) (hc : act.caller = some c) (hno : act ≠ .abort c) :
    a = ownOrigin (fun c key => .build c (some key)) act := by
  rcases onBatch_cases h with ⟨c', key, rfl, ⟨k, rfl, rfl⟩ | rfl⟩ | ⟨c', step, rfl, -, rfl⟩ |
    ⟨_, _, _, -, -, rfl⟩ | ⟨-, rfl⟩ | ⟨_, -, rfl⟩ | ⟨-, rfl⟩
  · rfl
  · cases hc
    exact absurd rfl hno
  · exact (ownOrigin_callStep ..).symm
  all_goals cases hc

/-- The path of a call in its map, read as steps of the client. -/
theorem ownActions_eq {K V : Type} {g : Action → Option (Act K Nat Agent V)}
    {prep : Nat → K → Action} (horigin : ∀ a act, g a = some act → act.caller = some c →
      act ≠ .abort c → a = ownOrigin prep act) :
    ∀ {l : List Action} {acts : List (Act K Nat Agent V)}, l.map g = acts.map some →
      (∀ act ∈ acts, act.caller = some c ∧ act ≠ .abort c) → l = acts.map (ownOrigin prep)
  | [], [], _, _ => rfl
  | [], _ :: _, h, _ => by cases h
  | _ :: _, [], h, _ => by cases h
  | a :: l, act :: acts, h, hacts => by
    obtain ⟨ha, hl⟩ := List.cons.inj h
    obtain ⟨hc, hno⟩ := hacts act List.mem_cons_self
    rw [List.map_cons, ← horigin a act ha hc hno,
      ← ownActions_eq horigin hl fun act hact => hacts act (List.mem_cons_of_mem _ hact)]

/-- The sender of a request was taken by `fail_pending_requests`, and the caller told. -/
def FailedBy (cfg : Config R) (h : List Action) (c : Nat) (id : RequestId) : Prop :=
  ∃ h1 h2 s1, h = h1 ++ .drainUnary (.remove id) :: h2 ∧ (client cfg).Run Machine.always h1 s1 ∧
    s1.unary.pending.lookup id = some c ∧ [.failUnary, .call c .resume] <+ h2

/-- Each result of a `request`, the steps the call took for it, and where it came from. -/
inductive RequestCause (cfg : Config R) (h : List Action) (c : Nat) (T : R.TypeId) :
    Outcome (R.Val T) → Prop
  /-- the params could not be serialized, and the call did not register -/
  | unserializable {id method params timeout e} (hcalls : cfg.calls c = .request T method params timeout)
      (herr : (JsonRpcRequest.tryNew ⟨0⟩ method params []).1 = .error e)
      (hown : ownActions c h = [.reserveId c id]) : RequestCause cfg h c T (.err e)
  | refused {id} (hown : ownActions c h =
      [.reserveId c id, .call c .insert, .call c .sendErr, .call c .remove]) :
      RequestCause cfg h c T (.err (.TransportError "the message was not sent"))
  | timedOut {id method params timeout} (hcalls : cfg.calls c = .request T method params timeout)
      (hown : ownActions c h = [.reserveId c id, .call c .insert, .call c .sendOk, .call c .expire,
        .call c .remove]) :
      RequestCause cfg h c T (.err (.RequestTimeout (cfg.effectiveTimeout timeout)))
  | lost {id} (hown : ownActions c h =
      [.reserveId c id, .call c .insert, .call c .sendOk, .call c .resume])
      (hfailed : FailedBy cfg h c id) : RequestCause cfg h c T (.err connectionLost)
  | answered {id msg resp} (hown : ownActions c h =
      [.reserveId c id, .call c .insert, .call c .sendOk, .call c .resume])
      (hres : ResolvedBy cfg h c [.reserveId c id, .call c .insert] msg
        [.reply, .call c .resume])
      (hdec : Decodes cfg msg (.Response resp)) (hid : resp.id = id) :
      RequestCause cfg h c T (.ret (serdeOk (R.fromSlice T resp.result.raw.bytes)))
  | rejected {id msg err} (hown : ownActions c h =
      [.reserveId c id, .call c .insert, .call c .sendOk, .call c .resume])
      (hres : ResolvedBy cfg h c [.reserveId c id, .call c .insert] msg
        [.reply, .call c .resume])
      (hdec : Decodes cfg msg (.ErrorResponse err)) (hid : err.id = some id) :
      RequestCause cfg h c T (.err (.ofResponse err))

/-- What a request received, with the step that took its sender. -/
theorem received_unary_by (hr : (client cfg).Run Machine.always h s) {v : Reply}
    (hc : s.unary.phase c = .over (.received v)) :
    ∃ id, s.unary.key c = some id ∧
      ((∃ msg, routeMessage cfg.profile cfg.serde msg = .unary id v ∧
        ResolvedBy cfg h c [.reserveId c id, .call c .insert] msg [.reply, .call c .resume]) ∨
      v = .error connectionLost ∧ FailedBy cfg h c id) := by
  obtain ⟨ag, id, t1, t2, hhist, hst, hbefore, hafter⟩ :=
    Oneshot.Run.provenance (tableRun_unary hr) hc
  have hkey : s.unary.key c = some id := by
    have hrun := tableRun_unary hr
    rw [hhist] at hrun
    exact hst.key_eq hrun
  obtain ⟨h1, x, h2, rfl, hx, rfl, rfl⟩ := Machine.split_of_filterMap hhist
  obtain ⟨s1, hr1, -⟩ := hr.split
  have hk := hst.lookup (tableRun_unary hr1)
  refine ⟨id, hkey, ?_⟩
  rcases onUnary_take hx with ⟨msg, w, rfl, hroute, rfl, hv⟩ | ⟨rfl, rfl, hv⟩
  · obtain rfl := Option.some.inj hv
    refine .inl ⟨msg, hroute, h1, h2, rfl, .unary hr1 hroute hk, ?_, ?_⟩
    · exact sublist_unary _ (by simp [Traced]) hbefore
    · exact sublist_unary _ (by simp [Traced]) hafter
  · refine .inr ⟨Option.some.inj hv, h1, h2, s1, rfl, hr1, hk, ?_⟩
    exact sublist_unary _ (by simp [Traced]) hafter

/-- No step of the client takes a request's sender to drop it. -/
theorem unary_sends (cfg : Config R) (h : List Action) (ag : Agent) (id : RequestId) :
    .take ag id none ∉ h.filterMap (Action.onUnary cfg) := by
  intro hmem
  obtain ⟨a, -, ha⟩ := List.mem_filterMap.1 hmem
  rcases onUnary_take ha with ⟨_, _, -, -, -, hv⟩ | ⟨-, -, hv⟩ <;> cases hv

theorem batch_sends (cfg : Config R) (h : List Action) (ag : Agent) (key : RangeInclusive) :
    .take ag key none ∉ h.filterMap (Action.onBatch cfg) := by
  intro hmem
  obtain ⟨a, -, ha⟩ := List.mem_filterMap.1 hmem
  rcases onBatch_take ha with ⟨msg, -, hroute, -⟩ | ⟨-, -, hv⟩
  · obtain ⟨_, _, _, -, -, -, -, hv⟩ := routeMessage_batch hroute
    cases hv
  · cases hv

/-- The result of a request that received `v`. -/
theorem requestCause_received (hr : (client cfg).Run Machine.always h s) {T : R.TypeId}
    {method : String} {params : Option Serialized} {timeout : Option Duration}
    {id : RequestId} {v : Reply} {out : Outcome (R.Val T)}
    (hphase : s.unary.phase c = .over (.received v)) (hkey : s.unary.key c = some id)
    (hown : ownActions c h =
      [.reserveId c id, .call c .insert, .call c .sendOk, .call c .resume])
    (hret : requestReturn cfg T method params timeout (.received v) = some out) :
    RequestCause cfg h c T out := by
  obtain ⟨id', hkey', hby⟩ := received_unary_by hr hphase
  obtain rfl := Option.some.inj (hkey.symm.trans hkey')
  rcases hby with ⟨msg, hroute, hres⟩ | ⟨rfl, hfailed⟩
  · rcases routeMessage_unary hroute with ⟨resp, hdec, hid, rfl⟩ | ⟨err, hdec, hid, rfl⟩
    · obtain rfl := Option.some.inj hret
      rw [readReply_result hdec]
      exact .answered hown hres hdec hid
    · obtain rfl := Option.some.inj hret
      exact .rejected hown hres hdec hid
  · obtain rfl := Option.some.inj hret
    exact .lost hown hfailed

/-- A request that has returned has its cause, or found its sender dropped. -/
theorem requestCause_or_closed (hr : (client cfg).Run Machine.always h s) {T : R.TypeId}
    {out : Outcome (R.Val T)} (hret : RequestReturned cfg s c out) :
    RequestCause cfg h c T out ∨
      s.unary.phase c = .over .disconnected ∧ out = .err (.TransportError "channel closed") := by
  obtain ⟨method, params, timeout, e, hcalls, hphase, hret⟩ := hret
  have hreq : (cfg.calls c).isRequest = true := by rw [hcalls]; rfl
  have hpath := Oneshot.Run.path (tableRun_unary hr) c
  have hmap := ownActions_unary hreq hr
  have heq : ∀ {acts : List (Act RequestId Nat Agent Reply)},
      (ownActions c h).map (Action.onUnary cfg) = acts.map some →
      (∀ act ∈ acts, act.caller = some c ∧ act ≠ .abort c) →
        ownActions c h = acts.map (ownOrigin .reserveId) :=
    ownActions_eq fun _ _ => eq_ownOrigin_unary
  rw [hphase] at hpath
  generalize ownSteps c (h.filterMap (Action.onUnary cfg)) = acts at hpath hmap
  generalize hkey : s.unary.key c = key at hpath
  cases hpath with
  | early =>
    simp only [requestReturn] at hret
    split at hret
    · rename_i e herr
      obtain rfl := Option.some.inj hret
      obtain ⟨a, ha, hact⟩ := List.map_eq_singleton_iff.1 hmap
      rcases onUnary_cases hact with ⟨c', id, rfl, h | h⟩ | ⟨c', step, -, -, h⟩ |
        ⟨_, _, _, -, -, h⟩ | ⟨-, h⟩ | ⟨_, -, h⟩ | ⟨-, h⟩
      · cases h
      · cases h
        exact .inl (.unserializable hcalls herr ha)
      · cases step <;> cases h
      all_goals cases h
    · cases hret
  | sendFailed =>
    obtain rfl := Option.some.inj hret
    exact .inl (.refused (heq hmap (by simp [Act.caller])))
  | timedOut =>
    obtain rfl := Option.some.inj hret
    exact .inl (.timedOut hcalls (heq hmap (by simp [Act.caller])))
  | droppedSending => cases hret
  | droppedWaiting => cases hret
  | received =>
    exact .inl (requestCause_received hr hphase hkey (heq hmap (by simp [Act.caller])) hret)
  | disconnected =>
    obtain rfl := Option.some.inj hret
    exact .inr ⟨hphase, rfl⟩

theorem requestCause (hr : (client cfg).Run Machine.always h s)
    (hids : reserved cfg h < 2 ^ 64) {T : R.TypeId} {out : Outcome (R.Val T)}
    (hret : RequestReturned cfg s c out) : RequestCause cfg h c T out := by
  refine (requestCause_or_closed hr hret).resolve_right fun ⟨hphase, _⟩ => ?_
  exact Oneshot.Run.not_disconnected (tableRun_unary hr) (freshKeys hr hids).unary
    (unary_sends cfg h) c hphase

/-- The sender of a batch was taken by `fail_pending_requests`, and the caller told. -/
def BatchFailedBy (cfg : Config R) (h : List Action) (c : Nat) (key : RangeInclusive) : Prop :=
  ∃ h1 h2 s1, h = h1 ++ .drainBatch (.remove key) :: h2 ∧
    (client cfg).Run Machine.always h1 s1 ∧ s1.batch.pending.lookup key = some c ∧
    [.failBatch, .call c .resume] <+ h2

/-- Each result of a `batch_request` that was built on `key`. -/
inductive BatchCause (cfg : Config R) (h : List Action) (c : Nat)
    (calls : List (BatchBuilder.Call R)) (key : RangeInclusive) :
    Outcome (Option (List (BatchResponseItem R))) → Prop
  | refused (hown : ownActions c h =
      [.build c (some key), .call c .insert, .call c .sendErr, .call c .remove]) :
      BatchCause cfg h c calls key (.err (.TransportError "the message was not sent"))
  | timedOut {timeout} (hcalls : cfg.calls c = .batch calls timeout)
      (hown : ownActions c h = [.build c (some key), .call c .insert, .call c .sendOk,
        .call c .expire, .call c .remove]) :
      BatchCause cfg h c calls key (.err (.RequestTimeout (cfg.effectiveTimeout timeout)))
  | lost (hown : ownActions c h =
      [.build c (some key), .call c .insert, .call c .sendOk, .call c .resume])
      (hfailed : BatchFailedBy cfg h c key) :
      BatchCause cfg h c calls key (.err connectionLost)
  /-- one frame answered every request of the batch, once -/
  | answered {msg wire items} (hown : ownActions c h =
      [.build c (some key), .call c .insert, .call c .sendOk, .call c .resume])
      (hres : ResolvedBy cfg h c [.build c (some key), .call c .insert] msg
        [.batchReply, .call c .resume])
      (hdec : Decodes cfg msg (.BatchResponse wire))
      (hids : (wire.filterMap JsonRpcBatchResponse.id?).Perm key.ids)
      (hlen : items.length = key.ids.length)
      (hitems : ∀ i (hi : i < key.ids.length), ∃ item ∈ wire, ∃ T, item.id? = some key.ids[i] ∧
        (BatchBuilder.registered calls)[i]? = some T ∧
          items[i]? = some (resolveItem (parseAs T) item)) :
      BatchCause cfg h c calls key (.ok (some items))

theorem received_batch_by (hr : (client cfg).Run Machine.always h s) {key : RangeInclusive}
    {v : Result BatchResult} (hkey : s.batch.key c = some key)
    (hc : s.batch.phase c = .over (.received v)) :
    (∃ msg, routeMessage cfg.profile cfg.serde msg = .batch key (some v) ∧
      ResolvedBy cfg h c [.build c (some key), .call c .insert] msg
        [.batchReply, .call c .resume]) ∨
    v = .error connectionLost ∧ BatchFailedBy cfg h c key := by
  obtain ⟨ag, key', t1, t2, hhist, hst, hbefore, hafter⟩ :=
    Oneshot.Run.provenance (tableRun_batch hr) hc
  obtain rfl : key' = key := by
    have hrun := tableRun_batch hr
    rw [hhist] at hrun
    exact Option.some.inj ((hst.key_eq hrun).symm.trans hkey)
  obtain ⟨h1, x, h2, rfl, hx, rfl, rfl⟩ := Machine.split_of_filterMap hhist
  obtain ⟨s1, hr1, -⟩ := hr.split
  have hk := hst.lookup (tableRun_batch hr1)
  rcases onBatch_take hx with ⟨msg, rfl, hroute, rfl⟩ | ⟨rfl, rfl, hv⟩
  · refine .inl ⟨msg, hroute, h1, h2, rfl, .batch hr1 hroute hk, ?_, ?_⟩
    · exact sublist_batch _ (by simp [Traced]) hbefore
    · exact sublist_batch _ (by simp [Traced]) hafter
  · refine .inr ⟨Option.some.inj hv, h1, h2, s1, rfl, hr1, hk, ?_⟩
    exact sublist_batch _ (by simp [Traced]) hafter

theorem batchCause_received (hr : (client cfg).Run Machine.always h s)
    {calls : List (BatchBuilder.Call R)} {timeout : Option Duration} {key : RangeInclusive}
    {v : Result BatchResult} {out : Outcome (Option (List (BatchResponseItem R)))}
    (hcalls : cfg.calls c = .batch calls timeout)
    (hphase : s.batch.phase c = .over (.received v)) (hkey : s.batch.key c = some key)
    (hown : ownActions c h =
      [.build c (some key), .call c .insert, .call c .sendOk, .call c .resume])
    (hret : batchReturn cfg calls timeout key (.received v) = some out) :
    BatchCause cfg h c calls key out := by
  rcases received_batch_by hr hkey hphase with ⟨msg, hroute, hres⟩ | ⟨rfl, hfailed⟩
  · obtain ⟨wire, n, w, ⟨data, hdata, hdec⟩, hn, hlast, hw, hv⟩ := routeMessage_batch hroute
    obtain rfl : v = .ok ⟨msg, w.map slotValue⟩ := Option.some.inj hv
    have hborrow : ∀ item ∈ w, ∀ r ∈ item.spans, r.BorrowedFrom data := fun item hitem =>
      JsonRpcIncoming.items_borrowed hdec item (List.mem_of_mem_filter (hw.perm.mem_iff.1 hitem))
    have hread := readBatch_slotValues hdata hborrow (builtParsers calls key)
    obtain ⟨wire', hdec', hperm, hlen, hitems⟩ := batch_items hr hkey hcalls hroute hread
    obtain rfl := Option.some.inj hret
    rw [hread]
    exact .answered hown hres hdec' hperm hlen hitems
  · obtain rfl := Option.some.inj hret
    exact .lost hown hfailed

theorem batchCause_or_closed (hr : (client cfg).Run Machine.always h s)
    {calls : List (BatchBuilder.Call R)} {key : RangeInclusive}
    {out : Outcome (Option (List (BatchResponseItem R)))}
    (hret : BatchReturned cfg s c calls key out) : BatchCause cfg h c calls key out ∨
      s.batch.phase c = .over .disconnected ∧ out = .err (.TransportError "channel closed") := by
  obtain ⟨timeout, e, hcalls, hkey, hphase, hret⟩ := hret
  have hreq : (cfg.calls c).isRequest = false := by rw [hcalls]; rfl
  have hpath := Oneshot.Run.path (tableRun_batch hr) c
  have hmap := ownActions_batch hreq hr
  have heq : ∀ {acts : List (Act RangeInclusive Nat Agent (Result BatchResult))},
      (ownActions c h).map (Action.onBatch cfg) = acts.map some →
      (∀ act ∈ acts, act.caller = some c ∧ act ≠ .abort c) →
        ownActions c h = acts.map (ownOrigin fun c key => .build c (some key)) :=
    ownActions_eq fun _ _ => eq_ownOrigin_batch
  rw [hphase, hkey] at hpath
  generalize ownSteps c (h.filterMap (Action.onBatch cfg)) = acts at hpath hmap
  cases hpath with
  | sendFailed =>
    obtain rfl := Option.some.inj hret
    exact .inl (.refused (heq hmap (by simp [Act.caller])))
  | timedOut =>
    obtain rfl := Option.some.inj hret
    exact .inl (.timedOut hcalls (heq hmap (by simp [Act.caller])))
  | droppedSending => cases hret
  | droppedWaiting => cases hret
  | received =>
    exact .inl (batchCause_received hr hcalls hphase hkey (heq hmap (by simp [Act.caller])) hret)
  | disconnected =>
    obtain rfl := Option.some.inj hret
    exact .inr ⟨hphase, rfl⟩

theorem batchCause (hr : (client cfg).Run Machine.always h s)
    (hids : reserved cfg h < 2 ^ 64) {calls : List (BatchBuilder.Call R)} {key : RangeInclusive}
    {out : Outcome (Option (List (BatchResponseItem R)))}
    (hret : BatchReturned cfg s c calls key out) : BatchCause cfg h c calls key out := by
  refine (batchCause_or_closed hr hret).resolve_right fun ⟨hphase, _⟩ => ?_
  exact Oneshot.Run.not_disconnected (tableRun_batch hr) (freshKeys hr hids).batch
    (batch_sends cfg h) c hphase

/-- `c` has built a batch without requests, and `build` returned: there is nothing to register, and
the batch is sent if there is anything in it. -/
def BuiltPlain (cfg : Config R) (h : List Action) (c : Nat) : Prop :=
  ∃ calls timeout h1 h2 s1 o, cfg.calls c = .batch calls timeout ∧
    h = h1 ++ .build c none :: h2 ∧ (client cfg).Run Machine.always h1 s1 ∧
    BatchBuilder.registered calls = [] ∧
    ((BatchBuilder.ofCalls calls).build cfg.profile s1.idmgr).1 = .ok o ∧
    ∀ batch ∈ o, batch.request_id_range = none

theorem builtPlain (hr : (client cfg).Run Machine.always h s) (hids : reserved cfg h < 2 ^ 64)
    (hc : .build c none ∈ h) : BuiltPlain cfg h c := by
  obtain ⟨h1, h2, rfl⟩ := List.append_of_mem hc
  obtain ⟨s1, hr1, hexec⟩ := hr.split
  obtain ⟨s2, hs, -⟩ := Option.bind_eq_some_iff.1 hexec
  obtain ⟨calls, timeout, hcalls, hkey⟩ := batch_of_build hs
  -- the counter stands at the ids reserved before, and those of the batch were counted
  have hbuild : reserved cfg [.build c none] = (BatchBuilder.ofCalls calls).requests.length := by
    simp [reserved, total, Action.reservation, hcalls, Reservation.count]
  rw [List.append_cons, reserved_append, reserved_append, hbuild] at hids
  have hcur : s1.idmgr.current_id.toNat = reserved cfg h1 :=
    (idManager_ids (Run.idManager hr1) (show reserved cfg h1 < 2 ^ 64 by omega)).2.1
  obtain ⟨o, ho, hplain⟩ := BatchBuilder.build_returns (p := cfg.profile) (m := s1.idmgr)
    (BatchBuilder.valid_ofCalls calls) (by omega)
  have hnone : ∀ batch ∈ o, batch.request_id_range = none := by
    rintro batch rfl
    rw [ho] at hkey
    exact hkey
  have hparsers := BatchBuilder.parsers_ofCalls calls
  rw [hplain hnone] at hparsers
  exact ⟨calls, timeout, h1, h2, s1, o, hcalls, rfl, hr1,
    List.map_eq_nil_iff.1 hparsers.symm, ho, hnone⟩

/-- **Every result has its cause.** As long as the ids last, each result that a `request`, or a
`batch_request` that has registered, returns is one of those listed: with the path the call took,
and for what it received the frame or the drain that sent it. There is no panic among them, and no
`"channel closed"`. A `batch_request` that does not register had no requests, and `build` did not
panic either. -/
theorem outcomes_explained (hr : (client cfg).Run Machine.always h s)
    (hids : reserved cfg h < 2 ^ 64) :
    (∀ c (T : R.TypeId) (out : Outcome (R.Val T)), RequestReturned cfg s c out →
      RequestCause cfg h c T out) ∧
    (∀ c calls key out, BatchReturned cfg s c calls key out → BatchCause cfg h c calls key out) ∧
    ∀ c, .build c none ∈ h → BuiltPlain cfg h c :=
  ⟨fun _ _ _ => requestCause hr hids, fun _ _ _ _ => batchCause hr hids, fun _ => builtPlain hr hids⟩

/-- A third call with nothing but a notification in it. -/
def threeCalls : Config basicTypes :=
  { twoCalls with
    calls := fun
      | 2 => .batch [.addNotification "n" none] none
      | c => twoCalls.calls c }

theorem outcomes_explained_three :
    ∃ s, (client threeCalls).Run Machine.always (twoReplies ++ [.build 2 none]) s ∧
      RequestCause threeCalls (twoReplies ++ [.build 2 none]) 0 .U64 (.ok (7 : UInt64)) ∧
      (∃ out, BatchReturned threeCalls s 1 [.addRequest .U64 "b" none] ⟨⟨1⟩, ⟨1⟩⟩ out ∧
        BatchCause threeCalls (twoReplies ++ [.build 2 none]) 1 [.addRequest .U64 "b" none]
          ⟨⟨1⟩, ⟨1⟩⟩ out) ∧
      BuiltPlain threeCalls (twoReplies ++ [.build 2 none]) 2 := by
  have hrun : ((client threeCalls).exec State.init (twoReplies ++ [.build 2 none])).any (fun s =>
      s.unary.phase 0 = .over (.received (.ok (replySeven, ⟨33, 34⟩))) ∧
      s.batch.key 1 = some ⟨⟨1⟩, ⟨1⟩⟩ ∧ s.batch.phase 1 = .over (.received (.ok
        ⟨.Text "[\x7b\"jsonrpc\":\"2.0\",\"id\":1,\"result\":8\x7d]", [.ok ⟨34, 35⟩]⟩))) = true := by
    decide +kernel
  obtain ⟨s, hs, hend⟩ := (Option.any_eq_true _ _).1 hrun
  obtain ⟨hunary, hkey, hphase⟩ := of_decide_eq_true hend
  have hr := Machine.Run.of_exec hs
  have hseven : RequestReturned (R := basicTypes) threeCalls s 0 (T := .U64) (.ok (7 : UInt64)) :=
    ⟨"a", none, none, _, rfl, hunary, rfl⟩
  have hret : BatchReturned threeCalls s 1 [.addRequest .U64 "b" none] ⟨⟨1⟩, ⟨1⟩⟩ _ :=
    ⟨none, _, rfl, hkey, hphase, rfl⟩
  obtain ⟨hrequest, hbatch, hplain⟩ := outcomes_explained hr (by decide +kernel)
  exact ⟨s, hr, hrequest 0 .U64 (.ok (7 : UInt64)) hseven, ⟨_, hret, hbatch _ _ _ _ hret⟩,
    hplain 2 (by simp)⟩

/-! ## Calls that no frame answers -/

/-- The errors of a call that nobody answers. -/
def Unanswered {α : Type} (out : Outcome α) : Prop :=
  (∃ text, out = .err (.TransportError text)) ∨ ∃ d, out = .err (.RequestTimeout d)

/-- A request that no frame resolves is not answered; its params may not even have let it start. -/
theorem request_unanswered (hr : (client cfg).Run Machine.always h s)
    (hno : ∀ h1 h2 msg, h = h1 ++ .handle msg :: h2 → ¬ Resolves cfg h1 msg c) {T : R.TypeId}
    {out : Outcome (R.Val T)} (hret : RequestReturned cfg s c out) :
    Unanswered out ∨ ∃ id method params timeout e, cfg.calls c = .request T method params timeout ∧
      (JsonRpcRequest.tryNew ⟨0⟩ method params []).1 = .error e ∧
      ownActions c h = [.reserveId c id] ∧ out = .err e := by
  rcases requestCause_or_closed hr hret with hcause | ⟨-, rfl⟩
  · cases hcause with
    | unserializable hcalls herr hown => exact .inr ⟨_, _, _, _, _, hcalls, herr, hown, rfl⟩
    | refused => exact .inl (.inl ⟨_, rfl⟩)
    | timedOut => exact .inl (.inr ⟨_, rfl⟩)
    | lost => exact .inl (.inl ⟨_, rfl⟩)
    | answered hown hres =>
      obtain ⟨h1, h2, heq, hres, -⟩ := hres
      exact absurd hres (hno h1 h2 _ heq)
    | rejected hown hres =>
      obtain ⟨h1, h2, heq, hres, -⟩ := hres
      exact absurd hres (hno h1 h2 _ heq)
  · exact .inl (.inl ⟨_, rfl⟩)

theorem batch_unanswered (hr : (client cfg).Run Machine.always h s)
    (hno : ∀ h1 h2 msg, h = h1 ++ .handle msg :: h2 → ¬ Resolves cfg h1 msg c)
    {calls : List (BatchBuilder.Call R)} {key : RangeInclusive}
    {out : Outcome (Option (List (BatchResponseItem R)))}
    (hret : BatchReturned cfg s c calls key out) : Unanswered out := by
  rcases batchCause_or_closed hr hret with hcause | ⟨-, rfl⟩
  · cases hcause with
    | refused => exact .inl ⟨_, rfl⟩
    | timedOut => exact .inr ⟨_, rfl⟩
    | lost => exact .inl ⟨_, rfl⟩
    | answered hown hres =>
      obtain ⟨h1, h2, heq, hres, -⟩ := hres
      exact absurd hres (hno h1 h2 _ heq)
  · exact .inl ⟨_, rfl⟩

/-! ## After a panic -/

section
variable {cfg : SessionConfig R} {h1 h2 : List SessionAction} {s s1 : Session}

/-- The task does not come back. -/
theorem SessionRun.panicked (hr1 : (session cfg).Run Machine.always h1 s1)
    (hpanic : s1.feed.task = .panicked)
    (hr : (session cfg).Run Machine.always (h1 ++ h2) s) : s.feed.task = .panicked := by
  refine hr.segment (P := fun s => s.feed.task = .panicked) hr1 hpanic ?_
  intro p a s2 s3 _ _ h hs
  cases (session_cases hs).task with
  | none ht => exact ht.trans h
  | start ht => cases h.symm.trans ht
  | item ht => cases h.symm.trans ht
  | lagged ht => cases h.symm.trans ht
  | handle ht => cases h.symm.trans ht

/-- No frame resolves a call that registers after the task is gone. -/
theorem not_resolved_after_panic (hr1 : (session cfg).Run Machine.always h1 s1)
    (hpanic : s1.feed.task = .panicked) (hr : (session cfg).Run Machine.always (h1 ++ h2) s)
    (hc : .call c .insert ∈ h2.filterMap SessionAction.onClient) {b1 b2 : List Action}
    {msg : Message}
    (hb : (h1 ++ h2).filterMap SessionAction.onClient = b1 ++ .handle msg :: b2) :
    ¬ Resolves cfg.toConfig b1 msg c := by
  intro hres
  obtain ⟨g1, g2, hg, rfl, rfl⟩ := SessionRun.handle_of_client hr hb
  -- the frame was handled while the task was there, and the call registers afterwards
  have hbefore : ∃ mid, h1 = g1 ++ .handle msg :: mid := by
    rcases List.append_eq_append_iff.1 hg with ⟨mid, rfl, hmid⟩ | ⟨mid, hmid, hrest⟩
    · have hr' := hr
      rw [hmid, ← List.append_assoc, List.append_cons] at hr'
      obtain ⟨s2, hr2, -⟩ := hr'.split
      obtain ⟨s3, hr3, -, hs⟩ := hr2.last
      obtain ⟨pos, htask⟩ := (session_cases hs).handling
      cases (SessionRun.panicked hr1 hpanic hr3).symm.trans htask
    · cases mid with
      | nil =>
        have hr' := hr
        rw [List.append_nil] at hmid
        subst hmid
        rw [← show SessionAction.handle msg :: g2 = h2 from hrest, List.append_cons] at hr'
        obtain ⟨s2, hr2, -⟩ := hr'.split
        obtain ⟨s3, hr3, -, hs⟩ := hr2.last
        obtain ⟨pos, htask⟩ := (session_cases hs).handling
        obtain rfl := hr1.unique hr3
        cases hpanic.symm.trans htask
      | cons x mid =>
        cases hrest
        exact ⟨mid, hmid⟩
  obtain ⟨mid, rfl⟩ := hbefore
  obtain ⟨k1, k2, hk⟩ := List.append_of_mem hc
  have hclient := SessionRun.client hr
  rw [List.filterMap_append, hk, ← List.append_assoc] at hclient
  obtain ⟨s5, hr5, hexec⟩ := hclient.split
  obtain ⟨s4, hs, -⟩ := Option.bind_eq_some_iff.1 hexec
  rw [List.filterMap_append, List.append_assoc] at hr5
  obtain ⟨s6, hr6, -⟩ := hr5.split
  exact pending_not_inserts hr5 hr6 (hres.pending hr6) hs

/-- **After a panic of `incoming_task` no call succeeds.** The client goes on as if nothing had
happened: it takes calls and sends their messages, and each of them that returns, returns a timeout
or a `TransportError`. -/
theorem deaf_after_panic (hr1 : (session cfg).Run Machine.always h1 s1)
    (hpanic : s1.feed.task = .panicked) (hr : (session cfg).Run Machine.always (h1 ++ h2) s)
    (hc : .link (.client (.call c .insert)) ∈ h2) :
    (∀ (T : R.TypeId) (out : Outcome (R.Val T)),
      RequestReturned cfg.toConfig s.core c out → Unanswered out) ∧
    ∀ calls key out, BatchReturned cfg.toConfig s.core c calls key out → Unanswered out := by
  have hclient := SessionRun.client hr
  have hinsert : .call c .insert ∈ h2.filterMap SessionAction.onClient :=
    List.mem_filterMap.2 ⟨_, hc, rfl⟩
  have hno : ∀ b1 b2 msg, (h1 ++ h2).filterMap SessionAction.onClient =
      b1 ++ .handle msg :: b2 → ¬ Resolves cfg.toConfig b1 msg c :=
    fun _ _ _ => not_resolved_after_panic hr1 hpanic hr hinsert
  refine ⟨fun T out hret => ?_, fun calls key out => batch_unanswered hclient hno⟩
  rcases request_unanswered hclient hno hret with hout | ⟨id, -, -, -, -, -, -, hown, -⟩
  · exact hout
  · -- it has registered
    have hmem : .call c .insert ∈ ownActions c
        ((h1 ++ h2).filterMap SessionAction.onClient) := by
      rw [List.filterMap_append]
      exact List.mem_filter.2 ⟨List.mem_append_right _ hinsert, by simp [Action.caller]⟩
    rw [hown] at hmem
    simp at hmem

end

/-- A frame makes the task panic … -/
def panicking : List SessionAction :=
  [.feed .start, .feed (.receive (.Text lastTwice)), .feed (.recv (.item (.Text lastTwice))),
    .handle (.Text lastTwice)]

/-- … and a request is made and answered after that. -/
def requestAfterPanic : List SessionAction :=
  [.link (.client (.reserveId 0 ⟨0⟩)), .link (.client (.call 0 .insert)),
    .link (.client (.call 0 .sendOk)), .feed (.receive replySeven),
    .link (.client (.call 0 .expire)), .link (.client (.call 0 .remove))]

theorem deaf_after_panic_expired :
    ∃ s, (session session2).Run Machine.always (panicking ++ requestAfterPanic) s ∧
      s.core.unary.phase 0 = .over .timedOut ∧
      ∀ (T : basicTypes.TypeId) (out : Outcome (basicTypes.Val T)),
        RequestReturned twoCalls s.core 0 out → Unanswered out := by
  have hrun1 : ((session session2).exec (session session2).init panicking).any
      (fun s => s.feed.task = .panicked) = true := by decide +kernel
  obtain ⟨s1, hs1, hpanic⟩ := (Option.any_eq_true _ _).1 hrun1
  have hrun : ((session session2).exec (session session2).init
      (panicking ++ requestAfterPanic)).any
      (fun s => s.core.unary.phase 0 = .over .timedOut) = true := by decide +kernel
  obtain ⟨s, hs, hphase⟩ := (Option.any_eq_true _ _).1 hrun
  have hr1 := Machine.Run.of_exec hs1
  have hr := Machine.Run.of_exec hs
  exact ⟨s, hr, of_decide_eq_true hphase,
    (deaf_after_panic (c := 0) hr1 (of_decide_eq_true hpanic) hr
      (by simp [requestAfterPanic])).1⟩

end JsonRpc.Ws
