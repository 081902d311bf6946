import JsonRpcClient.Ws.Rpc

/-!
# What a `WsClient` sends (client.rs:218-358)

The messages that the transport took, in order, each with the call it was sent for. Beside the calls
of `Calls.lean` there are those that are in neither map, because nobody answers them: a `notify`,
and a `batch_request` that found no request in its builder.

| step | there |
| --- | --- |
| `client a` | a step of `Calls.lean`; its `sendOk` is the transport taking the message |
| `notify n` | client.rs:276-283: the message of a `notify`, or the error that keeps it from being sent |
| `accept`, `refuse`, `cancel` | client.rs:284, 317: the `await` on `client.send` of such a message |

`sent_once`: nothing is sent twice, neither by one call nor under one id, and each message asks for
what its call was made for. What a call returned says whether the peer may have seen it.
-/

namespace JsonRpc.Ws
open Json Arrange Oneshot

variable {R : ResponseTypes}

/-- Whose message it is. -/
inductive Origin where
  | call (c : Nat)
  | notification (n : Nat)
deriving DecidableEq

/-- A message that is sent and forgotten. -/
inductive Plain where
  | idle
  | sending (payload : Bytes)
  | sent
  | refused
  | cancelled
  /-- the call returned without sending anything -/
  | unsent (out : Outcome Unit)

structure OutboundConfig (R : ResponseTypes) extends Config R where
  /-- the method and the params of every `notify` that is ever made -/
  notifications : Nat → String × Option Serialized

structure Outbound where
  core : State
  plain : Origin → Plain
  wire : List (Origin × Bytes)

inductive OutAction where
  | client (a : Action)
  | notify (n : Nat)
  | accept (o : Origin)
  | refuse (o : Origin)
  | cancel (o : Origin)

/-- What a registered call hands to the transport (client.rs:243-249, 314-326). -/
def State.payload (cfg : Config R) (s : State) (c : Nat) : Option Bytes :=
  match cfg.calls c with
  | .request _ method params _ =>
    match (s.unary.key c).map fun id => (JsonRpcRequest.tryNew id method params []).1 with
    | some (.ok request) => some (JsonRpcOutgoing.toBytes (.Request request))
    | _ => none
  | .batch calls _ =>
    match (s.batch.key c).map fun key => (BatchBuilder.ofCalls calls).assemble (some key) with
    | some (.ok batch) => some (batchBytes batch.items)
    | _ => none

/-- What a step of a registered call puts on the wire. -/
def State.handed (cfg : Config R) (s : State) : Action → List (Origin × Bytes)
  | .call c .sendOk => ((s.payload cfg c).map (Origin.call c, ·)).toList
  | _ => []

/-- client.rs:280-283. -/
def plainNotify (method : String) (params : Option Serialized) : Plain :=
  match (JsonRpcNotification.tryNew method params []).1 with
  | .ok notification => .sending (JsonRpcOutgoing.toBytes (.Notification notification))
  | .error e => .unsent (.err e)

/-- client.rs:305-317, for a batch that has no range. -/
def plainBatch : Outcome (Option (Batch R)) → Plain
  | .ret (.ok (some batch)) => .sending (batchBytes batch.items)
  | .ret (.ok none) => .unsent (.ok ())
  | .ret (.error e) => .unsent (.err e)
  | .panic => .unsent .panic

namespace Outbound

def setPlain (s : Outbound) (o : Origin) (p : Plain) : Outbound :=
  { s with plain := Function.update s.plain o p }

@[simp] theorem setPlain_core (s : Outbound) (o : Origin) (p : Plain) :
    (s.setPlain o p).core = s.core := rfl
@[simp] theorem setPlain_wire (s : Outbound) (o : Origin) (p : Plain) :
    (s.setPlain o p).wire = s.wire := rfl
@[simp] theorem setPlain_plain (s : Outbound) (o : Origin) (p : Plain) :
    (s.setPlain o p).plain = Function.update s.plain o p := rfl

/-- The transport takes a plain message. -/
def took (s : Outbound) (o : Origin) (payload : Bytes) : Outbound :=
  ⟨s.core, Function.update s.plain o .sent, s.wire ++ [(o, payload)]⟩

@[simp] theorem took_core (s : Outbound) (o : Origin) (payload : Bytes) :
    (s.took o payload).core = s.core := rfl
@[simp] theorem took_wire (s : Outbound) (o : Origin) (payload : Bytes) :
    (s.took o payload).wire = s.wire ++ [(o, payload)] := rfl
@[simp] theorem took_plain (s : Outbound) (o : Origin) (payload : Bytes) :
    (s.took o payload).plain = Function.update s.plain o .sent := rfl

/-- The forgotten message of a batch that is built without a range. -/
def afterBuild (cfg : OutboundConfig R) (s : Outbound) : Action → Origin → Plain
  | .build c none =>
    match cfg.calls c with
    | .batch calls _ => Function.update s.plain (.call c)
        (plainBatch ((BatchBuilder.ofCalls calls).build cfg.profile s.core.idmgr).1)
    | .request .. => s.plain
  | _ => s.plain

def step (cfg : OutboundConfig R) (s : Outbound) : OutAction → Option Outbound
  | .client a => (s.core.step cfg.toConfig a).map fun core =>
      ⟨core, s.afterBuild cfg a, s.wire ++ s.core.handed cfg.toConfig a⟩
  | .notify n =>
    match s.plain (.notification n) with
    | .idle => some (s.setPlain (.notification n)
        (plainNotify (cfg.notifications n).1 (cfg.notifications n).2))
    | _ => none
  | .accept o =>
    match s.plain o with
    | .sending payload => some (s.took o payload)
    | _ => none
  | .refuse o =>
    match s.plain o with
    | .sending _ => some (s.setPlain o .refused)
    | _ => none
  | .cancel o =>
    match s.plain o with
    | .sending _ => some (s.setPlain o .cancelled)
    | _ => none

end Outbound

def outbound (cfg : OutboundConfig R) : Machine Outbound OutAction :=
  ⟨⟨State.init, fun _ => .idle, []⟩, Outbound.step cfg⟩

/-- The step of the client in a step. -/
def OutAction.onClient : OutAction → Option Action
  | .client a => some a
  | _ => none

/-- What a `notify` returned. -/
def NotifyReturned (s : Outbound) (n : Nat) (out : Outcome Unit) : Prop :=
  match s.plain (.notification n) with
  | .sent => out = .ok ()
  | .refused => out = .err (.TransportError "the message was not sent")
  | .unsent r => out = r
  | _ => False

/-- What a `batch_request` returned that did not register. -/
def PlainReturned (s : Outbound) (c : Nat)
    (out : Outcome (Option (List (BatchResponseItem R)))) : Prop :=
  match s.plain (.call c) with
  | .sent => out = .ok none
  | .refused => out = .err (.TransportError "the message was not sent")
  | .unsent r => out = r.bind fun _ => .ok none
  | _ => False

variable {cfg : OutboundConfig R} {h : List OutAction} {s s' : Outbound} {a : OutAction}

/-- What a step does. -/
inductive OutStep (cfg : OutboundConfig R) (s : Outbound) : OutAction → Outbound → Prop
  | client {a core} (hs : s.core.step cfg.toConfig a = some core) :
      OutStep cfg s (.client a) ⟨core, s.afterBuild cfg a, s.wire ++ s.core.handed cfg.toConfig a⟩
  | notify {n} (hidle : s.plain (.notification n) = .idle) :
      OutStep cfg s (.notify n) (s.setPlain (.notification n)
        (plainNotify (cfg.notifications n).1 (cfg.notifications n).2))
  | accept {o payload} (hsending : s.plain o = .sending payload) :
      OutStep cfg s (.accept o) (s.took o payload)
  | refuse {o payload} (hsending : s.plain o = .sending payload) :
      OutStep cfg s (.refuse o) (s.setPlain o .refused)
  | cancel {o payload} (hsending : s.plain o = .sending payload) :
      OutStep cfg s (.cancel o) (s.setPlain o .cancelled)

theorem outStep_cases (hs : (outbound cfg).step s a = some s') : OutStep cfg s a s' := by
  cases a with
  | client a =>
    obtain ⟨core, hcore, rfl⟩ := Option.map_eq_some_iff.1 hs
    exact .client hcore
  | notify n =>
    simp only [outbound, Outbound.step] at hs
    split at hs <;> cases hs
    exact .notify ‹_›
  | accept o =>
    simp only [outbound, Outbound.step] at hs
    split at hs <;> cases hs
    exact .accept ‹_›
  | refuse o =>
    simp only [outbound, Outbound.step] at hs
    split at hs <;> cases hs
    exact .refuse ‹_›
  | cancel o =>
    simp only [outbound, Outbound.step] at hs
    split at hs <;> cases hs
    exact .cancel ‹_›

/-- The calls in a run of it are a run of the client. -/
theorem OutRun.client (hr : (outbound cfg).Run Machine.always h s) :
    (client cfg.toConfig).Run Machine.always (h.filterMap OutAction.onClient) s.core := by
  apply hr.project Outbound.core OutAction.onClient rfl
  intro s a s' _ hs
  cases outStep_cases hs with
  | client hcore => exact ⟨trivial, hcore⟩
  | _ => rfl

/-! ## How often a registered call sends -/

section
variable {cfg : Config R} {h : List Action} {s s' : State} {a : Action} {c : Nat}

def Action.sends (c : Nat) : Action → Bool
  | .call c' .sendOk => c' = c
  | _ => false

theorem countP_own (c : Nat) (h : List Action) :
    (ownActions c h).countP (Action.sends c) = h.countP (Action.sends c) := by
  rw [ownActions, List.countP_filter]
  refine List.countP_congr fun a _ => ?_
  cases a with
  | call c' step => cases step <;> simp [Action.sends, Action.caller]
  | _ => simp [Action.sends]

/-- The sends of a call are those among its own steps. -/
theorem countP_sends {K V : Type} [DecidableEq K] {g : Action → Option (Act K Nat Agent V)}
    (hmap : (ownActions c h).map g = (ownSteps c (h.filterMap g)).map some)
    (hsends : ∀ a act, g a = some act → a.caller = some c → act.sends = a.sends c) :
    h.countP (Action.sends c) = (ownSteps c (h.filterMap g)).countP Act.sends := by
  have hacts : (ownSteps c (h.filterMap g)).countP Act.sends =
      ((ownActions c h).map g).countP fun act => act.any Act.sends := by
    rw [hmap, List.countP_map]
    rfl
  rw [← countP_own, hacts, List.countP_map]
  refine List.countP_congr fun a ha => ?_
  have hcaller : a.caller = some c := of_decide_eq_true (List.mem_filter.1 ha).2
  have hg : g a ∈ (ownSteps c (h.filterMap g)).map some := hmap ▸ List.mem_map_of_mem ha
  obtain ⟨act, -, hact⟩ := List.mem_map.1 hg
  simp only [Function.comp_apply, ← hact, Option.any_some, hsends a act hact.symm hcaller]

theorem sends_act {K A V : Type} (step : CallStep) :
    (step.act c : Act K Nat A V).sends = (Action.call c step).sends c := by
  cases step <;> simp [CallStep.act, Act.sends, Action.sends]

theorem sent_unary (hreq : (cfg.calls c).isRequest = true)
    (hr : (client cfg).Run Machine.always h s) :
    (s.unary.phase c).Sent (h.countP (Action.sends c)) := by
  rw [countP_sends (ownActions_unary hreq hr) fun a act hact hc => ?_]
  · exact (Oneshot.Run.path (tableRun_unary hr) c).sent
  · rcases onUnary_cases hact with ⟨c', id, rfl, rfl | rfl⟩ | ⟨c', step, rfl, -, rfl⟩ |
      ⟨_, _, _, rfl, -, rfl⟩ | ⟨rfl, rfl⟩ | ⟨_, rfl, rfl⟩ | ⟨rfl, rfl⟩
    · rfl
    · rfl
    · obtain rfl := Option.some.inj hc
      exact sends_act step
    all_goals rfl

theorem sent_batch (hreq : (cfg.calls c).isRequest = false)
    (hr : (client cfg).Run Machine.always h s) :
    (s.batch.phase c).Sent (h.countP (Action.sends c)) := by
  rw [countP_sends (ownActions_batch hreq hr) fun a act hact hc => ?_]
  · exact (Oneshot.Run.path (tableRun_batch hr) c).sent
  · rcases onBatch_cases hact with ⟨c', key, rfl, ⟨k, rfl, rfl⟩ | rfl⟩ | ⟨c', step, rfl, -, rfl⟩ |
      ⟨_, _, _, rfl, -, rfl⟩ | ⟨rfl, rfl⟩ | ⟨_, rfl, rfl⟩ | ⟨rfl, rfl⟩
    · rfl
    · rfl
    · obtain rfl := Option.some.inj hc
      exact sends_act step
    all_goals rfl

/-- A call has an id only if its params could be serialized. -/
theorem request_of_key {id : RequestId} (hr : (client cfg).Run Machine.always h s)
    (hkey : s.unary.key c = some id) :
    ∃ T method params timeout r, cfg.calls c = .request T method params timeout ∧
      (JsonRpcRequest.tryNew id method params []).1 = .ok r := by
  have hmem := ((Oneshot.Run.provenanceInv (tableRun_unary hr)).prepared c id hkey).subset
    List.mem_cons_self
  obtain ⟨a, -, ha⟩ := List.mem_filterMap.1 hmem
  rcases onUnary_cases ha with ⟨c', id', rfl, h | h⟩ | ⟨c', step, -, -, h⟩ |
    ⟨_, _, _, -, -, h⟩ | ⟨-, h⟩ | ⟨_, -, h⟩ | ⟨-, h⟩
  · cases h
    simp only [Action.onUnary] at ha
    split at ha
    · rename_i T method params timeout hcalls
      cases hnew : (JsonRpcRequest.tryNew id method params []).1 with
      | ok r => exact ⟨T, method, params, timeout, r, hcalls, hnew⟩
      | error e =>
        rw [hnew] at ha
        cases ha
    · cases ha
  · cases h
  · cases step <;> cases h
  all_goals cases h

/-- A call that is about to send has its key. -/
theorem key_of_sending {K V : Type} [DecidableEq K] {t t' : Table K Nat Agent V}
    {l : List (Act K Nat Agent V)} (hpath : Path c (t.phase c) (t.key c) l)
    (hs : Step t (.sendOk c) t') : ∃ k, t.key c = some k := by
  cases hs with
  | sendOk hphase =>
    rw [hphase] at hpath
    generalize t.key c = key at hpath
    cases hpath
    exact ⟨_, rfl⟩

end

/-! ## Whose message it is -/

/-- The message of a call, or of a `notify`, as the code writes it. -/
inductive Wrote (cfg : OutboundConfig R) (s : State) : Origin → Bytes → Prop
  | request {c T method params timeout id r}
      (hcalls : cfg.calls c = .request T method params timeout) (hkey : s.unary.key c = some id)
      (hnew : (JsonRpcRequest.tryNew id method params []).1 = .ok r) :
      Wrote cfg s (.call c) (JsonRpcOutgoing.toBytes (.Request r))
  | batch {c calls timeout key batch} (hcalls : cfg.calls c = .batch calls timeout)
      (hkey : s.batch.key c = some key)
      (hbatch : (BatchBuilder.ofCalls calls).assemble (some key) = .ok batch) :
      Wrote cfg s (.call c) (batchBytes batch.items)
  | plain {c calls timeout batch} (hcalls : cfg.calls c = .batch calls timeout)
      (hphase : s.batch.phase c = .over .early)
      (hbatch : (BatchBuilder.ofCalls calls).assemble none = .ok batch) :
      Wrote cfg s (.call c) (batchBytes batch.items)
  | notification {n notification}
      (hnew : (JsonRpcNotification.tryNew (cfg.notifications n).1 (cfg.notifications n).2 []).1 =
        .ok notification) :
      Wrote cfg s (.notification n) (JsonRpcOutgoing.toBytes (.Notification notification))

/-- What a step that sends puts on the wire. -/
theorem handed_sendOk {h : List Action} {s s' : State} {c : Nat}
    (hr : (client cfg.toConfig).Run Machine.always h s)
    (hs : s.step cfg.toConfig (.call c .sendOk) = some s') :
    ∃ payload, s.handed cfg.toConfig (.call c .sendOk) = [(.call c, payload)] ∧
      Wrote cfg s (.call c) payload := by
  cases hcalls : cfg.calls c with
  | request T method params timeout =>
    have hact : Action.onUnary cfg.toConfig (.call c .sendOk) = some (.sendOk c) := by
      simp [Action.onUnary, hcalls, CallSpec.isRequest, CallStep.act]
    obtain ⟨-, hu, -⟩ := step_eq_some.1 hs
    rw [hact] at hu
    obtain ⟨id, hkey⟩ := key_of_sending (Oneshot.Run.path (tableRun_unary hr) c) (step_cases hu)
    obtain ⟨T', method', params', timeout', r, hcalls', hnew⟩ := request_of_key hr hkey
    cases hcalls.symm.trans hcalls'
    refine ⟨_, ?_, .request hcalls hkey hnew⟩
    simp [State.handed, State.payload, hcalls, hkey, hnew]
  | batch calls timeout =>
    have hact : Action.onBatch cfg.toConfig (.call c .sendOk) = some (.sendOk c) := by
      simp [Action.onBatch, hcalls, CallSpec.isRequest, CallStep.act]
    obtain ⟨-, -, hb, -⟩ := step_eq_some.1 hs
    rw [hact] at hb
    obtain ⟨key, hkey⟩ := key_of_sending (Oneshot.Run.path (tableRun_batch hr) c) (step_cases hb)
    have hbatch := (BatchBuilder.valid_ofCalls calls).assemble_eq (some key)
    refine ⟨_, ?_, .batch hcalls hkey hbatch⟩
    simp [State.handed, State.payload, hcalls, hkey, hbatch]

/-- A call keeps its message. -/
theorem Wrote.step {h : List Action} {s s' : State} {a : Action} {o : Origin} {payload : Bytes}
    (hw : Wrote cfg s o payload) (hr : (client cfg.toConfig).Run Machine.always h s)
    (hs : s.step cfg.toConfig a = some s') : Wrote cfg s' o payload := by
  cases hw with
  | request hcalls hkey hnew => exact .request hcalls (Run.unary_key hr hs hkey) hnew
  | batch hcalls hkey hbatch => exact .batch hcalls (Run.batch_key hr hs hkey) hbatch
  | plain hcalls hphase hbatch =>
    refine .plain hcalls ?_ hbatch
    rcases batch_step hs with hb | ⟨act, -, hb⟩
    · rw [hb]
      exact hphase
    · exact step_over hb hphase
  | notification hnew => exact .notification hnew

/-! ## The wire -/

def Plain.count : Plain → Nat
  | .sent => 1
  | _ => 0

/-- How often a registered call has sent. -/
def Origin.sends (h : List Action) : Origin → Nat
  | .call c => h.countP (Action.sends c)
  | .notification _ => 0

theorem Origin.sends_append (h h' : List Action) (o : Origin) :
    o.sends (h ++ h') = o.sends h + o.sends h' := by
  cases o with
  | call c => exact List.countP_append
  | notification n => rfl

/-- Why a `notify`, or a batch that does not register, sends nothing. -/
inductive Unsendable (cfg : OutboundConfig R) : Origin → Outcome Unit → Prop
  | empty {c calls timeout} (hcalls : cfg.calls c = .batch calls timeout)
      (hreq : (BatchBuilder.ofCalls calls).requests = [])
      (hnot : (BatchBuilder.ofCalls calls).notifications = []) : Unsendable cfg (.call c) (.ok ())
  /-- the end of the ids, in a build with overflow checks -/
  | overflow {c} : Unsendable cfg (.call c) .panic
  | params {n e} (he : (JsonRpcNotification.tryNew (cfg.notifications n).1
      (cfg.notifications n).2 []).1 = .error e) : Unsendable cfg (.notification n) (.err e)

/-- Everything on the wire was sent for some call, by it. -/
structure OutInv (cfg : OutboundConfig R) (g : List Action) (s : Outbound) : Prop where
  count : ∀ o, (s.wire.map Prod.fst).count o = (s.plain o).count + o.sends g
  early : ∀ c, s.plain (.call c) ≠ .idle → s.core.batch.phase c = .over .early
  wrote : ∀ e ∈ s.wire, Wrote cfg s.core e.1 e.2
  sending : ∀ o payload, s.plain o = .sending payload → Wrote cfg s.core o payload
  unsent : ∀ o out, s.plain o = .unsent out → Unsendable cfg o out

/-- The plain messages of a client change when a batch is built without a range, and nothing but
the send of a registered call goes over the wire. -/
theorem client_cases {core : State} {a : Action} (hs : s.core.step cfg.toConfig a = some core) :
    (∃ c, a = .call c .sendOk) ∨ (∃ c calls timeout, a = .build c none ∧
      cfg.calls c = .batch calls timeout ∧ s.afterBuild cfg a = Function.update s.plain (.call c)
        (plainBatch ((BatchBuilder.ofCalls calls).build cfg.profile s.core.idmgr).1)) ∨
    s.afterBuild cfg a = s.plain ∧ s.core.handed cfg.toConfig a = [] ∧ ∀ o : Origin, o.sends [a] = 0 := by
  have hother : ∀ {a : Action}, (∀ c, a.sends c = false) → ∀ o : Origin, o.sends [a] = 0 := by
    intro a ha o
    cases o with
    | call c => simp [Origin.sends, ha c]
    | notification n => rfl
  cases a with
  | build c key =>
    cases key with
    | none =>
      obtain ⟨calls, timeout, hcalls, -⟩ := batch_of_build hs
      exact .inr (.inl ⟨c, calls, timeout, rfl, hcalls, by simp [Outbound.afterBuild, hcalls]⟩)
    | some key => exact .inr (.inr ⟨rfl, rfl, hother fun _ => rfl⟩)
  | call c step =>
    cases step with
    | sendOk => exact .inl ⟨c, rfl⟩
    | _ => exact .inr (.inr ⟨rfl, rfl, hother fun _ => rfl⟩)
  | _ => exact .inr (.inr ⟨rfl, rfl, hother fun _ => rfl⟩)

/-- What a batch without a range is going to send. -/
theorem plainBatch_sending {calls : List (BatchBuilder.Call R)} {p : Profile}
    {m : RequestIdManager} {payload : Bytes}
    (hkey : buildKey ((BatchBuilder.ofCalls calls).build p m).1 = none)
    (h : plainBatch ((BatchBuilder.ofCalls calls).build p m).1 = .sending payload) :
    ∃ batch, (BatchBuilder.ofCalls calls).assemble none = .ok batch ∧
      payload = batchBytes batch.items := by
  have hvalid := BatchBuilder.valid_ofCalls calls
  unfold plainBatch at h
  split at h
  · rename_i batch hbuild
    cases h
    refine ⟨batch, ?_, rfl⟩
    rw [hbuild] at hkey
    have hrange : batch.request_id_range = none := hkey
    have hassemble := assembled_of_build (show (_ : Outcome _) = .ok (some batch) from hbuild)
    rwa [hrange] at hassemble
  all_goals cases h

/-- A batch that is not sent is empty, or could not reserve its ids. -/
theorem plainBatch_unsent {calls : List (BatchBuilder.Call R)} {p : Profile}
    {m : RequestIdManager} {out : Outcome Unit}
    (h : plainBatch ((BatchBuilder.ofCalls calls).build p m).1 = .unsent out) :
    out = .ok () ∧ (BatchBuilder.ofCalls calls).requests = [] ∧
      (BatchBuilder.ofCalls calls).notifications = [] ∨ out = .panic := by
  unfold BatchBuilder.build at h
  split at h
  · rename_i hempty
    cases h
    simp only [Bool.and_eq_true, List.isEmpty_iff] at hempty
    exact .inl ⟨rfl, hempty⟩
  · split at h
    · cases h
      exact .inr rfl
    · rw [(BatchBuilder.valid_ofCalls calls).assemble_eq] at h
      cases h

theorem plainBatch_count (out : Outcome (Option (Batch R))) : (plainBatch out).count = 0 := by
  unfold plainBatch
  split <;> rfl

theorem plainNotify_count (method : String) (params : Option Serialized) :
    (plainNotify method params).count = 0 := by
  unfold plainNotify
  split <;> rfl

section
variable {g : List Action} {core : State} {o : Origin} {payload : Bytes}

/-- A plain message that is not taken leaves the wire alone. -/
theorem OutInv.setPlain {p : Plain} (hi : OutInv cfg g s) (hcount : p.count = (s.plain o).count)
    (hearly : ∀ c, o = .call c → s.core.batch.phase c = .over .early)
    (hsending : ∀ payload, p = .sending payload → Wrote cfg s.core o payload)
    (hunsent : ∀ out, p = .unsent out → Unsendable cfg o out) :
    OutInv cfg g (s.setPlain o p) := by
  refine ⟨fun o' => ?_, fun c hc => ?_, hi.wrote, fun o' b hb => ?_, fun o' out hout => ?_⟩
  · rw [Outbound.setPlain_wire, Outbound.setPlain_plain, hi.count]
    by_cases ho : o' = o
    · rw [ho, Function.update_self, hcount]
    · rw [Function.update_of_ne ho]
  · simp only [Outbound.setPlain_plain] at hc
    by_cases ho : Origin.call c = o
    · exact hearly c ho.symm
    · rw [Function.update_of_ne ho] at hc
      exact hi.early c hc
  · simp only [Outbound.setPlain_plain] at hb
    by_cases ho : o' = o
    · rw [ho, Function.update_self] at hb
      rw [ho]
      exact hsending b hb
    · rw [Function.update_of_ne ho] at hb
      exact hi.sending o' b hb
  · simp only [Outbound.setPlain_plain] at hout
    by_cases ho : o' = o
    · rw [ho, Function.update_self] at hout
      rw [ho]
      exact hunsent out hout
    · rw [Function.update_of_ne ho] at hout
      exact hi.unsent o' out hout

theorem OutInv.accept (hi : OutInv cfg g s) (hsending : s.plain o = .sending payload) :
    OutInv cfg g (s.took o payload) := by
  refine ⟨fun o' => ?_, fun c hc => ?_, fun e he => ?_, fun o' b hb => ?_, fun o' out hout => ?_⟩
  · rw [Outbound.took_wire, Outbound.took_plain, List.map_append, List.count_append, hi.count]
    by_cases ho : o' = o
    · rw [ho, Function.update_self, hsending]
      simp [Plain.count]
      omega
    · rw [Function.update_of_ne ho]
      simp [Ne.symm ho]
  · simp only [Outbound.took_plain] at hc
    by_cases ho : Origin.call c = o
    · refine hi.early c ?_
      rw [ho, hsending]
      simp
    · rw [Function.update_of_ne ho] at hc
      exact hi.early c hc
  · rcases List.mem_append.1 he with he | he
    · exact hi.wrote e he
    · obtain rfl := List.mem_singleton.1 he
      exact hi.sending o payload hsending
  · simp only [Outbound.took_plain] at hb
    by_cases ho : o' = o
    · rw [ho, Function.update_self] at hb
      cases hb
    · rw [Function.update_of_ne ho] at hb
      exact hi.sending o' b hb
  · simp only [Outbound.took_plain] at hout
    by_cases ho : o' = o
    · rw [ho, Function.update_self] at hout
      cases hout
    · rw [Function.update_of_ne ho] at hout
      exact hi.unsent o' out hout

/-- A step of the client, as far as its own state goes. -/
theorem OutInv.quiet {a : Action} (hi : OutInv cfg g s)
    (hr : (client cfg.toConfig).Run Machine.always g s.core)
    (hs : s.core.step cfg.toConfig a = some core) (hzero : ∀ o : Origin, o.sends [a] = 0) :
    OutInv cfg (g ++ [a]) { s with core := core } := by
  refine ⟨fun o => ?_, fun c hc => ?_, fun e he => (hi.wrote e he).step hr hs,
    fun o b hb => (hi.sending o b hb).step hr hs, hi.unsent⟩
  · rw [Origin.sends_append, hzero, Nat.add_zero]
    exact hi.count o
  · have hearly := hi.early c hc
    rcases batch_step hs with hb | ⟨act, -, hb⟩
    · simpa only [hb] using hearly
    · exact step_over hb hearly

theorem OutInv.sendOk {c : Nat} (hi : OutInv cfg g s)
    (hr : (client cfg.toConfig).Run Machine.always g s.core)
    (hs : s.core.step cfg.toConfig (.call c .sendOk) = some core) :
    OutInv cfg (g ++ [.call c .sendOk])
      ⟨core, s.plain, s.wire ++ s.core.handed cfg.toConfig (.call c .sendOk)⟩ := by
  obtain ⟨payload, hpayload, hw⟩ := handed_sendOk hr hs
  rw [hpayload]
  refine ⟨fun o => ?_, fun c' hc' => ?_, fun e he => ?_,
    fun o b hb => (hi.sending o b hb).step hr hs, hi.unsent⟩
  · have hone : [Origin.call c].count o = o.sends [Action.call c .sendOk] := by
      cases o with
      | call c' =>
        by_cases hc : c = c'
        · simp [Origin.sends, Action.sends, hc]
        · simp [Origin.sends, Action.sends, hc]
      | notification n => simp [Origin.sends]
    rw [Origin.sends_append, List.map_append, List.count_append, hi.count, ← hone]
    exact Nat.add_assoc ..
  · have hearly := hi.early c' hc'
    rcases batch_step hs with hb | ⟨act, -, hb⟩
    · simpa only [hb] using hearly
    · exact step_over hb hearly
  · rcases List.mem_append.1 he with he | he
    · exact (hi.wrote e he).step hr hs
    · obtain rfl := List.mem_singleton.1 he
      exact hw.step hr hs

/-- A batch that is built without a range ends in its map before it has begun there. -/
theorem OutInv.build {c : Nat} {calls : List (BatchBuilder.Call R)} {timeout : Option Duration}
    (hi : OutInv cfg g s) (hr : (client cfg.toConfig).Run Machine.always g s.core)
    (hs : s.core.step cfg.toConfig (.build c none) = some core)
    (hcalls : cfg.calls c = .batch calls timeout) :
    OutInv cfg (g ++ [.build c none]) (Outbound.setPlain { s with core := core } (.call c)
      (plainBatch ((BatchBuilder.ofCalls calls).build cfg.profile s.core.idmgr).1)) := by
  have hphase : s.core.batch.phase c = .fresh ∧ core.batch.phase c = .over .early := by
    obtain ⟨-, -, hb, -⟩ := step_eq_some.1 hs
    have hb : s.core.batch.step (.abort c) = some core.batch := hb
    generalize core.batch = t at hb ⊢
    cases step_cases hb with
    | abort hfresh => exact ⟨hfresh, by simp⟩
  have hidle : s.plain (.call c) = .idle := by
    by_contra hno
    rw [hi.early c hno] at hphase
    cases hphase.1
  refine (hi.quiet hr hs (by rintro (c | n) <;> rfl)).setPlain ?_ ?_ ?_ ?_
  · rw [plainBatch_count, hidle]
    rfl
  · rintro c' ⟨⟩
    exact hphase.2
  · intro payload hp
    obtain ⟨_, _, hcalls', hkey⟩ := batch_of_build hs
    cases hcalls.symm.trans hcalls'
    obtain ⟨batch, hbatch, rfl⟩ := plainBatch_sending hkey hp
    exact .plain hcalls hphase.2 hbatch
  · intro out hout
    rcases plainBatch_unsent hout with ⟨rfl, hreq, hnot⟩ | rfl
    · exact .empty hcalls hreq hnot
    · exact .overflow

end

theorem OutRun.inv (hr : (outbound cfg).Run Machine.always h s) :
    OutInv cfg (h.filterMap OutAction.onClient) s := by
  refine Machine.Run.invariant (P := fun h s => OutInv cfg (h.filterMap OutAction.onClient) s)
    ?_ ?_ hr
  · refine ⟨?_, fun _ h => absurd rfl h, by simp [outbound], by simp [outbound], by simp [outbound]⟩
    rintro (c | n) <;> rfl
  · intro h s a s' hr hi _ hs
    have hrun := OutRun.client hr
    rw [List.filterMap_append]
    cases outStep_cases hs with
    | client hcore =>
      rcases client_cases hcore with ⟨c, rfl⟩ | ⟨c, calls, timeout, rfl, hcalls, hafter⟩ |
        ⟨hafter, hnil, hzero⟩
      · exact hi.sendOk hrun hcore
      · rw [hafter, show s.core.handed cfg.toConfig (.build c none) = [] from rfl,
          List.append_nil]
        exact hi.build hrun hcore hcalls
      · rw [hafter, hnil, List.append_nil]
        exact hi.quiet hrun hcore hzero
    | @notify n hidle =>
      rw [show [OutAction.notify n].filterMap OutAction.onClient = [] from rfl, List.append_nil]
      refine hi.setPlain (by rw [plainNotify_count, hidle]; rfl) (by simp) ?_ ?_
      · intro payload hp
        unfold plainNotify at hp
        split at hp
        · rename_i notification hnew
          cases hp
          exact .notification hnew
        · cases hp
      · intro out hout
        unfold plainNotify at hout
        split at hout
        · cases hout
        · rename_i e he
          cases hout
          exact .params he
    | @accept o payload hsending =>
      rw [show [OutAction.accept o].filterMap OutAction.onClient = [] from rfl, List.append_nil]
      exact hi.accept hsending
    | @refuse o payload hsending =>
      rw [show [OutAction.refuse o].filterMap OutAction.onClient = [] from rfl, List.append_nil]
      refine hi.setPlain (by rw [hsending]; rfl) ?_ (by simp) (by simp)
      rintro c rfl
      exact hi.early c (by simp [hsending])
    | @cancel o payload hsending =>
      rw [show [OutAction.cancel o].filterMap OutAction.onClient = [] from rfl, List.append_nil]
      refine hi.setPlain (by rw [hsending]; rfl) ?_ (by simp) (by simp)
      rintro c rfl
      exact hi.early c (by simp [hsending])

/-! ## What the messages ask for -/

/-- The requests of a call, under the ids it reserved for them. -/
inductive Origin.Requests (cfg : OutboundConfig R) (s : State) :
    Origin → RequestId → String → Option Value → Prop
  | request {c T method params timeout id o}
      (hcalls : cfg.calls c = .request T method params timeout) (hkey : s.unary.key c = some id)
      (ho : serializeOptParams params = .ok o) :
      Requests cfg s (.call c) id method (o.map RawValue.json)
  | batch {c calls timeout key id} {i : Nat} {q : QueuedRequest R}
      (hcalls : cfg.calls c = .batch calls timeout) (hkey : s.batch.key c = some key)
      (hq : (BatchBuilder.queuedRequests calls)[i]? = some q) (hid : key.ids[i]? = some id) :
      Requests cfg s (.call c) id q.method (q.params.map RawValue.json)

section
variable {g : List Action} {core : State} {o o' : Origin} {payload : Bytes}

/-- A call that ended before it had a key has none. -/
theorem key_of_early {c : Nat} (hr : (client cfg.toConfig).Run Machine.always g core)
    (hc : core.batch.phase c = .over .early) : core.batch.key c = none := by
  have hpath := Oneshot.Run.path (tableRun_batch hr) c
  rw [hc] at hpath
  generalize ownSteps c (g.filterMap (Action.onBatch cfg.toConfig)) = l at hpath
  generalize core.batch.key c = key at hpath
  cases hpath
  rfl

/-- **Each message asks for just the requests of its call.** -/
theorem Wrote.asks (hw : Wrote cfg core o payload)
    (hr : (client cfg.toConfig).Run Machine.always g core) :
    ∃ t, Json.read payload = some t ∧ ∀ id method params,
      Asks t id method params ↔ o.Requests cfg core id method params := by
  cases hw with
  | @request c T m ps timeout id' r hcalls hkey hnew =>
    have ht := JsonRpcOutgoing.read_toBytes (.Request r)
    refine ⟨_, ht, fun id method params => ?_⟩
    rw [asks_tryNew hnew ht]
    constructor
    · rintro ⟨rfl, rfl, o, ho, rfl⟩
      exact .request hcalls hkey ho
    · intro h
      cases h with
      | request hcalls' hkey' ho =>
        cases hcalls.symm.trans hcalls'
        cases hkey.symm.trans hkey'
        exact ⟨rfl, rfl, _, ho, rfl⟩
      | batch hcalls' => cases hcalls.symm.trans hcalls'
  | @batch c calls timeout key batch hcalls hkey hbatch =>
    obtain ⟨t, -, ht, -⟩ := batch_written batch.items
    refine ⟨t, ht, fun id method params => ?_⟩
    rw [asks_assembled hbatch ht]
    constructor
    · rintro ⟨i, q, hq, hid, rfl, rfl⟩
      exact .batch hcalls hkey hq hid
    · intro h
      cases h with
      | request hcalls' => cases hcalls.symm.trans hcalls'
      | batch hcalls' hkey' hq hid =>
        cases hcalls.symm.trans hcalls'
        cases hkey.symm.trans hkey'
        exact ⟨_, _, hq, hid, rfl, rfl⟩
  | @plain c calls timeout batch hcalls hphase hbatch =>
    obtain ⟨t, -, ht, -⟩ := batch_written batch.items
    refine ⟨t, ht, fun id method params => ?_⟩
    rw [asks_assembled hbatch ht]
    constructor
    · rintro ⟨i, q, -, hid, -⟩
      cases hid
    · intro h
      cases h with
      | request hcalls' => cases hcalls.symm.trans hcalls'
      | batch _ hkey => rw [key_of_early hr hphase] at hkey; cases hkey
  | @notification n notification hnew =>
    have ht := JsonRpcOutgoing.read_toBytes (.Notification notification)
    refine ⟨_, ht, fun id method params => ?_⟩
    rw [asks_message ht]
    constructor
    · rintro ⟨r, hr, -⟩
      cases hr
    · intro h
      cases h

/-- **No message asks twice under one id.** -/
theorem Wrote.apart {t : Text} (hw : Wrote cfg core o payload)
    (ht : Json.read payload = some t) : AsksApart t := by
  cases hw with
  | request hcalls hkey hnew => exact asksApart_message ht
  | batch hcalls hkey hbatch => exact asksApart_assembled hbatch ht
  | plain hcalls hphase hbatch => exact asksApart_assembled hbatch ht
  | notification hnew => exact asksApart_message ht

/-- **The message of a `notify` is its notification.** -/
theorem Wrote.tells {n : Nat} (hw : Wrote cfg core (.notification n) payload) :
    ∃ t params, Json.read payload = some t ∧
      serializeOptParams (cfg.notifications n).2 = .ok params ∧
        t.root.HasMembers
          (notificationMembers (cfg.notifications n).1 (params.map RawValue.json)) := by
  cases hw with
  | notification hnew =>
    rw [JsonRpcNotification.tryNew, bufferedParams_nil] at hnew
    cases hparams : serializeOptParams (cfg.notifications n).2 with
    | error e => rw [hparams] at hnew; cases hnew
    | ok params =>
      rw [hparams] at hnew
      cases hnew
      refine ⟨_, params, JsonRpcOutgoing.read_toBytes _, rfl, ?_⟩
      have hmembers := (JsonRpcOutgoing.Notification ⟨{}, (cfg.notifications n).1, params⟩).hasMembers 0
      cases params <;> exact hmembers

/-- The step that reserved the id of a request. -/
theorem Origin.Requests.reserved {id : RequestId} {method : String} {params : Option Value}
    (hreq : o.Requests cfg core id method params)
    (hr : (client cfg.toConfig).Run Machine.always g core) :
    ∃ c a, o = .call c ∧ a ∈ g ∧ id ∈ a.ids ∧ a.caller = some c := by
  cases hreq with
  | request hcalls hkey ho =>
    exact ⟨_, _, rfl, reserved_unary hr hkey, List.mem_cons_self, rfl⟩
  | batch hcalls hkey hq hid =>
    exact ⟨_, _, rfl, reserved_batch hr hkey, List.mem_of_getElem? hid, rfl⟩

/-- **No two requests have the same id.** -/
theorem Origin.Requests.unique {id : RequestId} {method method' : String}
    {params params' : Option Value} (hreq : o.Requests cfg core id method params)
    (hreq' : o'.Requests cfg core id method' params')
    (hr : (client cfg.toConfig).Run Machine.always g core)
    (hids : Ws.reserved cfg.toConfig g < 2 ^ 64) :
    o = o' ∧ method = method' ∧ params = params' := by
  obtain ⟨c, a, rfl, ha, hida, hcaller⟩ := hreq.reserved hr
  obtain ⟨c', a', rfl, ha', hida', hcaller'⟩ := hreq'.reserved hr
  obtain rfl := reserves_inj hr hids ha ha' hida hida'
  obtain rfl := Option.some.inj (hcaller.symm.trans hcaller')
  refine ⟨rfl, ?_⟩
  cases hreq with
  | request hcalls hkey ho =>
    cases hreq' with
    | request hcalls' hkey' ho' =>
      cases hcalls.symm.trans hcalls'
      cases ho.symm.trans ho'
      exact ⟨rfl, rfl⟩
    | batch hcalls' => cases hcalls.symm.trans hcalls'
  | @batch _ calls _ key _ i q hcalls hkey hq hid =>
    cases hreq' with
    | request hcalls' => cases hcalls.symm.trans hcalls'
    | @batch _ _ _ _ _ i' q' hcalls' hkey' hq' hid' =>
      cases hcalls.symm.trans hcalls'
      cases hkey.symm.trans hkey'
      obtain ⟨hi, hie⟩ := List.getElem?_eq_some_iff.1 hid
      obtain ⟨hi', hie'⟩ := List.getElem?_eq_some_iff.1 hid'
      obtain rfl := key.nodup_ids.getElem_inj_iff.1 (hie.trans hie'.symm)
      obtain rfl := Option.some.inj (hq.symm.trans hq')
      exact ⟨rfl, rfl⟩

end

/-! ## What the results tell -/

/-- `o` is on the wire. -/
def Outbound.Sent (s : Outbound) (o : Origin) : Prop := o ∈ s.wire.map Prod.fst

/-- The results of a call that the peer may have seen. -/
def Reached {α : Type} (out : Outcome α) : Prop :=
  (∃ v, out = .ok v) ∨ (∃ id code message data, out = .err (.RpcError id code message data)) ∨
    (∃ d, out = .err (.RequestTimeout d)) ∨ out = .err connectionLost

/-- The results of a call that the peer has not seen. -/
def Unreached {α : Type} (out : Outcome α) : Prop :=
  out = .err .InvalidParams ∨ out = .err (.TransportError "the message was not sent")

/-- A request does not end as a batch. -/
theorem isBatch_of_early {g : List Action} {core : State} {c : Nat}
    (hr : (client cfg.toConfig).Run Machine.always g core)
    (hc : core.batch.phase c = .over .early) : (cfg.calls c).isRequest = false := by
  have hpath := Oneshot.Run.path (tableRun_batch hr) c
  rw [hc] at hpath
  generalize hl : ownSteps c (g.filterMap (Action.onBatch cfg.toConfig)) = l at hpath
  generalize core.batch.key c = key at hpath
  cases hpath
  have hmem : .abort c ∈ g.filterMap (Action.onBatch cfg.toConfig) :=
    List.mem_of_mem_filter (hl ▸ List.mem_singleton_self _)
  obtain ⟨a, ha, hact⟩ := List.mem_filterMap.1 hmem
  rcases onBatch_cases hact with ⟨c', key, rfl, ⟨k, -, h⟩ | h⟩ | ⟨c', step, -, -, h⟩ |
    ⟨_, _, _, -, -, h⟩ | ⟨-, h⟩ | ⟨_, -, h⟩ | ⟨-, h⟩
  · cases h
  · cases h
    obtain ⟨_, s1, s2, -, -, hs⟩ := hr.of_mem ha
    obtain ⟨calls, timeout, hcalls, -⟩ := batch_of_build hs
    rw [hcalls]
    rfl
  · cases step <;> cases h
  all_goals cases h

theorem OutInv.sent_iff {g : List Action} (hi : OutInv cfg g s) (o : Origin) :
    s.Sent o ↔ 0 < (s.plain o).count + o.sends g := by
  rw [← hi.count, List.count_pos_iff]
  rfl

/-- A call that registers has no plain message. -/
theorem OutInv.idle {g : List Action} {c : Nat} (hi : OutInv cfg g s)
    (hphase : s.core.batch.phase c ≠ .over .early) : s.plain (.call c) = .idle := by
  by_contra hno
  exact hphase (hi.early c hno)

theorem OutInv.count_le {g : List Action} (hi : OutInv cfg g s)
    (hr : (client cfg.toConfig).Run Machine.always g s.core) (o : Origin) :
    (s.wire.map Prod.fst).count o ≤ 1 := by
  have hplain : (s.plain o).count ≤ 1 := by
    unfold Plain.count
    split <;> omega
  rw [hi.count]
  cases o with
  | notification n => simpa [Origin.sends] using hplain
  | call c =>
    by_cases hearly : s.core.batch.phase c = .over .early
    · have hsent := sent_batch (isBatch_of_early hr hearly) hr
      rw [hearly] at hsent
      rw [Origin.sends, show g.countP (Action.sends c) = 0 from hsent]
      exact hplain
    · rw [hi.idle hearly, Origin.sends]
      cases hreq : (cfg.calls c).isRequest with
      | true => simpa [Plain.count] using (sent_unary hreq hr).le_one
      | false => simpa [Plain.count] using (sent_batch hreq hr).le_one

/-- Whether a registered call is on the wire is told by its own steps. -/
theorem OutInv.sent_own {g : List Action} {c : Nat} {l : List Action} (hi : OutInv cfg g s)
    (hphase : s.core.batch.phase c ≠ .over .early) (hown : ownActions c g = l) :
    s.Sent (.call c) ↔ 0 < l.countP (Action.sends c) := by
  rw [hi.sent_iff, hi.idle hphase, ← hown, countP_own]
  simp [Plain.count, Origin.sends]

/-- Params that cannot be serialized are told from all that comes from the peer or the transport. -/
theorem serializeOptParams_error {params : Option Serialized} {e : Error}
    (h : serializeOptParams params = .error e) : e = .SerdeError ∨ e = .InvalidParams := by
  cases params with
  | none => cases h
  | some value =>
    simp only [serializeOptParams, serializeParams] at h
    cases hjson : value.toString? with
    | none =>
      rw [hjson] at h
      cases h
      exact .inl rfl
    | some json =>
      rw [hjson] at h
      simp only [serdeOk] at h
      by_cases hstart : isObjectOrArray json = true
      · cases hraw : RawValue.fromString json with
        | none => simp [hstart, hraw, bind, Except.bind, Except.map] at h; exact .inl h.symm
        | some r => simp [hstart, hraw, bind, Except.bind, Except.map] at h
      · simp [hstart, bind, Except.bind, Except.map] at h
        exact .inr h.symm

theorem not_reached_of_unserializable {α : Type} {params : Option Serialized} {e : Error}
    (h : serializeOptParams params = .error e) : ¬ Reached (.err e : Outcome α) := by
  rintro (⟨v, hv⟩ | ⟨id, code, message, data, hv⟩ | ⟨d, hv⟩ | hv)
  · cases hv
  all_goals
    cases hv
    rcases serializeOptParams_error h with h | h <;> cases h

/-- A registered call, by its own steps. -/
theorem OutInv.told {g : List Action} {c : Nat} {l : List Action} {α : Type} {out : Outcome α}
    (hi : OutInv cfg g s) (hphase : s.core.batch.phase c ≠ .over .early)
    (hown : ownActions c g = l)
    (h : l.countP (Action.sends c) = 0 ∧ ¬ Reached out ∨
      0 < l.countP (Action.sends c) ∧ ¬ Unreached out) :
    (Reached out → s.Sent (.call c)) ∧ (Unreached out → ¬ s.Sent (.call c)) := by
  rw [hi.sent_own hphase hown]
  rcases h with ⟨hzero, hno⟩ | ⟨hpos, hno⟩
  · exact ⟨fun hyes => absurd hyes hno, fun _ => by omega⟩
  · exact ⟨fun _ => hpos, fun hyes => absurd hyes hno⟩

theorem request_sent {g : List Action} {c : Nat} {T : R.TypeId} {out : Outcome (R.Val T)}
    (hi : OutInv cfg g s) (hr : (client cfg.toConfig).Run Machine.always g s.core)
    (hids : Ws.reserved cfg.toConfig g < 2 ^ 64)
    (hret : RequestReturned cfg.toConfig s.core c out) :
    (Reached out → s.Sent (.call c)) ∧ (Unreached out → ¬ s.Sent (.call c)) := by
  have hphase : s.core.batch.phase c ≠ .over .early := by
    intro hearly
    have hbatch := isBatch_of_early hr hearly
    obtain ⟨method, params, timeout, -, hcalls, -⟩ := hret
    rw [hcalls] at hbatch
    cases hbatch
  cases requestCause hr hids hret with
  | unserializable hcalls herr hown =>
    rw [JsonRpcRequest.tryNew, bufferedParams_nil] at herr
    refine hi.told hphase hown (.inl ⟨by simp [Action.sends], ?_⟩)
    cases hparams : serializeOptParams _ with
    | error e =>
      rw [hparams] at herr
      cases herr
      exact not_reached_of_unserializable hparams
    | ok o => rw [hparams] at herr; cases herr
  | refused hown =>
    exact hi.told hphase hown (.inl ⟨by simp [Action.sends],
      by simp [Reached, Outcome.err, Outcome.ok, connectionLost]⟩)
  | timedOut hcalls hown =>
    exact hi.told hphase hown (.inr ⟨by simp [Action.sends], by simp [Unreached, Outcome.err]⟩)
  | lost hown =>
    exact hi.told hphase hown (.inr ⟨by simp [Action.sends],
      by simp [Unreached, Outcome.err, connectionLost]⟩)
  | @answered _ _ resp hown =>
    refine hi.told hphase hown (.inr ⟨by simp [Action.sends], ?_⟩)
    cases hv : R.fromSlice T resp.result.raw.bytes <;> simp [Unreached, Outcome.err, serdeOk]
  | rejected hown =>
    exact hi.told hphase hown (.inr ⟨by simp [Action.sends],
      by simp [Unreached, Outcome.err, Error.ofResponse]⟩)

theorem batch_sent {g : List Action} {c : Nat} {calls : List (BatchBuilder.Call R)}
    {key : RangeInclusive} {out : Outcome (Option (List (BatchResponseItem R)))}
    (hi : OutInv cfg g s) (hr : (client cfg.toConfig).Run Machine.always g s.core)
    (hids : Ws.reserved cfg.toConfig g < 2 ^ 64)
    (hret : BatchReturned cfg.toConfig s.core c calls key out) :
    (Reached out → s.Sent (.call c)) ∧ (Unreached out → ¬ s.Sent (.call c)) := by
  have hphase : s.core.batch.phase c ≠ .over .early := by
    intro hearly
    obtain ⟨timeout, e, -, hkey, -⟩ := hret
    rw [key_of_early hr hearly] at hkey
    cases hkey
  cases batchCause hr hids hret with
  | refused hown =>
    exact hi.told hphase hown (.inl ⟨by simp [Action.sends],
      by simp [Reached, Outcome.err, Outcome.ok, connectionLost]⟩)
  | timedOut hcalls hown =>
    exact hi.told hphase hown (.inr ⟨by simp [Action.sends], by simp [Unreached, Outcome.err]⟩)
  | lost hown =>
    exact hi.told hphase hown (.inr ⟨by simp [Action.sends],
      by simp [Unreached, Outcome.err, connectionLost]⟩)
  | answered hown =>
    exact hi.told hphase hown (.inr ⟨by simp [Action.sends],
      by simp [Unreached, Outcome.err, Outcome.ok]⟩)

/-- Whether a plain message is on the wire is told by the message. -/
theorem OutInv.sent_plain {g : List Action} (hi : OutInv cfg g s)
    (hr : (client cfg.toConfig).Run Machine.always g s.core) {o : Origin}
    (hidle : s.plain o ≠ .idle) : s.Sent o ↔ s.plain o = .sent := by
  have hzero : o.sends g = 0 := by
    cases o with
    | notification n => rfl
    | call c =>
      have hearly := hi.early c hidle
      have hsent := sent_batch (isBatch_of_early hr hearly) hr
      rw [hearly] at hsent
      exact hsent
  rw [hi.sent_iff, hzero]
  cases s.plain o <;> simp [Plain.count]

theorem plain_sent {g : List Action} {c : Nat}
    {out : Outcome (Option (List (BatchResponseItem R)))} (hi : OutInv cfg g s)
    (hr : (client cfg.toConfig).Run Machine.always g s.core) (hret : PlainReturned s c out) :
    (s.Sent (.call c) → out = .ok none) ∧ (out = .ok none → s.Sent (.call c) ∨
      ∃ calls timeout, cfg.calls c = .batch calls timeout ∧
        (BatchBuilder.ofCalls calls).requests = [] ∧
        (BatchBuilder.ofCalls calls).notifications = []) := by
  unfold PlainReturned at hret
  split at hret
  · rename_i hsent
    exact ⟨fun _ => hret, fun _ => .inl ((hi.sent_plain hr (by simp [hsent])).2 hsent)⟩
  · rename_i hrefused
    subst hret
    rw [hi.sent_plain hr (by simp [hrefused]), hrefused]
    exact ⟨by simp, by simp [Outcome.err, Outcome.ok]⟩
  · rename_i r hunsent
    subst hret
    rw [hi.sent_plain hr (by simp [hunsent]), hunsent]
    refine ⟨by simp, fun h => .inr ?_⟩
    cases hi.unsent _ _ hunsent with
    | empty hcalls hreq hnot => exact ⟨_, _, hcalls, hreq, hnot⟩
    | overflow => cases h
  · exact hret.elim

theorem notify_sent {g : List Action} {n : Nat} {out : Outcome Unit} (hi : OutInv cfg g s)
    (hr : (client cfg.toConfig).Run Machine.always g s.core) (hret : NotifyReturned s n out) :
    s.Sent (.notification n) ↔ out = .ok () := by
  unfold NotifyReturned at hret
  split at hret
  · rename_i hsent
    exact iff_of_true ((hi.sent_plain hr (by simp [hsent])).2 hsent) hret
  · rename_i hrefused
    subst hret
    rw [hi.sent_plain hr (by simp [hrefused]), hrefused]
    exact iff_of_false (by simp) (by simp [Outcome.err, Outcome.ok])
  · rename_i r hunsent
    subst hret
    rw [hi.sent_plain hr (by simp [hunsent]), hunsent]
    refine iff_of_false (by simp) ?_
    cases hi.unsent _ _ hunsent with
    | params => simp [Outcome.err, Outcome.ok]
  · exact hret.elim

/-- What a client has sent, and what the calls of it know about that. -/
structure SentOnce (cfg : OutboundConfig R) (s : Outbound) : Prop where
  /-- no call is on the wire twice -/
  once : (s.wire.map Prod.fst).Nodup
  /-- a message asks for the requests of its call, and for nothing else -/
  asks : ∀ e ∈ s.wire, ∃ t, Json.read e.2 = some t ∧ ∀ id method params,
    Asks t id method params ↔ e.1.Requests cfg s.core id method params
  /-- for each of them once -/
  apart : ∀ e ∈ s.wire, ∀ t, Json.read e.2 = some t → AsksApart t
  /-- and the message of a `notify` is its notification -/
  tells : ∀ n payload, (.notification n, payload) ∈ s.wire → ∃ t params,
    Json.read payload = some t ∧ serializeOptParams (cfg.notifications n).2 = .ok params ∧
      t.root.HasMembers
        (notificationMembers (cfg.notifications n).1 (params.map RawValue.json))
  /-- no id is on the wire twice -/
  ids : ∀ {o o' : Origin} {id method method' params params'},
    o.Requests cfg s.core id method params → o'.Requests cfg s.core id method' params' → o = o' ∧ method = method' ∧ params = params'
  request : ∀ c (T : R.TypeId) (out : Outcome (R.Val T)),
    RequestReturned cfg.toConfig s.core c out →
      (Reached out → s.Sent (.call c)) ∧ (Unreached out → ¬ s.Sent (.call c))
  batch : ∀ c calls key out, BatchReturned cfg.toConfig s.core c calls key out →
    (Reached out → s.Sent (.call c)) ∧ (Unreached out → ¬ s.Sent (.call c))
  /-- `Ok(None)` is for a batch that was sent, and for an empty one -/
  plain : ∀ c (out : Outcome (Option (List (BatchResponseItem R)))), PlainReturned s c out →
    (s.Sent (.call c) → out = .ok none) ∧ (out = .ok none → s.Sent (.call c) ∨
      ∃ calls timeout, cfg.calls c = .batch calls timeout ∧
        (BatchBuilder.ofCalls calls).requests = [] ∧
        (BatchBuilder.ofCalls calls).notifications = [])
  notify : ∀ n out, NotifyReturned s n out → (s.Sent (.notification n) ↔ out = .ok ())

/-- **Nothing is sent twice.** In every run that reserves less than `2^64` ids, with any
disconnects and reconnects in it, each call is on the wire at most once, each message asks for just
the requests of its call, and no id is asked under twice; and where the result of a call says whether
the peer can have seen it, it says so rightly. -/
theorem sent_once (hr : (outbound cfg).Run Machine.always h s)
    (hids : Ws.reserved cfg.toConfig (h.filterMap OutAction.onClient) < 2 ^ 64) :
    SentOnce cfg s := by
  have hrun := OutRun.client hr
  have hi := OutRun.inv hr
  exact {
    once := List.nodup_iff_count_le_one.2 (hi.count_le hrun)
    asks := fun e he => (hi.wrote e he).asks hrun
    apart := fun e he t ht => (hi.wrote e he).apart ht
    tells := fun n payload hmem => (hi.wrote _ hmem).tells
    ids := fun hreq hreq' => hreq.unique hreq' hrun hids
    request := fun c T out => request_sent hi hrun hids
    batch := fun c calls key out => batch_sent hi hrun hids
    plain := fun c out => plain_sent hi hrun
    notify := fun n out => notify_sent hi hrun }

/-- Two calls, and a `notify` between them. -/
def twoOutbound : OutboundConfig basicTypes := { twoCalls with notifications := fun _ => ("n", none) }

def twoSent : List OutAction :=
  .notify 0 :: .client (.reserveId 0 ⟨0⟩) :: .accept (.notification 0) ::
    twoReplies.tail.map .client

theorem sent_once_two : ∃ s, (outbound twoOutbound).Run Machine.always twoSent s ∧
    s.wire.map Prod.fst = [.notification 0, .call 0, .call 1] ∧ SentOnce twoOutbound s := by
  have hrun : ((outbound twoOutbound).exec (outbound twoOutbound).init twoSent).any (fun s =>
      s.wire.map Prod.fst = [.notification 0, .call 0, .call 1]) = true := by decide +kernel
  obtain ⟨s, hs, hwire⟩ := (Option.any_eq_true _ _).1 hrun
  have hr := Machine.Run.of_exec hs
  exact ⟨s, hr, of_decide_eq_true hwire, sent_once hr (by decide +kernel)⟩

end JsonRpc.Ws
