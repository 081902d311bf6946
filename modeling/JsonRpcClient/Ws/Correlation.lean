import JsonRpcClient.Ws.Calls

/-!
# Whose answer a caller gets

`correlation_safe`: in every run, whatever frames arrive and however the steps interleave, a call
that returns a result or an RPC error got it from one frame, handled after the call had registered
and before it returned, that carries the ids this call reserved; and no frame answers two calls, nor
two frames one.

The order of events is read off the history of the run: `hist = h1 ++ handle msg :: h2`, with the
call's registration in `h1` and its return in `h2`.
-/

namespace JsonRpc.Ws
open Json Arrange Oneshot
open scoped List

variable {R : ResponseTypes} {cfg : Config R}

/-! ## Which step of the client is which step of a table -/

theorem onUnary_cases {a : Action} {act : Act RequestId Nat Agent Reply}
    (h : a.onUnary cfg = some act) :
    (∃ c id, a = .reserveId c id ∧ (act = .prepare c id ∨ act = .abort c)) ∨
    (∃ c step, a = .call c step ∧ (cfg.calls c).isRequest = true ∧ act = step.act c) ∨
    (∃ msg id v, a = .handle msg ∧ routeMessage cfg.profile cfg.serde msg = .unary id v ∧
      act = .take .incoming id (some v)) ∨
    (a = .reply ∧ act = .finish .incoming) ∨
    (∃ id, a = .drainUnary (.remove id) ∧
      act = .take .disconnect id (some (.error connectionLost))) ∨
    (a = .failUnary ∧ act = .finish .disconnect) := by
  cases a with
  | reserveId c id =>
    simp only [Action.onUnary] at h
    split at h
    · split at h <;> cases h
      · exact .inl ⟨c, id, rfl, .inl rfl⟩
      · exact .inl ⟨c, id, rfl, .inr rfl⟩
    · cases h
  | call c step =>
    simp only [Action.onUnary] at h
    split at h <;> cases h
    exact .inr (.inl ⟨c, step, rfl, ‹_›, rfl⟩)
  | handle msg =>
    simp only [Action.onUnary] at h
    split at h <;> cases h
    exact .inr (.inr (.inl ⟨msg, _, _, rfl, ‹_›, rfl⟩))
  | reply => cases h; exact .inr (.inr (.inr (.inl ⟨rfl, rfl⟩)))
  | drainUnary act =>
    cases act with
    | remove id => cases h; exact .inr (.inr (.inr (.inr (.inl ⟨id, rfl, rfl⟩))))
    | yield => cases h
    | scanned => cases h
  | failUnary => cases h; exact .inr (.inr (.inr (.inr (.inr ⟨rfl, rfl⟩))))
  | _ => cases h

theorem onBatch_cases {a : Action} {act : Act RangeInclusive Nat Agent (Result BatchResult)}
    (h : a.onBatch cfg = some act) :
    (∃ c key, a = .build c key ∧ ((∃ k, key = some k ∧ act = .prepare c k) ∨ act = .abort c)) ∨
    (∃ c step, a = .call c step ∧ (cfg.calls c).isRequest = false ∧ act = step.act c) ∨
    (∃ msg key v, a = .handle msg ∧ routeMessage cfg.profile cfg.serde msg = .batch key v ∧
      act = .take .incoming key v) ∨
    (a = .batchReply ∧ act = .finish .incoming) ∨
    (∃ key, a = .drainBatch (.remove key) ∧
      act = .take .disconnect key (some (.error connectionLost))) ∨
    (a = .failBatch ∧ act = .finish .disconnect) := by
  cases a with
  | build c key =>
    cases key with
    | none => cases h; exact .inl ⟨c, none, rfl, .inr rfl⟩
    | some k => cases h; exact .inl ⟨c, some k, rfl, .inl ⟨k, rfl, rfl⟩⟩
  | call c step =>
    simp only [Action.onBatch] at h
    split at h <;> cases h
    rename_i hreq
    exact .inr (.inl ⟨c, step, rfl, Bool.not_eq_true _ ▸ hreq, rfl⟩)
  | handle msg =>
    simp only [Action.onBatch] at h
    split at h <;> cases h
    exact .inr (.inr (.inl ⟨msg, _, _, rfl, ‹_›, rfl⟩))
  | batchReply => cases h; exact .inr (.inr (.inr (.inl ⟨rfl, rfl⟩)))
  | drainBatch act =>
    cases act with
    | remove key => cases h; exact .inr (.inr (.inr (.inr (.inl ⟨key, rfl, rfl⟩))))
    | yield => cases h
    | scanned => cases h
  | failBatch => cases h; exact .inr (.inr (.inr (.inr (.inr ⟨rfl, rfl⟩))))
  | _ => cases h

theorem CallStep.act_inj {K A V : Type} {step step' : CallStep} {c c' : Nat}
    (h : (step.act c : Act K Nat A V) = step'.act c') : step = step' ∧ c = c' := by
  cases step <;> cases step' <;> cases h <;> exact ⟨rfl, rfl⟩

/-- A caller's step in the map of requests is that step of a caller, and its call a request. -/
theorem onUnary_call (step : CallStep) {a : Action} {c : Nat}
    (h : a.onUnary cfg = some (step.act c)) :
    a = .call c step ∧ (cfg.calls c).isRequest = true := by
  rcases onUnary_cases h with ⟨_, _, -, h | h⟩ | ⟨c', step', rfl, hreq, h⟩ | ⟨_, _, _, -, -, h⟩ |
    ⟨-, h⟩ | ⟨_, -, h⟩ | ⟨-, h⟩
  · cases step <;> cases h
  · cases step <;> cases h
  · obtain ⟨rfl, rfl⟩ := CallStep.act_inj h
    exact ⟨rfl, hreq⟩
  all_goals cases step <;> cases h

theorem onBatch_call (step : CallStep) {a : Action} {c : Nat}
    (h : a.onBatch cfg = some (step.act c)) :
    a = .call c step ∧ (cfg.calls c).isRequest = false := by
  rcases onBatch_cases h with ⟨_, _, -, ⟨_, -, h⟩ | h⟩ | ⟨c', step', rfl, hreq, h⟩ |
    ⟨_, _, _, -, -, h⟩ | ⟨-, h⟩ | ⟨_, -, h⟩ | ⟨-, h⟩
  · cases step <;> cases h
  · cases step <;> cases h
  · obtain ⟨rfl, rfl⟩ := CallStep.act_inj h
    exact ⟨rfl, hreq⟩
  all_goals cases step <;> cases h

/-- Only a frame and `fail_pending_requests` take a sender out of the map of requests. -/
theorem onUnary_take {a : Action} {ag : Agent} {id : RequestId} {v : Option Reply}
    (h : a.onUnary cfg = some (.take ag id v)) :
    (∃ msg w, a = .handle msg ∧ routeMessage cfg.profile cfg.serde msg = .unary id w ∧
      ag = .incoming ∧ v = some w) ∨
    (a = .drainUnary (.remove id) ∧ ag = .disconnect ∧ v = some (.error connectionLost)) := by
  rcases onUnary_cases h with ⟨_, _, -, h | h⟩ | ⟨_, step, -, -, h⟩ |
    ⟨msg, id', w, rfl, hroute, h⟩ | ⟨-, h⟩ | ⟨id', rfl, h⟩ | ⟨-, h⟩
  · cases h
  · cases h
  · cases step <;> cases h
  · cases h
    exact .inl ⟨msg, w, rfl, hroute, rfl, rfl⟩
  · cases h
  · cases h
    exact .inr ⟨rfl, rfl, rfl⟩
  · cases h

theorem onBatch_take {a : Action} {ag : Agent} {key : RangeInclusive}
    {v : Option (Result BatchResult)}
    (h : a.onBatch cfg = some (.take ag key v)) :
    (∃ msg, a = .handle msg ∧ routeMessage cfg.profile cfg.serde msg = .batch key v ∧
      ag = .incoming) ∨
    (a = .drainBatch (.remove key) ∧ ag = .disconnect ∧ v = some (.error connectionLost)) := by
  rcases onBatch_cases h with ⟨_, _, -, ⟨_, -, h⟩ | h⟩ | ⟨_, step, -, -, h⟩ |
    ⟨msg, key', w, rfl, hroute, h⟩ | ⟨-, h⟩ | ⟨key', rfl, h⟩ | ⟨-, h⟩
  · cases h
  · cases h
  · cases step <;> cases h
  · cases h
    exact .inl ⟨msg, rfl, hroute, rfl⟩
  · cases h
  · cases h
    exact .inr ⟨rfl, rfl, rfl⟩
  · cases h

/-- The steps of a table that tell which step of the client they are part of. -/
def Traced {K A V : Type} : Act K Nat A V → Bool
  | .prepare .. | .register _ | .receive _ | .finish _ => true
  | _ => false

def unaryOrigin : Act RequestId Nat Agent Reply → Action
  | .prepare c id => .reserveId c id
  | .register c => .call c .insert
  | .receive c => .call c .resume
  | .finish .disconnect => .failUnary
  | _ => .reply

def batchOrigin : Act RangeInclusive Nat Agent (Result BatchResult) → Action
  | .prepare c key => .build c (some key)
  | .register c => .call c .insert
  | .receive c => .call c .resume
  | .finish .disconnect => .failBatch
  | _ => .batchReply

theorem eq_unaryOrigin {a : Action} {act : Act RequestId Nat Agent Reply}
    (h : a.onUnary cfg = some act) (ht : Traced act = true) : a = unaryOrigin act := by
  rcases onUnary_cases h with ⟨c, id, rfl, rfl | rfl⟩ | ⟨c, step, rfl, -, rfl⟩ |
    ⟨_, _, _, -, -, rfl⟩ | ⟨rfl, rfl⟩ | ⟨_, -, rfl⟩ | ⟨rfl, rfl⟩
  · rfl
  · cases ht
  · cases step with
    | insert => rfl
    | resume => rfl
    | _ => cases ht
  · cases ht
  · rfl
  · cases ht
  · rfl

theorem eq_batchOrigin {a : Action} {act : Act RangeInclusive Nat Agent (Result BatchResult)}
    (h : a.onBatch cfg = some act) (ht : Traced act = true) : a = batchOrigin act := by
  rcases onBatch_cases h with ⟨c, key, rfl, ⟨k, rfl, rfl⟩ | rfl⟩ | ⟨c, step, rfl, -, rfl⟩ |
    ⟨_, _, _, -, -, rfl⟩ | ⟨rfl, rfl⟩ | ⟨_, -, rfl⟩ | ⟨rfl, rfl⟩
  · rfl
  · cases ht
  · cases step with
    | insert => rfl
    | resume => rfl
    | _ => cases ht
  · cases ht
  · rfl
  · cases ht
  · rfl

/-- The order of some steps in the run of a table is their order in the run of the client. -/
theorem sublist_unary {h : List Action} (acts : List (Act RequestId Nat Agent Reply))
    (ht : ∀ act ∈ acts, Traced act = true) (hs : acts <+ h.filterMap (Action.onUnary cfg)) :
    acts.map unaryOrigin <+ h :=
  Machine.sublist_of_filterMap (fun _ act hact ha => eq_unaryOrigin ha (ht act hact)) hs

theorem sublist_batch {h : List Action}
    (acts : List (Act RangeInclusive Nat Agent (Result BatchResult)))
    (ht : ∀ act ∈ acts, Traced act = true) (hs : acts <+ h.filterMap (Action.onBatch cfg)) :
    acts.map batchOrigin <+ h :=
  Machine.sublist_of_filterMap (fun _ act hact ha => eq_batchOrigin ha (ht act hact)) hs

/-! ## Routes -/

/-- The frame `msg` is decoded to `incoming`. -/
def Decodes (cfg : Config R) (msg : Message) (incoming : JsonRpcIncoming) : Prop :=
  ∃ data, msg.data? = some data ∧ JsonRpcIncoming.tryFromBytes cfg.serde data = .ok incoming

/-- What a frame that is routed somewhere is decoded to. -/
theorem routeMessage_routes {msg : Message} {r : Route} (hr : r ≠ .drop)
    (h : routeMessage cfg.profile cfg.serde msg = r) :
    ∃ data, msg.data? = some data ∧ Routes cfg.profile cfg.serde msg data r := by
  unfold routeMessage at h
  split at h
  · rename_i data hdata
    exact ⟨data, hdata, h ▸ routes cfg.profile cfg.serde msg data⟩
  · exact absurd h.symm hr

theorem routeMessage_unary {msg : Message} {id : RequestId} {v : Reply}
    (h : routeMessage cfg.profile cfg.serde msg = .unary id v) :
    (∃ resp, Decodes cfg msg (.Response resp) ∧ resp.id = id ∧ v = .ok (msg, .of resp.result)) ∨
    (∃ err, Decodes cfg msg (.ErrorResponse err) ∧ err.id = some id ∧
      v = .error (.ofResponse err)) := by
  obtain ⟨data, hdata, hroutes⟩ := routeMessage_routes (by simp) h
  cases hroutes with
  | response hdec => exact .inl ⟨_, ⟨data, hdata, hdec⟩, rfl, rfl⟩
  | errorResponse hdec hid => exact .inr ⟨_, ⟨data, hdata, hdec⟩, hid, rfl⟩

/-- A frame routed to a batch key holds that key's ids, each once, and delivers its items in their
order. -/
theorem routeMessage_batch {msg : Message} {key : RangeInclusive} {v : Option (Result BatchResult)}
    (h : routeMessage cfg.profile cfg.serde msg = .batch key v) :
    ∃ wire n w, Decodes cfg msg (.BatchResponse wire) ∧ 0 < n ∧
    key.last.toNat + 1 = key.start.toNat + n ∧
      IsArrangement idKey key.start.toNat n (wire.filter carriesId) w ∧
        v = some (.ok ⟨msg, w.map slotValue⟩) := by
  obtain ⟨data, hdata, hroutes⟩ := routeMessage_routes (by simp) h
  cases hroutes with
  | batch hdec hn hlast hw => exact ⟨_, _, _, ⟨data, hdata, hdec⟩, hn, hlast, hw, rfl⟩

/-! ## From a sender in a map to the frame that takes it -/

/-- Handled after `h`, the frame finds the sender of `c` under the key it carries. -/
def Resolves (cfg : Config R) (h : List Action) (msg : Message) (c : Nat) : Prop :=
  ∃ s, (client cfg).Run Machine.always h s ∧
    match routeMessage cfg.profile cfg.serde msg with
    | .unary id _ => s.unary.pending.lookup id = some c
    | .batch key _ => s.batch.pending.lookup key = some c
    | _ => False

theorem Resolves.unary {h : List Action} {s : State} {msg : Message} {id : RequestId} {v : Reply}
    {c : Nat} (hr : (client cfg).Run Machine.always h s)
    (hroute : routeMessage cfg.profile cfg.serde msg = .unary id v)
    (hk : s.unary.pending.lookup id = some c) : Resolves cfg h msg c :=
  ⟨s, hr, by simpa only [hroute] using hk⟩

theorem Resolves.batch {h : List Action} {s : State} {msg : Message} {key : RangeInclusive}
    {v : Option (Result BatchResult)} {c : Nat} (hr : (client cfg).Run Machine.always h s)
    (hroute : routeMessage cfg.profile cfg.serde msg = .batch key v)
    (hk : s.batch.pending.lookup key = some c) : Resolves cfg h msg c :=
  ⟨s, hr, by simpa only [hroute] using hk⟩

/-- In the history `h`, the frame resolves `c` after the steps `before` and before the steps
`after`. -/
def ResolvedBy (cfg : Config R) (h : List Action) (c : Nat) (before : List Action) (msg : Message)
    (after : List Action) : Prop :=
  ∃ h1 h2, h = h1 ++ .handle msg :: h2 ∧ Resolves cfg h1 msg c ∧ before <+ h1 ∧ after <+ h2

section
variable {h : List Action} {s : State}

theorem tableRun_unary (hr : (client cfg).Run Machine.always h s) :
    machine.Run Machine.always (h.filterMap (Action.onUnary cfg)) s.unary :=
  Run.unary _ (fun _ _ _ _ _ => trivial) hr

theorem tableRun_batch (hr : (client cfg).Run Machine.always h s) :
    machine.Run Machine.always (h.filterMap (Action.onBatch cfg)) s.batch :=
  Run.batch _ (fun _ _ _ _ _ => trivial) hr

/-- What a request received is what a frame with its id says, or that the connection was lost. -/
theorem received_unary (hr : (client cfg).Run Machine.always h s) {c : Nat} {v : Reply}
    (hc : s.unary.phase c = .over (.received v)) :
    (∃ id msg, s.unary.key c = some id ∧ routeMessage cfg.profile cfg.serde msg = .unary id v ∧
      ResolvedBy cfg h c [.reserveId c id, .call c .insert] msg [.reply, .call c .resume]) ∨
    v = .error connectionLost := by
  obtain ⟨a, id, t1, t2, hhist, hst, hbefore, hafter⟩ :=
    Oneshot.Run.provenance (tableRun_unary hr) hc
  have hkey : s.unary.key c = some id := by
    have hrun := tableRun_unary hr
    rw [hhist] at hrun
    exact hst.key_eq hrun
  obtain ⟨h1, x, h2, rfl, hx, rfl, rfl⟩ := Machine.split_of_filterMap hhist
  rcases onUnary_take hx with ⟨msg, w, rfl, hroute, rfl, hv⟩ | ⟨-, -, hv⟩
  · obtain rfl := Option.some.inj hv
    obtain ⟨s1, hr1, -⟩ := Machine.Run.split hr
    refine .inl ⟨id, msg, hkey, hroute, h1, h2, rfl,
      .unary hr1 hroute (hst.lookup (tableRun_unary hr1)), ?_, ?_⟩
    · exact sublist_unary _ (by simp [Traced]) hbefore
    · exact sublist_unary _ (by simp [Traced]) hafter
  · exact .inr (Option.some.inj hv)

/-- What a batch received is what a frame with its ids says, or that the connection was lost. -/
theorem received_batch (hr : (client cfg).Run Machine.always h s) {c : Nat} {key : RangeInclusive}
    {v : Result BatchResult} (hkey : s.batch.key c = some key)
    (hc : s.batch.phase c = .over (.received v)) :
    (∃ msg, routeMessage cfg.profile cfg.serde msg = .batch key (some v) ∧
      ResolvedBy cfg h c [.build c (some key), .call c .insert] msg
        [.batchReply, .call c .resume]) ∨
    v = .error connectionLost := by
  obtain ⟨a, key', t1, t2, hhist, hst, hbefore, hafter⟩ :=
    Oneshot.Run.provenance (tableRun_batch hr) hc
  obtain rfl : key' = key := by
    have hrun := tableRun_batch hr
    rw [hhist] at hrun
    exact Option.some.inj ((hst.key_eq hrun).symm.trans hkey)
  obtain ⟨h1, x, h2, rfl, hx, rfl, rfl⟩ := Machine.split_of_filterMap hhist
  rcases onBatch_take hx with ⟨msg, rfl, hroute, rfl⟩ | ⟨-, -, hv⟩
  · obtain ⟨s1, hr1, -⟩ := Machine.Run.split hr
    refine .inl ⟨msg, hroute, h1, h2, rfl,
      .batch hr1 hroute (hst.lookup (tableRun_batch hr1)), ?_, ?_⟩
    · exact sublist_batch _ (by simp [Traced]) hbefore
    · exact sublist_batch _ (by simp [Traced]) hafter
  · exact .inr (Option.some.inj hv)

/-! ## One frame, one call -/

/-- Requests wait in the one map, batches in the other. -/
theorem isRequest_of_pending (hr : (client cfg).Run Machine.always h s) {id : RequestId} {c : Nat}
    (hc : s.unary.pending.lookup id = some c) : (cfg.calls c).isRequest = true := by
  have hmapped := (Oneshot.Run.provenanceInv (tableRun_unary hr)).mapped id c hc
  obtain ⟨a, -, ha⟩ := List.mem_filterMap.1 (hmapped.subset (by simp : Act.register c ∈ _))
  exact (onUnary_call .insert ha).2

theorem isBatch_of_pending (hr : (client cfg).Run Machine.always h s) {key : RangeInclusive}
    {c : Nat} (hc : s.batch.pending.lookup key = some c) : (cfg.calls c).isRequest = false := by
  have hmapped := (Oneshot.Run.provenanceInv (tableRun_batch hr)).mapped key c hc
  obtain ⟨a, -, ha⟩ := List.mem_filterMap.1 (hmapped.subset (by simp : Act.register c ∈ _))
  exact (onBatch_call .insert ha).2

/-- What `Resolves` says, map by map. -/
theorem Resolves.cases {msg : Message} {c : Nat} (hres : Resolves cfg h msg c)
    (hr : (client cfg).Run Machine.always h s) :
    (∃ id v, routeMessage cfg.profile cfg.serde msg = .unary id v ∧
      s.unary.pending.lookup id = some c) ∨
    (∃ key v, routeMessage cfg.profile cfg.serde msg = .batch key v ∧
      s.batch.pending.lookup key = some c) := by
  obtain ⟨s', hr', hk⟩ := hres
  obtain rfl := hr'.unique hr
  split at hk
  · exact .inl ⟨_, _, ‹_›, hk⟩
  · exact .inr ⟨_, _, ‹_›, hk⟩
  · cases hk

/-- A frame resolves one call at most. -/
theorem Resolves.call_unique {msg : Message} {c c' : Nat} (hc : Resolves cfg h msg c)
    (hc' : Resolves cfg h msg c') :
    c = c' := by
  obtain ⟨s, hr, hk⟩ := hc
  obtain ⟨s', hr', hk'⟩ := hc'
  obtain rfl := hr.unique hr'
  split at hk
  · rename_i hroute
    simp only [hroute] at hk'
    exact Option.some.inj (hk.symm.trans hk')
  · rename_i hroute
    simp only [hroute] at hk'
    exact Option.some.inj (hk.symm.trans hk')
  · cases hk

/-- After a frame resolved a call, no sender of that call is in a map. -/
theorem Resolves.gone {h1 h2 : List Action} {msg : Message} {c : Nat} (hres : Resolves cfg h1 msg c)
    (hr : (client cfg).Run Machine.always (h1 ++ .handle msg :: h2) s) :
    (∀ id, s.unary.pending.lookup id ≠ some c) ∧ ∀ key, s.batch.pending.lookup key ≠ some c := by
  obtain ⟨s1, hr1, -⟩ := Machine.Run.split hr
  rcases hres.cases hr1 with ⟨id, v, hroute, hk⟩ | ⟨key, v, hroute, hk⟩
  · have hrun := tableRun_unary hr
    rw [List.filterMap_append, List.filterMap_cons_some
      (show Action.onUnary cfg (.handle msg) = some (.take .incoming id (some v)) by
        simp only [Action.onUnary, hroute])] at hrun
    refine ⟨(take_once hrun ⟨_, tableRun_unary hr1, hk⟩).2.2, fun key hk' => ?_⟩
    have h1 := isRequest_of_pending hr1 hk
    rw [isBatch_of_pending hr hk'] at h1; cases h1
  · have hrun := tableRun_batch hr
    rw [List.filterMap_append, List.filterMap_cons_some
      (show Action.onBatch cfg (.handle msg) = some (.take .incoming key v) by
        simp only [Action.onBatch, hroute])] at hrun
    refine ⟨fun id hk' => ?_, (take_once hrun ⟨_, tableRun_batch hr1, hk⟩).2.2⟩
    have h1 := isBatch_of_pending hr1 hk
    rw [isRequest_of_pending hr hk'] at h1; cases h1

/-- A call is resolved by one frame at most. -/
theorem Resolves.frame_unique {h1 h1' h2 h2' : List Action} {msg msg' : Message} {c : Nat}
    (hr : (client cfg).Run Machine.always h s) (heq : h = h1 ++ .handle msg :: h2)
    (heq' : h = h1' ++ .handle msg' :: h2') (hc : Resolves cfg h1 msg c)
    (hc' : Resolves cfg h1' msg' c) :
    h1 = h1' := by
  -- the later of two frames would find a sender that the earlier one took
  have hlater : ∀ {g1 g1' mid g2' : List Action} {m m' : Message}, h = g1' ++ .handle m' :: g2' →
      g1' = g1 ++ .handle m :: mid → Resolves cfg g1 m c → Resolves cfg g1' m' c → False := by
    intro g1 g1' mid g2' m m' hh hmid hres hres'
    rw [hh] at hr
    obtain ⟨s', hr', -⟩ := Machine.Run.split hr
    have hcases := hres'.cases hr'
    rw [hmid] at hr'
    obtain ⟨hu, hb⟩ := hres.gone hr'
    rcases hcases with ⟨id, _, -, hk⟩ | ⟨key, _, -, hk⟩
    · exact hu id hk
    · exact hb key hk
  rcases List.append_eq_append_iff.1 (heq.symm.trans heq') with ⟨mid, hmid, hrest⟩ |
    ⟨mid, hmid, hrest⟩
  · cases mid with
    | nil => simpa using hmid.symm
    | cons x mid =>
      cases hrest
      exact (hlater heq' hmid hc hc').elim
  · cases mid with
    | nil => simpa using hmid
    | cons x mid =>
      cases hrest
      exact (hlater heq hmid hc' hc).elim

end

/-! ## What the callers make of it -/

/-- Reading the range of a decoded result is reading the result. -/
theorem readReply_decoded {T : R.TypeId} {J : SerdeJson} {msg : Message} {data : Bytes}
    {resp : JsonRpcResponse} (hdata : msg.data? = some data)
    (hdec : JsonRpcIncoming.tryFromBytes J data = .ok (.Response resp)) :
    readReply T msg (.of resp.result) = .ret (serdeOk (R.fromSlice T resp.result.raw.bytes)) := by
  have hborrow := JsonRpcIncoming.tryFromBytes_borrowed hdec resp.result
    (by simp [JsonRpcIncoming.spans])
  simp only [readReply, hdata, ByteRange.index_of hborrow]

theorem readReply_result {T : R.TypeId} {msg : Message} {resp : JsonRpcResponse}
    (hdec : Decodes cfg msg (.Response resp)) :
    readReply T msg (.of resp.result) = .ret (serdeOk (R.fromSlice T resp.result.raw.bytes)) := by
  obtain ⟨data, hdata, hdec⟩ := hdec
  exact readReply_decoded hdata hdec

theorem requestReturn_ok {T : R.TypeId} {method : String} {params : Option Serialized}
    {timeout : Option Duration} {e : Exit Reply} {v : R.Val T}
    (h : requestReturn cfg T method params timeout e = some (.ok v)) :
    ∃ msg range, e = .received (.ok (msg, range)) ∧ readReply T msg range = .ok v := by
  cases e with
  | early =>
    simp only [requestReturn] at h
    split at h <;> cases h
  | received r =>
    cases r with
    | error err => cases h
    | ok x => exact ⟨x.1, x.2, rfl, Option.some.inj h⟩
  | _ => cases h

/-- Only a received error is an RPC error. -/
theorem requestReturn_rpcError {T : R.TypeId} {method : String} {params : Option Serialized}
    {timeout : Option Duration} {e : Exit Reply} {id : Option RequestId} {code : JsonRpcErrorCode}
    {text : String} {data : Option RawValue}
    (h : requestReturn cfg T method params timeout e = some (.err (.RpcError id code text data))) :
    e = .received (.error (.RpcError id code text data)) := by
  cases e with
  | early =>
    simp only [requestReturn] at h
    split at h
    · rename_i err herr
      cases h
      rcases JsonRpcRequest.tryNew_error herr with h | h | h <;> cases h
    · cases h
  | received r =>
    cases r with
    | error err => cases h; rfl
    | ok x =>
      simp only [requestReturn, readReply] at h
      split at h
      · cases h
      · split at h
        · cases h
        · rename_i bytes _
          cases hv : R.fromSlice T bytes <;> rw [hv] at h <;> cases h
  | _ => cases h

theorem batchReturn_ok {calls : List (BatchBuilder.Call R)} {timeout : Option Duration}
    {key : RangeInclusive} {e : Exit (Result BatchResult)} {items : List (BatchResponseItem R)}
    (h : batchReturn cfg calls timeout key e = some (.ok (some items))) :
    ∃ result, e = .received (.ok result) ∧ readBatch result
    (builtParsers calls key) = .ok items := by
  cases e with
  | received r =>
    cases r with
    | error err => cases h
    | ok result =>
      refine ⟨result, rfl, ?_⟩
      have h := Option.some.inj h
      cases hread : readBatch result (builtParsers calls key) with
      | panic => rw [hread] at h; cases h
      | ret r =>
        rw [hread] at h
        cases r with
        | error err => cases h
        | ok x => cases h; rfl
  | _ => cases h

/-- The key of a batch is the range its `build` reserved. -/
theorem build_of_key {h : List Action} {s : State} (hr : (client cfg).Run Machine.always h s)
    {c : Nat}
    {key : RangeInclusive} (hkey : s.batch.key c = some key) {calls : List (BatchBuilder.Call R)}
    {timeout : Option Duration} (hcalls : cfg.calls c = .batch calls timeout) :
    ∃ idmgr, (RequestIdManager.reserveRange cfg.profile idmgr
      (UInt64.ofNat (BatchBuilder.ofCalls calls).requests.length)).1 = some (some key) := by
  have hsub := (Oneshot.Run.provenanceInv (tableRun_batch hr)).prepared c key hkey
  have hmem : Action.build c (some key) ∈ h :=
    (sublist_batch [.prepare c key] (by simp [Traced]) hsub).subset List.mem_cons_self
  obtain ⟨h1, s1, s2, -, -, hs⟩ := hr.of_mem hmem
  obtain ⟨hids, -⟩ := step_eq_some.1 hs
  simp only [Action.onIds, hcalls] at hids
  split at hids
  · rename_i hb
    refine ⟨s1.idmgr, ?_⟩
    unfold buildKey at hb
    split at hb
    · rename_i batch hbuild
      exact (BatchBuilder.build_some (BatchBuilder.valid_ofCalls calls) hbuild hb).1
    · cases hb
  · cases hids

theorem builtParsers_eq (calls : List (BatchBuilder.Call R)) (key : RangeInclusive) :
    builtParsers calls key = ((BatchBuilder.ofCalls calls).requests.zip key.ids).map fun x =>
    x.1.parser := by
  simp only [builtParsers, (BatchBuilder.valid_ofCalls calls).assemble_eq, Option.elim]

/-- The parsers of a batch are those of its requests, one for each id. -/
theorem builtParsers_getElem? {calls : List (BatchBuilder.Call R)} {key : RangeInclusive} {i : Nat}
    (hi : i < key.ids.length) :
    (builtParsers calls key)[i]? = ((BatchBuilder.registered calls)[i]?).map parseAs := by
  have hparser := congrArg (fun l => l[i]?) (BatchBuilder.parsers_ofCalls calls)
  simp only [List.getElem?_map] at hparser
  rw [builtParsers_eq, List.getElem?_map, List.zip, List.getElem?_zipWith,
    List.getElem?_eq_getElem hi, ← hparser]
  cases (BatchBuilder.ofCalls calls).requests[i]? <;> rfl

/-- A batch that received a frame's items returns them read by its parsers, in the order of its ids.
-/
theorem batch_items {h : List Action} {s : State} (hr : (client cfg).Run Machine.always h s)
    {c : Nat}
    {key : RangeInclusive} (hkey : s.batch.key c = some key) {calls : List (BatchBuilder.Call R)}
    {timeout : Option Duration} (hcalls : cfg.calls c = .batch calls timeout) {msg : Message}
    {result : BatchResult}
    (hroute : routeMessage cfg.profile cfg.serde msg = .batch key (some (.ok result)))
    {items : List (BatchResponseItem R)}
    (hread : readBatch result (builtParsers calls key) = .ok items) :
    ∃ wire, Decodes cfg msg (.BatchResponse wire) ∧
      (wire.filterMap JsonRpcBatchResponse.id?).Perm key.ids ∧ items.length = key.ids.length ∧
      ∀ i (hi : i < key.ids.length), ∃ item ∈ wire, ∃ T, item.id? = some key.ids[i] ∧
        (BatchBuilder.registered calls)[i]? = some T ∧
          items[i]? = some (resolveItem (parseAs T) item) := by
  obtain ⟨wire, n, w, ⟨data, hdata, hdec⟩, hn, hlast, hw, hv⟩ := routeMessage_batch hroute
  cases hv
  have hborrow : ∀ item ∈ w, ∀ r ∈ item.spans, r.BorrowedFrom data := fun item hitem =>
    JsonRpcIncoming.items_borrowed hdec item (List.mem_of_mem_filter (hw.perm.mem_iff.1 hitem))
  have hitems : items = List.zipWith (fun item parser => resolveItem parser item) w
      (builtParsers calls key) := by
    have h := hread.symm.trans (readBatch_slotValues hdata hborrow _)
    simpa using h
  have hlen : key.ids.length = n := by rw [RangeInclusive.length_ids]; omega
  -- the range has at most as many ids as there are requests
  obtain ⟨idmgr, hres⟩ := build_of_key hr hkey hcalls
  obtain ⟨-, hcount⟩ := RequestIdManager.reserveRange_length hres (RequestId.le_iff.2 (by omega))
  have hrequests : n ≤ (BatchBuilder.ofCalls calls).requests.length := by
    rw [UInt64.toNat_ofNat'] at hcount
    have hmod := Nat.mod_le (BatchBuilder.ofCalls calls).requests.length (2 ^ 64)
    omega
  have hids : key.ids.map RequestId.toNat = List.range' key.start.toNat n := by
    rw [key.ids_toNat, ← RangeInclusive.length_ids, hlen]
  have hread : ReadOff (BatchBuilder.registered calls) key.ids _
      (List.zipWith _ w (builtParsers calls key)) := .of_arrangement hids hw fun i hi => by
    obtain ⟨T, hT, -⟩ := BatchBuilder.parsers_getElem? (hi.trans_le hrequests)
    exact ⟨T, hT, by rw [builtParsers_getElem? (by omega), hT]; rfl⟩
  rw [← hitems] at hread
  refine ⟨wire, ⟨data, hdata, hdec⟩, (perm_ids_iff hlast).2 ⟨w, hw⟩, hread.length_eq, fun i hi => ?_⟩
  obtain ⟨item, hmem, hitem⟩ := hread.getElem i hi
  exact ⟨item, List.mem_of_mem_filter hmem, hitem⟩

/-! ## Correlation -/

/-- **Correlation safety.** In every run of a client, with any frames:

* a request that returns a value or an RPC error was resolved, after it registered under its id and
  before it returned, by a frame that decodes to a response or an error response with that id, and
  the value is that frame's `result`, read at the request's type;
* a batch that returns items was so resolved by one batch frame whose id-carrying items have exactly
  the batch's ids, each once, and its `i`-th item is what its `i`-th parser makes of the item with
  the `i`-th id;
* a frame resolves one call at most, and a call is resolved by one frame at most. -/
theorem correlation_safe (cfg : Config R) {h : List Action} {s : State}
    (hr : (client cfg).Run Machine.always h s) :
    (∀ c (T : R.TypeId) (v : R.Val T), RequestReturned cfg s c (.ok v) →
      ∃ id msg resp, ResolvedBy cfg h c [.reserveId c id, .call c .insert] msg
        [.reply, .call c .resume] ∧
        Decodes cfg msg (.Response resp) ∧ resp.id = id ∧
          R.fromSlice T resp.result.raw.bytes = some v) ∧
    (∀ c (T : R.TypeId) errId code text data,
      RequestReturned cfg s c (.err (.RpcError errId code text data) : Outcome (R.Val T)) →
      ∃ id msg err, ResolvedBy cfg h c [.reserveId c id, .call c .insert] msg
        [.reply, .call c .resume] ∧
        Decodes cfg msg (.ErrorResponse err) ∧ err.id = some id ∧
        .RpcError errId code text data = Error.ofResponse err) ∧
    (∀ c calls key (items : List (BatchResponseItem R)),
      BatchReturned cfg s c calls key (.ok (some items)) →
      ∃ msg wire, ResolvedBy cfg h c [.build c (some key), .call c .insert] msg
        [.batchReply, .call c .resume] ∧
        Decodes cfg msg (.BatchResponse wire) ∧
          (wire.filterMap JsonRpcBatchResponse.id?).Perm key.ids ∧
        items.length = key.ids.length ∧
        ∀ i (hi : i < key.ids.length), ∃ item ∈ wire, ∃ T, item.id? = some key.ids[i] ∧
          (BatchBuilder.registered calls)[i]? = some T ∧
            items[i]? = some (resolveItem (parseAs T) item)) ∧
    (∀ h1 msg h2 c c', h = h1 ++ .handle msg :: h2 → Resolves cfg h1 msg c →
      Resolves cfg h1 msg c' → c = c') ∧
    (∀ h1 msg h2 h1' msg' h2' c, h = h1 ++ .handle msg :: h2 → h = h1' ++ .handle msg' :: h2' →
      Resolves cfg h1 msg c → Resolves cfg h1' msg' c → h1 = h1') := by
  refine ⟨?_, ?_, ?_, fun _ _ _ _ _ _ hc hc' => hc.call_unique hc',
    fun _ _ _ _ _ _ _ heq heq' hc hc' => Resolves.frame_unique hr heq heq' hc hc'⟩
  · rintro c T v ⟨method, params, timeout, e, hcalls, hphase, hret⟩
    obtain ⟨msg, range, rfl, hread⟩ := requestReturn_ok hret
    rcases received_unary hr hphase with ⟨id, msg', -, hroute, hres⟩ | hlost
    · rcases routeMessage_unary hroute with ⟨resp, hdec, hid, hv⟩ | ⟨err, -, -, hv⟩
      · cases hv
        refine ⟨id, msg, resp, hres, hdec, hid, ?_⟩
        rw [readReply_result hdec] at hread
        simpa [Outcome.ok] using hread
      · cases hv
    · cases hlost
  · rintro c T errId code text data ⟨method, params, timeout, e, hcalls, hphase, hret⟩
    obtain rfl := requestReturn_rpcError hret
    rcases received_unary hr hphase with ⟨id, msg, -, hroute, hres⟩ | hlost
    · rcases routeMessage_unary hroute with ⟨resp, -, -, hv⟩ | ⟨err, hdec, hid, hv⟩
      · cases hv
      · exact ⟨id, msg, err, hres, hdec, hid, Except.error.inj hv⟩
    · cases hlost
  · rintro c calls key items ⟨timeout, e, hcalls, hkey, hphase, hret⟩
    obtain ⟨result, rfl, hread⟩ := batchReturn_ok hret
    rcases received_batch hr hkey hphase with ⟨msg, hroute, hres⟩ | hlost
    · obtain ⟨wire, hrest⟩ := batch_items hr hkey hcalls hroute hread
      exact ⟨msg, wire, hres, hrest⟩
    · cases hlost

/-- A request and a batch of one, at the same time. -/
def twoCalls : Config basicTypes where
  profile := .checked
  serde := ⟨fun _ => true⟩
  request_timeout := none
  calls
    | 0 => .request .U64 "a" none none
    | _ => .batch [.addRequest .U64 "b" none] none

/-- The batch is answered first. -/
def twoReplies : List Action :=
  [.reserveId 0 ⟨0⟩, .call 0 .insert, .build 1 (some ⟨⟨1⟩, ⟨1⟩⟩), .call 0 .sendOk, .call 1 .insert,
    .call 1 .sendOk,
    .handle (.Text "[\x7b\"jsonrpc\":\"2.0\",\"id\":1,\"result\":8\x7d]"), .batchReply,
    .handle (.Text "\x7b\"jsonrpc\":\"2.0\",\"id\":0,\"result\":7\x7d"), .reply,
    .call 0 .resume, .call 1 .resume]

theorem correlation_safe_two : ∃ s, (client twoCalls).Run Machine.always twoReplies s ∧
    RequestReturned (R := basicTypes) twoCalls s 0 (T := .U64) (.ok (7 : UInt64)) ∧
    ∃ id msg resp,
      ResolvedBy twoCalls twoReplies 0 [.reserveId 0 id, .call 0 .insert] msg
        [.reply, .call 0 .resume] ∧
      Decodes twoCalls msg (.Response resp) ∧ resp.id = id ∧
      basicTypes.fromSlice .U64 resp.result.raw.bytes = some (7 : UInt64) := by
  have hrun : ((client twoCalls).exec State.init twoReplies).any
      (fun s => s.unary.phase 0 = .over (.received
        (.ok (.Text "\x7b\"jsonrpc\":\"2.0\",\"id\":0,\"result\":7\x7d", ⟨33, 34⟩)))) =
        true := by decide +kernel
  obtain ⟨s, hs, hphase⟩ := (Option.any_eq_true _ _).1 hrun
  have hr := Machine.Run.of_exec hs
  have hret : RequestReturned (R := basicTypes) twoCalls s 0 (T := .U64) (.ok (7 : UInt64)) :=
    ⟨"a", none, none, _, rfl, of_decide_eq_true hphase, rfl⟩
  exact ⟨s, hr, hret, (correlation_safe twoCalls hr).1 0 .U64 (7 : UInt64) hret⟩

end JsonRpc.Ws
