import JsonRpcClient.Ws.Outbound

/-!
# Messages that answer nothing

A peer may send requests and notifications too, and a mirror sends the client's own back to it. The
decoder takes none of them for an answer (`Calls.items_eq_nil`). `echo_unanswered`: with a peer that
sends nothing else, no call of a `WsClient` gets an answer, whichever ids the messages refer to.
-/

namespace JsonRpc.Ws
open Json Oneshot

variable {R : ResponseTypes} {cfg : OutboundConfig R} {h : List OutAction} {s : Outbound}
  {msg : Message} {c : Nat}

/-- All that a client sends are calls. -/
theorem Wrote.calls {core : State} {o : Origin} {payload : Bytes} (hw : Wrote cfg core o payload) :
    ∃ t, t.render = payload ∧ Calls t := by
  cases hw with
  | @request c T m ps timeout id r =>
    have ht := JsonRpcOutgoing.read_toBytes (.Request r)
    exact ⟨_, read_eq_some_iff.1 ht, calls_message ht⟩
  | @batch c calls timeout key batch =>
    obtain ⟨t, -, ht, -⟩ := batch_written batch.items
    exact ⟨t, read_eq_some_iff.1 ht, calls_batch ht⟩
  | @plain c calls timeout batch =>
    obtain ⟨t, -, ht, -⟩ := batch_written batch.items
    exact ⟨t, read_eq_some_iff.1 ht, calls_batch ht⟩
  | @notification n notification =>
    have ht := JsonRpcOutgoing.read_toBytes (.Notification notification)
    exact ⟨_, read_eq_some_iff.1 ht, calls_message ht⟩

/-- What a frame is routed to with an answer in it. -/
theorem Resolves.items_ne_nil {cfg : Config R} {h : List Action} (hres : Resolves cfg h msg c) :
    ∃ m, Decodes cfg msg m ∧ m.items ≠ [] := by
  obtain ⟨s, hr, hk⟩ := hres
  split at hk
  · rename_i hroute
    rcases routeMessage_unary hroute with ⟨resp, hdec, -⟩ | ⟨err, hdec, -⟩
    · exact ⟨_, hdec, by simp [JsonRpcIncoming.items]⟩
    · exact ⟨_, hdec, by simp [JsonRpcIncoming.items]⟩
  · rename_i hroute
    obtain ⟨wire, n, w, hdec, hn, hlast, hw, -⟩ := routeMessage_batch hroute
    refine ⟨_, hdec, ?_⟩
    rintro (hnil : wire = [])
    have hlen := hw.perm.length_eq
    rw [hnil, hw.length_eq] at hlen
    simp at hlen
    omega
  · exact hk.elim

/-- The peer sends nothing but calls: back to the client what this has sent, or its own. -/
def OnlyCalls (h : List OutAction) (s : Outbound) : Prop :=
  ∀ msg data, .client (.handle msg) ∈ h → msg.data? = some data →
    (∃ o, (o, data) ∈ s.wire) ∨ ∃ t, t.render = data ∧ Calls t

theorem OnlyCalls.not_resolves (hpeer : OnlyCalls h s) (hr : (outbound cfg).Run Machine.always h s)
    {h1 h2 : List Action} (heq : h.filterMap OutAction.onClient = h1 ++ .handle msg :: h2) :
    ¬ Resolves cfg.toConfig h1 msg c := by
  intro hres
  obtain ⟨m, ⟨data, hdata, hdec⟩, hne⟩ := hres.items_ne_nil
  have hmem : Action.handle msg ∈ h.filterMap OutAction.onClient :=
    heq ▸ List.mem_append_right _ List.mem_cons_self
  obtain ⟨a, ha, hact⟩ := List.mem_filterMap.1 hmem
  obtain rfl : a = .client (.handle msg) := by
    cases a with
    | client a => exact congrArg _ (Option.some.inj hact)
    | _ => cases hact
  obtain ⟨t, rfl, hcalls⟩ : ∃ t : Text, t.render = data ∧ Calls t := by
    rcases hpeer msg data ha hdata with ⟨o, ho⟩ | ht
    · exact ((OutRun.inv hr).wrote _ ho).calls
    · exact ht
  exact hne (hcalls.items_eq_nil hdec)

/-- **A call is answered by an answer only.** In every run in which the peer sends the client's own
messages back to it, or requests and notifications of its own, no frame answers a call: each that
returns, returns a timeout or a `TransportError`, or the error of its params. -/
theorem echo_unanswered (hr : (outbound cfg).Run Machine.always h s) (hpeer : OnlyCalls h s) :
    (∀ h1 h2 msg c, h.filterMap OutAction.onClient = h1 ++ .handle msg :: h2 →
      ¬ Resolves cfg.toConfig h1 msg c) ∧
    (∀ c (T : R.TypeId) method params timeout (out : Outcome (R.Val T)),
      cfg.calls c = .request T method params timeout →
      RequestReturned cfg.toConfig s.core c out →
        Unanswered out ∨ ∃ e, serializeOptParams params = .error e ∧ out = .err e) ∧
    ∀ c calls key out, BatchReturned cfg.toConfig s.core c calls key out → Unanswered out := by
  have hrun := OutRun.client hr
  have hno : ∀ h1 h2 msg c, h.filterMap OutAction.onClient = h1 ++ .handle msg :: h2 →
      ¬ Resolves cfg.toConfig h1 msg c := fun _ _ _ _ => hpeer.not_resolves hr
  refine ⟨hno, ?_, fun c _ _ _ => batch_unanswered hrun fun h1 h2 msg => hno h1 h2 msg c⟩
  intro c T method params timeout out hcalls hret
  rcases request_unanswered hrun (fun h1 h2 msg => hno h1 h2 msg c) hret with
    hout | ⟨-, _, _, _, e, hcalls', herr, -, rfl⟩
  · exact .inl hout
  · cases hcalls.symm.trans hcalls'
    exact .inr ⟨e, error_of_tryNew herr, rfl⟩

/-- A request that is sent comes back. -/
def echoed : List OutAction :=
  [.client (.reserveId 0 ⟨0⟩), .client (.call 0 .insert), .client (.call 0 .sendOk),
    .client (.handle (.Text "\x7b\"jsonrpc\":\"2.0\",\"id\":0,\"method\":\"a\"\x7d")),
    .client (.call 0 .expire), .client (.call 0 .remove)]

theorem echo_unanswered_request : ∃ s out, (outbound twoOutbound).Run Machine.always echoed s ∧
    (∀ h1 h2 msg c, echoed.filterMap OutAction.onClient = h1 ++ .handle msg :: h2 →
      ¬ Resolves twoCalls h1 msg c) ∧
    RequestReturned (R := basicTypes) twoCalls s.core 0 (T := .U64) out ∧
    (Unanswered out ∨ ∃ e, serializeOptParams none = .error e ∧ out = .err e) := by
  have hrun : ((outbound twoOutbound).exec (outbound twoOutbound).init echoed).any (fun s =>
      s.core.unary.phase 0 = .over .timedOut ∧ (Origin.call 0,
        bytesOf "\x7b\"jsonrpc\":\"2.0\",\"id\":0,\"method\":\"a\"\x7d") ∈ s.wire) = true := by
    decide +kernel
  obtain ⟨s, hs, hend⟩ := (Option.any_eq_true _ _).1 hrun
  obtain ⟨hphase, hwire⟩ := of_decide_eq_true hend
  have hr := Machine.Run.of_exec hs
  have hpeer : OnlyCalls echoed s := by
    intro msg data hmem hdata
    simp only [echoed, List.mem_cons, OutAction.client.injEq, reduceCtorEq, Action.handle.injEq,
      List.not_mem_nil, or_false, false_or] at hmem
    subst hmem
    obtain rfl := Option.some.inj hdata
    exact .inl ⟨_, hwire⟩
  have hret : RequestReturned (R := basicTypes) twoCalls s.core 0 (T := .U64) _ :=
    ⟨"a", none, none, _, rfl, hphase, rfl⟩
  obtain ⟨hno, hrequest, -⟩ := echo_unanswered hr hpeer
  exact ⟨s, _, hr, hno, hret, hrequest 0 .U64 "a" none none _ rfl hret⟩

end JsonRpc.Ws
