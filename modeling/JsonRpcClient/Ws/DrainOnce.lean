import JsonRpcClient.Concurrent.Sends
import JsonRpcClient.Ws.Pending
import JsonRpcClient.Ws.Reconnect

/-!
# One run of `fail_pending_requests` (handles.rs:218-250)

The drain copies the keys of a map and then removes them one by one, first for requests and then for
batches, while frames are handled, calls give up and new calls register. `drain_resolves_once`: what
is pending when it starts is gone when it ends, and was answered once, by whoever removed it first;
what registers after its map's keys were copied is left alone.

| here | there |
| --- | --- |
| `drainUnary` / `drainBatch` `yield`, `scanned` | `.iter().map(..).collect::<Vec<_>>()` |
| `drainUnary` / `drainBatch` `remove`, `failUnary`, `failBatch` | the bodies of the two loops |
-/

namespace JsonRpc.Ws
open Json Arrange Oneshot
open scoped List

variable {R : ResponseTypes} {cfg : Config R}

/-! ## Fresh keys -/

section
variable {h h1 h2 : List Action} {s s1 : State}

theorem FreshKeys.of_keys (h : FreshKeys s) (hu : s1.unary.key = s.unary.key)
    (hb : s1.batch.key = s.batch.key) : FreshKeys s1 :=
  ⟨by simpa only [Table.FreshKeys, hu] using h.unary,
    by simpa only [Table.FreshKeys, hb] using h.batch⟩

/-- The run of a table, cut where that of the client is. -/
theorem tableRuns_unary (hr : (client cfg).Run Machine.always (h1 ++ h2) s) :
    machine.Run Machine.always
      (h1.filterMap (Action.onUnary cfg) ++ h2.filterMap (Action.onUnary cfg)) s.unary := by
  rw [← List.filterMap_append]
  exact tableRun_unary hr

theorem tableRuns_batch (hr : (client cfg).Run Machine.always (h1 ++ h2) s) :
    machine.Run Machine.always
      (h1.filterMap (Action.onBatch cfg) ++ h2.filterMap (Action.onBatch cfg)) s.batch := by
  rw [← List.filterMap_append]
  exact tableRun_batch hr

/-- Calls keep their keys. -/
theorem FreshKeys.before (h : FreshKeys s) (hr : (client cfg).Run Machine.always (h1 ++ h2) s)
    (hr1 : (client cfg).Run Machine.always h1 s1) : FreshKeys s1 where
  unary c c' id hc hc' := h.unary c c' id (Run.key (tableRuns_unary hr) (tableRun_unary hr1) hc)
    (Run.key (tableRuns_unary hr) (tableRun_unary hr1) hc')
  batch c c' key hc hc' := h.batch c c' key (Run.key (tableRuns_batch hr) (tableRun_batch hr1) hc)
    (Run.key (tableRuns_batch hr) (tableRun_batch hr1) hc')

/-! ## What is sent -/

/-- The values sent to the request `c`. -/
def unarySent (cfg : Config R) (h : List Action) (c : Nat) : List Reply :=
  sentTo c .init (h.filterMap (Action.onUnary cfg))

/-- The values sent to the batch `c`. -/
def batchSent (cfg : Config R) (h : List Action) (c : Nat) : List (Result BatchResult) :=
  sentTo c .init (h.filterMap (Action.onBatch cfg))

/-- The step is `fail_pending_requests` taking the sender of `c` out of its map. -/
def Removes (s : State) (a : Action) (c : Nat) : Prop :=
  (∃ id, a = .drainUnary (.remove id) ∧ s.unary.pending.lookup id = some c) ∨
  ∃ key, a = .drainBatch (.remove key) ∧ s.batch.pending.lookup key = some c

/-- `fail_pending_requests` took the sender of `c`. -/
def FailedIn (cfg : Config R) (h : List Action) (c : Nat) : Prop :=
  ∃ h1 a h2 s, h = h1 ++ a :: h2 ∧ (client cfg).Run Machine.always h1 s ∧ Removes s a c

/-! ## One drain -/

/-- What has happened when a drain has ended that began after `before`. -/
def drained (before during : List Action) : List Action :=
  before ++ .drainStart :: during ++ [.drainEnd]

/-- A run of `fail_pending_requests`, from `s0` to `s1`, among the steps `during` of everybody, and
a state `s2` after it in which no `handle_message` is under way. -/
structure DrainRun (cfg : Config R) (before during after : List Action) (s0 s1 s2 : State) :
    Prop where
  start : (client cfg).Run Machine.always before s0
  finish : (client cfg).Run Machine.always (drained before during) s1
  later : (client cfg).Run Machine.always (drained before during ++ after) s2
  /-- it is one run -/
  one : ∀ a ∈ during, a.ofTask = false
  fresh : FreshKeys s2
  quiet : s2.unary.hand .incoming = none ∧ s2.batch.hand .incoming = none

/-- What became of the sender of `c` during a drain, and what was `sent` to it in all. The frames
that carry its key are those that `carries` has, with what they say. -/
inductive Fate {α : Type} (cfg : Config R) (before during : List Action) (c : Nat)
    (carries : Message → Result α → Prop) (sent : List (Result α)) : Prop
  /-- a frame came first -/
  | replied {p msg q v} (heq : during = p ++ .handle msg :: q)
      (hres : Resolves cfg (before ++ .drainStart :: p) msg c) (hcarries : carries msg v)
      (hsent : sent = [v])
  /-- the drain did -/
  | failed {p a q s} (heq : during = p ++ a :: q)
      (hr : (client cfg).Run Machine.always (before ++ .drainStart :: p) s)
      (hremoves : Removes s a c) (hsent : sent = [.error connectionLost])
  /-- its own call gave up -/
  | removed {p q} (heq : during = p ++ .call c .remove :: q) (hsent : sent = [])

end

/-! ## What is pending is gone -/

/-- A call registers from the state in which it has its key. -/
theorem insert_step {s s' : State} {c : Nat} (hs : s.step cfg (.call c .insert) = some s') :
    (cfg.calls c).isRequest = true ∧ s.unary.phase c = .ready ∨
      (cfg.calls c).isRequest = false ∧ s.batch.phase c = .ready := by
  obtain ⟨-, hu, hb, -⟩ := step_eq_some.1 hs
  simp only [Action.onUnary, Action.onBatch, CallStep.act] at hu hb
  cases hreq : (cfg.calls c).isRequest with
  | true =>
    simp only [hreq, ↓reduceIte, tableStep] at hu
    generalize s'.unary = t' at hu
    cases step_cases hu with
    | register hready => exact .inl ⟨rfl, hready⟩
  | false =>
    simp only [hreq, Bool.false_eq_true, ↓reduceIte, tableStep] at hb
    generalize s'.batch = t' at hb
    cases step_cases hb with
    | register hready => exact .inr ⟨rfl, hready⟩

section
variable {before during after : List Action} {s0 s1 s2 : State}

/-- A call that is pending does not register again. -/
theorem pending_not_inserts {h1 h2 : List Action} {s s1 s' : State} {c : Nat}
    (hr : (client cfg).Run Machine.always (h1 ++ h2) s)
    (hr1 : (client cfg).Run Machine.always h1 s1) (hc : s1.Pending c)
    (hs : s.step cfg (.call c .insert) = some s') : False := by
  rcases hc with ⟨id, hk⟩ | ⟨key, hk⟩
  · have hreg := Run.registered (tableRuns_unary hr) (tableRun_unary hr1)
      ((Run.safe_unary hr1).registered hk)
    rcases insert_step hs with ⟨-, hready⟩ | ⟨hreq, -⟩
    · exact hreg.2 hready
    · rw [isRequest_of_pending hr1 hk] at hreq
      cases hreq
  · have hreg := Run.registered (tableRuns_batch hr) (tableRun_batch hr1)
      ((Run.safe_batch hr1).registered hk)
    rcases insert_step hs with ⟨hreq, -⟩ | ⟨-, hready⟩
    · rw [isBatch_of_pending hr1 hk] at hreq
      cases hreq
    · exact hreg.2 hready

/-- **What is pending when a drain starts is not when it ends.** -/
theorem DrainRun.gone (hd : DrainRun cfg before during after s0 s1 s2) {c : Nat}
    (hc : s0.Pending c) : ¬ s1.Pending c := by
  obtain ⟨sE, hrE, -, hend⟩ := Machine.Run.last hd.finish
  have hrE' : (client cfg).Run Machine.always (before ++ [.drainStart] ++ during) sE := by
    simpa using hrE
  obtain ⟨sA, hrA, -⟩ := Machine.Run.split hrE'
  obtain ⟨s0', hr0, -, hstart⟩ := hrA.last
  refine draining_end hend ?_ hc
  refine hrE'.segment (P := State.Draining s0.Pending) hrA (draining_start hstart) ?_
  intro p a s s' hp hr hdrain hs
  have hmem : a ∈ during := hp.subset (by simp)
  refine draining_step hs (hd.one a hmem) (fun _ h => h) ?_ hdrain
  rintro c' rfl hc'
  rw [List.append_assoc] at hr
  exact pending_not_inserts hr hd.start hc' hs

theorem DrainRun.idle (hd : DrainRun cfg before during after s0 s1 s2) :
    s1.unary.hand .disconnect = none ∧ s1.batch.hand .disconnect = none := by
  obtain ⟨s, -, -, hend⟩ := Machine.Run.last hd.finish
  have hidle := drainEnd_idle hend
  have hhands := Run.hands hd.finish
  exact ⟨hhands.unary (by simp [hidle]), hhands.batch (by simp [hidle])⟩

/-! ## It was answered once -/

theorem drained_unary : (drained before during).filterMap (Action.onUnary cfg) =
    before.filterMap (Action.onUnary cfg) ++ during.filterMap (Action.onUnary cfg) := by
  simp [drained, List.filterMap_cons, Action.onUnary]

theorem drained_batch : (drained before during).filterMap (Action.onBatch cfg) =
    before.filterMap (Action.onBatch cfg) ++ during.filterMap (Action.onBatch cfg) := by
  simp [drained, List.filterMap_cons, Action.onBatch]

/-- The state that a step of the drain's time is taken in. -/
theorem DrainRun.at_step {p q : List Action} {x : Action}
    (hd : DrainRun cfg before (p ++ x :: q) after s0 s1 s2) :
    ∃ s, (client cfg).Run Machine.always (before ++ .drainStart :: p) s := by
  have hr : (client cfg).Run Machine.always
      (before ++ .drainStart :: p ++ (x :: q ++ [.drainEnd])) s1 := by
    simpa [drained] using hd.finish
  obtain ⟨s, hr, -⟩ := Machine.Run.split hr
  exact ⟨s, hr⟩

theorem DrainRun.resolved_unary (hd : DrainRun cfg before during after s0 s1 s2) {id : RequestId}
    {c : Nat} (hk : s0.unary.pending.lookup id = some c) :
    id ∉ s1.unary.pending ∧
    Fate cfg before during c (fun msg v => routeMessage cfg.profile cfg.serde msg = .unary id v)
      (unarySent cfg (drained before during ++ after) c) := by
  have hr1 := tableRun_unary hd.finish
  have hr2 := tableRuns_unary hd.later
  have hgone : s1.unary.pending.lookup id ≠ some c := fun hk' =>
    hd.gone (.inl ⟨id, hk⟩) (.inl ⟨id, hk'⟩)
  rw [unarySent, List.filterMap_append]
  rw [drained_unary] at hr1 hr2 ⊢
  obtain ⟨habsent, p, act, q, heq, hst, hcases⟩ := Run.used_once hr2 hr1
    ⟨s0.unary, tableRun_unary hd.start, hk⟩ hgone hd.fresh.unary
  refine ⟨habsent, ?_⟩
  obtain ⟨p, x, q, rfl, hx, rfl, rfl⟩ := Machine.split_of_filterMap heq
  obtain ⟨s, hr⟩ := hd.at_step
  have hks : s.unary.pending.lookup id = some c := by
    apply hst.lookup
    have htable := tableRuns_unary hr
    simpa only [List.filterMap_cons_none (show Action.onUnary cfg .drainStart = none from rfl)]
      using htable
  rcases hcases with ⟨a, v, rfl, hsent⟩ | ⟨rfl, hsent⟩
  · rcases onUnary_take hx with ⟨msg, w, rfl, hroute, rfl, rfl⟩ | ⟨rfl, rfl, rfl⟩
    · exact .replied rfl (.unary hr hroute hks) hroute (hsent (.inr hd.quiet.1))
    · exact .failed rfl hr (.inl ⟨id, rfl, hks⟩) (hsent (.inl hd.idle.1))
  · obtain ⟨rfl, -⟩ := onUnary_call .remove hx
    exact .removed rfl hsent

theorem DrainRun.resolved_batch (hd : DrainRun cfg before during after s0 s1 s2)
    {key : RangeInclusive} {c : Nat} (hk : s0.batch.pending.lookup key = some c) :
    key ∉ s1.batch.pending ∧
    Fate cfg before during c
      (fun msg v => routeMessage cfg.profile cfg.serde msg = .batch key (some v))
      (batchSent cfg (drained before during ++ after) c) := by
  have hr1 := tableRun_batch hd.finish
  have hr2 := tableRuns_batch hd.later
  have hgone : s1.batch.pending.lookup key ≠ some c := fun hk' =>
    hd.gone (.inr ⟨key, hk⟩) (.inr ⟨key, hk'⟩)
  rw [batchSent, List.filterMap_append]
  rw [drained_batch] at hr1 hr2 ⊢
  obtain ⟨habsent, p, act, q, heq, hst, hcases⟩ := Run.used_once hr2 hr1
    ⟨s0.batch, tableRun_batch hd.start, hk⟩ hgone hd.fresh.batch
  refine ⟨habsent, ?_⟩
  obtain ⟨p, x, q, rfl, hx, rfl, rfl⟩ := Machine.split_of_filterMap heq
  obtain ⟨s, hr⟩ := hd.at_step
  have hks : s.batch.pending.lookup key = some c := by
    apply hst.lookup
    have htable := tableRuns_batch hr
    simpa only [List.filterMap_cons_none (show Action.onBatch cfg .drainStart = none from rfl)]
      using htable
  rcases hcases with ⟨a, v, rfl, hsent⟩ | ⟨rfl, hsent⟩
  · rcases onBatch_take hx with ⟨msg, rfl, hroute, rfl⟩ | ⟨rfl, rfl, rfl⟩
    · -- a frame routed to a key has items for it
      obtain ⟨_, _, w, -, -, -, -, rfl⟩ := routeMessage_batch hroute
      exact .replied rfl (.batch hr hroute hks) hroute (hsent (.inr hd.quiet.2))
    · exact .failed rfl hr (.inr ⟨key, rfl, hks⟩) (hsent (.inl hd.idle.2))
  · obtain ⟨rfl, -⟩ := onBatch_call .remove hx
    exact .removed rfl hsent

end

/-! ## Newcomers -/

/-- The keys a drain has collected are those of registered calls. -/
structure Collects (s : State) : Prop where
  unary : ∀ d, s.drain = .unary d → Drain.Known s.unary d
  batch : ∀ d, s.drain = .batch d → Drain.Known s.batch d

theorem Collects.step {s s' : State} {a : Action} (h : Collects s) (hu : Safe s.unary)
    (hb : Safe s.batch) (hs : s.step cfg a = some s') : Collects s' := by
  have hkeepU : ∀ d, Drain.Known s.unary d → Drain.Known s'.unary d := by
    intro d hd
    rcases unary_step hs with he | ⟨act, -, hstep⟩
    · exact he ▸ hd
    · exact hd.table hu hstep
  have hkeepB : ∀ d, Drain.Known s.batch d → Drain.Known s'.batch d := by
    intro d hd
    rcases batch_step hs with he | ⟨act, -, hstep⟩
    · exact he ▸ hd
    · exact hd.table hb hstep
  have hd := drain_step hs
  refine ⟨fun d hdrain => hkeepU d ?_, fun d hdrain => hkeepB d ?_⟩
  · rw [hdrain] at hd
    generalize hstage : DrainStage.unary d = stage at hd
    cases hd with
    | start => cases hstage; exact Drain.known_start
    | unary hdrain' _ hstep => cases hstage; exact (h.unary _ hdrain').drain hu hstep
    | other => exact h.unary d hstage.symm
    | _ => cases hstage
  · rw [hdrain] at hd
    generalize hstage : DrainStage.batch d = stage at hd
    cases hd with
    | next => cases hstage; exact Drain.known_start
    | batch hdrain' _ hstep => cases hstage; exact (h.batch _ hdrain').drain hb hstep
    | other => exact h.batch d hstage.symm
    | _ => cases hstage

theorem Run.collects {h : List Action} {s : State} (hr : (client cfg).Run Machine.always h s) :
    Collects s :=
  Machine.Run.invariant (P := fun _ s => Collects s)
    ⟨fun _ hd => by (cases hd), fun _ hd => by cases hd⟩
    (fun _ _ _ _ hr h _ hs => h.step (Run.safe_unary hr) (Run.safe_batch hr) hs) hr

section
variable {h1 h2 : List Action} {s s1 : State} {c : Nat}

/-- A call that is going to register has its key and no more. -/
theorem ready_of_inserts (hr : (client cfg).Run Machine.always (h1 ++ h2) s)
    (hc : .call c .insert ∈ h2) : ∃ m s2, (client cfg).Run Machine.always (h1 ++ m) s2 ∧
      ((cfg.calls c).isRequest = true ∧ s2.unary.phase c = .ready ∨
        (cfg.calls c).isRequest = false ∧ s2.batch.phase c = .ready) := by
  obtain ⟨m1, m2, rfl⟩ := List.append_of_mem hc
  rw [← List.append_assoc, List.append_cons] at hr
  obtain ⟨s3, hr3, -⟩ := Machine.Run.split hr
  obtain ⟨s2, hr2, -, hs⟩ := hr3.last
  exact ⟨m1, s2, hr2, insert_step hs⟩

theorem not_registered_unary (hr : (client cfg).Run Machine.always (h1 ++ h2) s)
    (hr1 : (client cfg).Run Machine.always h1 s1) (hc : .call c .insert ∈ h2)
    (hreq : (cfg.calls c).isRequest = true) : ¬ Registered s1.unary c := by
  intro hreg
  obtain ⟨m, s2, hr2, ⟨-, hready⟩ | ⟨hreq', -⟩⟩ := ready_of_inserts hr hc
  · exact (Run.registered (tableRuns_unary hr2) (tableRun_unary hr1) hreg).2 hready
  · rw [hreq] at hreq'; cases hreq'

theorem not_registered_batch (hr : (client cfg).Run Machine.always (h1 ++ h2) s)
    (hr1 : (client cfg).Run Machine.always h1 s1) (hc : .call c .insert ∈ h2)
    (hreq : (cfg.calls c).isRequest = false) : ¬ Registered s1.batch c := by
  intro hreg
  obtain ⟨m, s2, hr2, ⟨hreq', -⟩ | ⟨-, hready⟩⟩ := ready_of_inserts hr hc
  · rw [hreq] at hreq'; cases hreq'
  · exact (Run.registered (tableRuns_batch hr2) (tableRun_batch hr1) hreg).2 hready

/-- A step that a stage of the drain excludes is not taken until the next drain, if the steps
between keep to such stages. -/
theorem not_taken {P : DrainStage → Prop} {x : Action} {k1 k2 m : List Action}
    (hP : ∀ (s : State) a s', P s.drain → s.step cfg a = some s' → a ≠ .drainStart →
      P s'.drain ∧ a ≠ x)
    (hr : (client cfg).Run Machine.always (k1 ++ m ++ x :: k2) s)
    (hr1 : (client cfg).Run Machine.always k1 s1) (h : P s1.drain)
    (hno : ∀ a ∈ m ++ x :: k2, a ≠ .drainStart) : False := by
  rw [List.append_cons] at hr
  obtain ⟨s3, hr3, -⟩ := Machine.Run.split hr
  obtain ⟨s2, hr2, -, hs⟩ := hr3.last
  have h2 : P s2.drain := by
    refine hr2.segment (P := fun s => P s.drain) hr1 h ?_
    intro p a s3 s4 hp _ h3 hs
    exact (hP s3 a s4 h3 hs (hno a (List.mem_append_left _ (hp.subset (by simp))))).1
  exact (hP s2 x s3 h2 hs (hno x (by simp))).2 rfl

/-- A drain does not take the sender of a request that registers after the keys were copied, nor did
an earlier one. -/
theorem newcomer_unary {g1 g2 k1 k2 : List Action} {id : RequestId}
    (hr : (client cfg).Run Machine.always (g1 ++ [.drainUnary .scanned] ++ g2) s)
    (hno : ∀ a ∈ g2, a ≠ .drainStart) (hfresh : FreshKeys s) (hc : .call c .insert ∈ g2)
    (hreq : (cfg.calls c).isRequest = true)
    (heq : g1 ++ [.drainUnary .scanned] ++ g2 = k1 ++ .drainUnary (.remove id) :: k2)
    (hr1 : (client cfg).Run Machine.always k1 s1) : s1.unary.pending.lookup id ≠ some c := by
  intro hk
  obtain ⟨s3, hr3, -⟩ := Machine.Run.split hr
  have hunreg := not_registered_unary hr hr3 hc hreq
  rcases List.append_eq_append_iff.1 heq with ⟨m, rfl, rfl⟩ | ⟨m, hm, -⟩
  · -- the key is not among those that were copied, so it is passed until the next drain
    obtain ⟨s2, hr2, -, hscan⟩ := hr3.last
    have hpass : s3.drain.PassesUnary id := by
      obtain ⟨-, hu, -⟩ := step_eq_some.1 hscan
      have hu : s2.unary = s3.unary := Option.some.inj hu
      have hd := drain_step hscan
      generalize s3.drain = d at hd ⊢
      cases hd with
      | unary hdrain _ hstep =>
        have hkey : s.unary.key c = some id := by
          rw [heq] at hr
          exact Run.key (tableRuns_unary hr) (tableRun_unary hr1)
            ((Run.safe_unary hr1).keyed id c hk)
        rw [List.append_assoc] at hr
        exact ((Run.collects hr2).unary _ hdrain).passes hstep (hu ▸ hunreg) (tableRuns_unary hr)
          (tableRun_unary hr2) hfresh.unary hkey
      | other ha => cases ha
    rw [← List.append_assoc] at hr
    exact not_taken (fun _ _ _ => passesUnary_step) hr hr3 hpass hno
  · rw [hm] at hr3
    exact hunreg (Run.registered (tableRuns_unary hr3) (tableRun_unary hr1)
      ((Run.safe_unary hr1).registered hk))

theorem newcomer_batch {g1 g2 k1 k2 : List Action} {key : RangeInclusive}
    (hr : (client cfg).Run Machine.always (g1 ++ [.drainBatch .scanned] ++ g2) s)
    (hno : ∀ a ∈ g2, a ≠ .drainStart) (hfresh : FreshKeys s) (hc : .call c .insert ∈ g2)
    (hreq : (cfg.calls c).isRequest = false)
    (heq : g1 ++ [.drainBatch .scanned] ++ g2 = k1 ++ .drainBatch (.remove key) :: k2)
    (hr1 : (client cfg).Run Machine.always k1 s1) : s1.batch.pending.lookup key ≠ some c := by
  intro hk
  obtain ⟨s3, hr3, -⟩ := Machine.Run.split hr
  have hunreg := not_registered_batch hr hr3 hc hreq
  rcases List.append_eq_append_iff.1 heq with ⟨m, rfl, rfl⟩ | ⟨m, hm, -⟩
  · obtain ⟨s2, hr2, -, hscan⟩ := hr3.last
    have hpass : s3.drain.PassesBatch key := by
      obtain ⟨-, -, hb, -⟩ := step_eq_some.1 hscan
      have hb : s2.batch = s3.batch := Option.some.inj hb
      have hd := drain_step hscan
      generalize s3.drain = d at hd ⊢
      cases hd with
      | batch hdrain _ hstep =>
        have hkey : s.batch.key c = some key := by
          rw [heq] at hr
          exact Run.key (tableRuns_batch hr) (tableRun_batch hr1)
            ((Run.safe_batch hr1).keyed key c hk)
        rw [List.append_assoc] at hr
        exact ((Run.collects hr2).batch _ hdrain).passes hstep (hb ▸ hunreg) (tableRuns_batch hr)
          (tableRun_batch hr2) hfresh.batch hkey
      | other ha => cases ha
    rw [← List.append_assoc] at hr
    exact not_taken (fun _ _ _ => passesBatch_step) hr hr3 hpass hno
  · rw [hm] at hr3
    exact hunreg (Run.registered (tableRuns_batch hr3) (tableRun_batch hr1)
      ((Run.safe_batch hr1).registered hk))

/-- No frame says that the connection was lost. -/
theorem failedIn_of_unarySent {h : List Action} (hr : (client cfg).Run Machine.always h s)
    (hc : .error connectionLost ∈ unarySent cfg h c) : FailedIn cfg h c := by
  have htable := tableRun_unary hr
  rw [unarySent, Run.sentTo_eq htable, Chan.mem_values] at hc
  obtain ⟨a, id, t1, t2, hhist, hst, -⟩ :=
    (Oneshot.Run.provenanceInv htable).delivered c _ hc
  obtain ⟨p, x, q, rfl, hx, rfl, rfl⟩ := Machine.split_of_filterMap hhist
  obtain ⟨s1, hr1, -⟩ := Machine.Run.split hr
  rcases onUnary_take hx with ⟨msg, w, rfl, hroute, -, hw⟩ | ⟨rfl, -, -⟩
  · cases hw
    rcases routeMessage_unary hroute with ⟨_, -, -, hv⟩ | ⟨_, -, -, hv⟩ <;> cases hv
  · exact ⟨p, _, q, s1, rfl, hr1, .inl ⟨id, rfl, hst.lookup (tableRun_unary hr1)⟩⟩

theorem failedIn_of_batchSent {h : List Action} (hr : (client cfg).Run Machine.always h s)
    (hc : .error connectionLost ∈ batchSent cfg h c) : FailedIn cfg h c := by
  have htable := tableRun_batch hr
  rw [batchSent, Run.sentTo_eq htable, Chan.mem_values] at hc
  obtain ⟨a, key, t1, t2, hhist, hst, -⟩ :=
    (Oneshot.Run.provenanceInv htable).delivered c _ hc
  obtain ⟨p, x, q, rfl, hx, rfl, rfl⟩ := Machine.split_of_filterMap hhist
  obtain ⟨s1, hr1, -⟩ := Machine.Run.split hr
  rcases onBatch_take hx with ⟨msg, rfl, hroute, -⟩ | ⟨rfl, -, -⟩
  · obtain ⟨_, _, _, -, -, -, -, hv⟩ := routeMessage_batch hroute
    cases hv
  · exact ⟨p, _, q, s1, rfl, hr1, .inr ⟨key, rfl, hst.lookup (tableRun_batch hr1)⟩⟩

end

/-! ## The drain -/

section
variable {before during after : List Action} {s0 s1 s2 : State}

theorem DrainRun.spares_unary {p q : List Action}
    (hd : DrainRun cfg before (p ++ .drainUnary .scanned :: q) after s0 s1 s2) {c : Nat}
    (hc : .call c .insert ∈ q) (hreq : (cfg.calls c).isRequest = true) :
    ¬ FailedIn cfg (drained before (p ++ .drainUnary .scanned :: q)) c := by
  have hsplit : drained before (p ++ .drainUnary .scanned :: q) =
      before ++ .drainStart :: p ++ [.drainUnary .scanned] ++ (q ++ [.drainEnd]) := by
    simp [drained]
  rintro ⟨k1, a, k2, s3, heq, hr3, ⟨id, rfl, hk⟩ | ⟨key, -, hk⟩⟩
  · have hfresh := hd.fresh.before hd.later hd.finish
    have hfinish := hd.finish
    rw [hsplit] at heq hfinish
    refine newcomer_unary hfinish ?_ hfresh (List.mem_append_left _ hc) hreq heq hr3 hk
    rintro a ha rfl
    rcases List.mem_append.1 ha with ha | ha
    · cases hd.one .drainStart (by simp [ha])
    · simp at ha
  · rw [isBatch_of_pending hr3 hk] at hreq
    cases hreq

theorem DrainRun.spares_batch {p q : List Action}
    (hd : DrainRun cfg before (p ++ .drainBatch .scanned :: q) after s0 s1 s2) {c : Nat}
    (hc : .call c .insert ∈ q) (hreq : (cfg.calls c).isRequest = false) :
    ¬ FailedIn cfg (drained before (p ++ .drainBatch .scanned :: q)) c := by
  have hsplit : drained before (p ++ .drainBatch .scanned :: q) =
      before ++ .drainStart :: p ++ [.drainBatch .scanned] ++ (q ++ [.drainEnd]) := by
    simp [drained]
  rintro ⟨k1, a, k2, s3, heq, hr3, ⟨id, -, hk⟩ | ⟨key, rfl, hk⟩⟩
  · rw [isRequest_of_pending hr3 hk] at hreq
    cases hreq
  · have hfresh := hd.fresh.before hd.later hd.finish
    have hfinish := hd.finish
    rw [hsplit] at heq hfinish
    refine newcomer_batch hfinish ?_ hfresh (List.mem_append_left _ hc) hreq heq hr3 hk
    rintro a ha rfl
    rcases List.mem_append.1 ha with ha | ha
    · cases hd.one .drainStart (by simp [ha])
    · simp at ha

theorem finish_enabled {K A V : Type} [DecidableEq K] [DecidableEq A] {t : Table K Nat A V} {a : A}
    {x : Nat × Option V} (ha : t.hand a = some x) :
    ∃ t', t.step (.finish a) = some t' ∧ t'.hand a = none ∧ t'.key = t.key := by
  obtain ⟨t', ht⟩ : ∃ t', t.step (.finish a) = some t' := by simp [Table.step, ha]
  refine ⟨t', ht, ?_⟩
  cases step_cases ht with
  | finish => exact ⟨Function.update_self .., rfl⟩

/-- `incoming_task` can always send what it holds. -/
theorem exists_quiet {h : List Action} {s : State} (hr : (client cfg).Run Machine.always h s) :
    ∃ after s', (client cfg).Run Machine.always (h ++ after) s' ∧
      (s'.unary.hand .incoming = none ∧ s'.batch.hand .incoming = none) ∧
      s'.unary.key = s.unary.key ∧ s'.batch.key = s.batch.key := by
  -- the reply to a request, if there is one, and then that to a batch
  obtain ⟨after, s', hr', hnone, hu, hb⟩ : ∃ after s', (client cfg).Run Machine.always
      (h ++ after) s' ∧ s'.unary.hand .incoming = none ∧ s'.unary.key = s.unary.key ∧
        s'.batch.key = s.batch.key := by
    cases hx : s.unary.hand .incoming with
    | none => exact ⟨[], s, by simpa using hr, hx, rfl, rfl⟩
    | some x =>
      obtain ⟨t, ht, hnone, hkey⟩ := finish_enabled hx
      have hs : s.step cfg .reply = some { s with unary := t } :=
        step_eq_some.2 ⟨rfl, ht, rfl, rfl, rfl⟩
      exact ⟨[.reply], _, hr.snoc trivial hs, hnone, hkey, rfl⟩
  cases hx : s'.batch.hand .incoming with
  | none => exact ⟨after, s', hr', ⟨hnone, hx⟩, hu, hb⟩
  | some x =>
    obtain ⟨t, ht, hnone', hkey⟩ := finish_enabled hx
    obtain ⟨alive, halive⟩ : ∃ alive, Action.onIncoming cfg s' .batchReply = some alive := by
      simp only [Action.onIncoming]
      split <;> exact ⟨_, rfl⟩
    have hs : s'.step cfg .batchReply = some { s' with batch := t, alive := alive } :=
      step_eq_some.2 ⟨rfl, rfl, ht, halive, rfl⟩
    have hr2 := hr'.snoc trivial hs
    rw [List.append_assoc] at hr2
    exact ⟨_, _, hr2, ⟨hnone, hnone'⟩, hu, hkey.trans hb⟩

/-- Every drain that ends is followed by such a state. -/
theorem DrainRun.of_finish (start : (client cfg).Run Machine.always before s0)
    (finish : (client cfg).Run Machine.always (drained before during) s1)
    (one : ∀ a ∈ during, a.ofTask = false) (fresh : FreshKeys s1) :
    ∃ after s2, DrainRun cfg before during after s0 s1 s2 := by
  obtain ⟨after, s2, later, quiet, hu, hb⟩ := exists_quiet finish
  exact ⟨after, s2, start, finish, later, one, fresh.of_keys hu hb, quiet⟩

/-- **A drain resolves each entry once.** For every interleaving of one run of
`fail_pending_requests` with the frames, the callers and the calls that register under fresh keys:

* a request that is pending when it starts is not when it ends, nor is its id; it has been sent one
  value, by the frame that found it before the drain did, or by the drain, or, if its own caller
  removed it, none; and so for a batch;
* a call that registers after the keys of its map were copied is not removed by the drain, and is
  not sent its error. -/
theorem drain_resolves_once (hd : DrainRun cfg before during after s0 s1 s2) :
    (∀ id c, s0.unary.pending.lookup id = some c → id ∉ s1.unary.pending ∧
      Fate cfg before during c (fun msg v => routeMessage cfg.profile cfg.serde msg = .unary id v)
        (unarySent cfg (drained before during ++ after) c)) ∧
    (∀ key c, s0.batch.pending.lookup key = some c → key ∉ s1.batch.pending ∧
      Fate cfg before during c
        (fun msg v => routeMessage cfg.profile cfg.serde msg = .batch key (some v))
        (batchSent cfg (drained before during ++ after) c)) ∧
    (∀ p q c, during = p ++ .drainUnary .scanned :: q → .call c .insert ∈ q →
      (cfg.calls c).isRequest = true → ¬ FailedIn cfg (drained before during) c ∧
        .error connectionLost ∉ unarySent cfg (drained before during) c) ∧
    (∀ p q c, during = p ++ .drainBatch .scanned :: q → .call c .insert ∈ q →
      (cfg.calls c).isRequest = false → ¬ FailedIn cfg (drained before during) c ∧
        .error connectionLost ∉ batchSent cfg (drained before during) c) := by
  refine ⟨fun id c hk => hd.resolved_unary hk, fun key c hk => hd.resolved_batch hk, ?_, ?_⟩
  · rintro p q c rfl hc hreq
    have hspared := hd.spares_unary hc hreq
    exact ⟨hspared, fun hlost => hspared (failedIn_of_unarySent hd.finish hlost)⟩
  · rintro p q c rfl hc hreq
    have hspared := hd.spares_batch hc hreq
    exact ⟨hspared, fun hlost => hspared (failedIn_of_batchSent hd.finish hlost)⟩

end

/-- A request and a batch are pending. -/
def twoPending : List Action :=
  [.reserveId 0 ⟨0⟩, .call 0 .insert, .build 1 (some ⟨⟨1⟩, ⟨1⟩⟩), .call 1 .insert]

/-- A frame gets to the request first, the drain to the batch, and another batch registers. -/
def mixedDrain : List Action :=
  [.drainUnary (.yield ⟨0⟩), .drainUnary .scanned,
    .handle (.Text "\x7b\"jsonrpc\":\"2.0\",\"id\":0,\"result\":7\x7d"),
    .drainUnary (.remove ⟨0⟩), .drainNext, .drainBatch (.yield ⟨⟨1⟩, ⟨1⟩⟩), .drainBatch .scanned,
    .build 2 (some ⟨⟨2⟩, ⟨2⟩⟩), .call 2 .insert, .drainBatch (.remove ⟨⟨1⟩, ⟨1⟩⟩), .failBatch]

theorem drain_resolves_once_mixed : ∃ s0 s1 s2,
    DrainRun twoCalls twoPending mixedDrain [.reply] s0 s1 s2 ∧
    (⟨0⟩ ∉ s1.unary.pending ∧ Fate twoCalls twoPending mixedDrain 0
      (fun msg v => routeMessage twoCalls.profile twoCalls.serde msg = .unary ⟨0⟩ v)
      (unarySent twoCalls (drained twoPending mixedDrain ++ [.reply]) 0)) ∧
    (⟨⟨1⟩, ⟨1⟩⟩ ∉ s1.batch.pending ∧ Fate twoCalls twoPending mixedDrain 1
      (fun msg v => routeMessage twoCalls.profile twoCalls.serde msg =
        .batch ⟨⟨1⟩, ⟨1⟩⟩ (some v))
      (batchSent twoCalls (drained twoPending mixedDrain ++ [.reply]) 1)) ∧
    ¬ FailedIn twoCalls (drained twoPending mixedDrain) 2 ∧
      .error connectionLost ∉ batchSent twoCalls (drained twoPending mixedDrain) 2 := by
  have hbefore : ((client twoCalls).exec State.init twoPending).any (fun s =>
      s.unary.pending.lookup ⟨0⟩ = some 0 ∧
        s.batch.pending.lookup ⟨⟨1⟩, ⟨1⟩⟩ = some 1) = true := by decide +kernel
  have hdrained : ((client twoCalls).exec State.init (drained twoPending mixedDrain)).isSome =
      true := by decide +kernel
  have hafter : ((client twoCalls).exec State.init
      (drained twoPending mixedDrain ++ [.reply])).any (fun s =>
        s.unary.hand .incoming = none ∧ s.batch.hand .incoming = none) = true := by decide +kernel
  obtain ⟨s0, hs0, hpending⟩ := (Option.any_eq_true _ _).1 hbefore
  obtain ⟨hunary, hbatch⟩ := of_decide_eq_true hpending
  obtain ⟨s1, hs1⟩ := Option.isSome_iff_exists.1 hdrained
  obtain ⟨s2, hs2, hquiet⟩ := (Option.any_eq_true _ _).1 hafter
  have hr2 := Machine.Run.of_exec hs2
  have hd : DrainRun twoCalls twoPending mixedDrain [.reply] s0 s1 s2 :=
    ⟨Machine.Run.of_exec hs0, Machine.Run.of_exec hs1, hr2, by decide,
      freshKeys hr2 (by decide +kernel), of_decide_eq_true hquiet⟩
  obtain ⟨hU, hB, -, hnew⟩ := drain_resolves_once hd
  refine ⟨s0, s1, s2, hd, hU ⟨0⟩ 0 hunary, hB _ 1 hbatch, ?_⟩
  exact hnew (mixedDrain.take 6) (mixedDrain.drop 7) 2 rfl (by simp [mixedDrain]) rfl

end JsonRpc.Ws
