import JsonRpcClient.Concurrent.Oneshot

/-!
# The callers of a table, one by one

Whatever the others do, a caller's own steps are a path through its program (`Path`), so where it
stands says which steps it took (`Run.path`). Nobody but the caller moves it (`step_other`).

`Run.closed` is the other side of `Run.provenance`: why a receiver finds its sender dropped.
-/

namespace Oneshot
open scoped List

variable {K C A V : Type}

/-- The caller whose step it is; the other steps are the agents'. -/
def Act.caller : Act K C A V → Option C
  | prepare c _ | abort c | register c | sendOk c | sendErr c | expire c | unregister c
  | receive c | drop c => some c
  | take .. | finish _ => none

/-- The steps by which a caller gets to its phase, with its key. -/
inductive Path (c : C) : Phase V → Option K → List (Act K C A V) → Prop
  | fresh : Path c .fresh none []
  | early : Path c (.over .early) none [.abort c]
  | ready {k} : Path c .ready (some k) [.prepare c k]
  | sending {k} : Path c .sending (some k) [.prepare c k, .register c]
  | failed {k} : Path c .failed (some k) [.prepare c k, .register c, .sendErr c]
  | sendFailed {k} : Path c (.over .sendFailed) (some k)
      [.prepare c k, .register c, .sendErr c, .unregister c]
  | waiting {k} : Path c .waiting (some k) [.prepare c k, .register c, .sendOk c]
  | expired {k} : Path c .expired (some k) [.prepare c k, .register c, .sendOk c, .expire c]
  | timedOut {k} : Path c (.over .timedOut) (some k)
      [.prepare c k, .register c, .sendOk c, .expire c, .unregister c]
  | droppedSending {k} : Path c (.over .dropped) (some k) [.prepare c k, .register c, .drop c]
  | droppedWaiting {k} : Path c (.over .dropped) (some k)
      [.prepare c k, .register c, .sendOk c, .drop c]
  | received {k v} : Path c (.over (.received v)) (some k)
      [.prepare c k, .register c, .sendOk c, .receive c]
  | disconnected {k} : Path c (.over .disconnected) (some k)
      [.prepare c k, .register c, .sendOk c, .receive c]

/-! ## How often a call sends -/

def Act.sends : Act K C A V → Bool
  | sendOk _ => true
  | _ => false

/-- How often a call that is in a phase has sent. An abandoned call may have, or not. -/
def Phase.Sent : Phase V → Nat → Prop
  | .waiting, n | .expired, n | .over .timedOut, n | .over (.received _), n
  | .over .disconnected, n => n = 1
  | .over .dropped, n => n ≤ 1
  | _, n => n = 0

theorem Phase.Sent.le_one {p : Phase V} {n : Nat} (h : p.Sent n) : n ≤ 1 := by
  unfold Phase.Sent at h
  split at h <;> omega

theorem Path.sent {c : C} {p : Phase V} {k : Option K} {l : List (Act K C A V)} (h : Path c p k l) :
    p.Sent (l.countP Act.sends) := by
  cases h <;> simp [Phase.Sent, Act.sends, List.countP_cons]

/-! ## The steps of one caller -/

section
variable [DecidableEq C] {act : Act K C A V} {c : C}

/-- The steps of one caller in a history. -/
def ownSteps (c : C) (h : List (Act K C A V)) : List (Act K C A V) :=
  h.filter fun act => act.caller = some c

theorem ownSteps_append (h h' : List (Act K C A V)) :
    ownSteps c (h ++ h') = ownSteps c h ++ ownSteps c h' := List.filter_append ..

theorem ownSteps_own (hc : act.caller = some c) : ownSteps c [act] = [act] := by
  simp [ownSteps, hc]

theorem ownSteps_other (hc : act.caller ≠ some c) : ownSteps c [act] = [] := by
  simp [ownSteps, hc]

end

/-! ## Where it stands -/

variable [DecidableEq K] [DecidableEq C] [DecidableEq A]
variable {t t' : Table K C A V} {act : Act K C A V} {c : C}

/-- **Nobody moves a call but its own caller.** -/
theorem step_other (hs : Step t act t') (hc : act.caller ≠ some c) :
    t'.phase c = t.phase c ∧ t'.key c = t.key c := by
  have hne : ∀ c', act.caller = some c' → c ≠ c' := by
    rintro c' hc' rfl
    exact hc hc'
  cases hs with
  | prepare =>
    simp [Function.update_of_ne (hne _ rfl)]
  | take => exact ⟨rfl, rfl⟩
  | miss => exact ⟨rfl, rfl⟩
  | finish => exact ⟨rfl, rfl⟩
  | _ => simp [Function.update_of_ne (hne _ rfl)]

/-- A call that is over stays so. -/
theorem step_over (hs : Step t act t') {e : Exit V} (hc : t.phase c = .over e) :
    t'.phase c = .over e := by
  by_cases hown : act.caller = some c
  · -- it has no step left
    cases hs with
    | unregister hgive =>
      obtain rfl := Option.some.inj hown
      rw [hc] at hgive
      cases hgive
    | drop hp =>
      obtain rfl := Option.some.inj hown
      rw [hc] at hp
      rcases hp with hp | hp <;> cases hp
    | take => cases hown
    | miss => cases hown
    | finish => cases hown
    | _ hp =>
      obtain rfl := Option.some.inj hown
      rw [hc] at hp
      cases hp
  · rw [(step_other hs hown).1, hc]

/-- One step of its own takes a caller one step further on its path. -/
theorem Path.step {l : List (Act K C A V)} (h : Path c (t.phase c) (t.key c) l)
    (hs : Step t act t') (hc : act.caller = some c) :
    Path c (t'.phase c) (t'.key c) (l ++ [act]) := by
  generalize hkey : t.key c = key at h
  cases hs with
  | prepare hp =>
    obtain rfl := Option.some.inj hc
    rw [hp] at h
    cases h
    simpa using Path.ready
  | abort hp =>
    obtain rfl := Option.some.inj hc
    rw [hp] at h
    cases h
    simpa [hkey] using Path.early
  | register hp hk =>
    obtain rfl := Option.some.inj hc
    rw [hp] at h
    cases h
    simpa [hkey] using Path.sending
  | sendOk hp =>
    obtain rfl := Option.some.inj hc
    rw [hp] at h
    cases h
    simpa [hkey] using Path.waiting
  | sendErr hp =>
    obtain rfl := Option.some.inj hc
    rw [hp] at h
    cases h
    simpa [hkey] using Path.failed
  | expire hp =>
    obtain rfl := Option.some.inj hc
    rw [hp] at h
    cases h
    simpa [hkey] using Path.expired
  | @unregister c' e k hgive hk =>
    obtain rfl : c' = c := Option.some.inj hc
    -- it gives up either way
    cases hp : t.phase c' with
    | failed =>
      rw [hp] at h hgive
      cases hgive
      cases h
      simpa [hkey] using Path.sendFailed
    | expired =>
      rw [hp] at h hgive
      cases hgive
      cases h
      simpa [hkey] using Path.timedOut
    | _ => rw [hp] at hgive; cases hgive
  | receive hp =>
    obtain rfl := Option.some.inj hc
    rw [hp] at h
    cases h
    simpa [hkey] using Path.received
  | disconnect hp =>
    obtain rfl := Option.some.inj hc
    rw [hp] at h
    cases h
    simpa [hkey] using Path.disconnected
  | drop hp =>
    obtain rfl := Option.some.inj hc
    rcases hp with hp | hp
    · rw [hp] at h
      cases h
      simpa [hkey] using Path.droppedSending
    · rw [hp] at h
      cases h
      simpa [hkey] using Path.droppedWaiting
  | take => cases hc
  | miss => cases hc
  | finish => cases hc

variable {ok : Table K C A V → Act K C A V → Prop} {hist : List (Act K C A V)}

/-- **Program order.** In every run, the steps of one caller are those of the path to its phase. -/
theorem Run.path (hr : machine.Run ok hist t) (c : C) :
    Path c (t.phase c) (t.key c) (ownSteps c hist) := by
  refine Machine.Run.invariant (P := fun hist t => Path c (t.phase c) (t.key c) (ownSteps c hist))
    .fresh ?_ hr
  intro hist t act t' _ ih _ hs
  rw [ownSteps_append]
  by_cases hc : act.caller = some c
  · rw [ownSteps_own hc]
    exact ih.step (step_cases hs) hc
  · obtain ⟨hphase, hkey⟩ := step_other (step_cases hs) hc
    rw [ownSteps_other hc, List.append_nil, hphase, hkey]
    exact ih

/-! ## Why a sender is dropped -/

inductive Dropped (ok : Table K C A V → Act K C A V → Prop) (hist : List (Act K C A V))
    (t : Table K C A V) (c : C) : Prop
  /-- its caller removed it -/
  | removed (hmem : .unregister c ∈ hist)
  /-- an agent took it, and had nothing to send -/
  | taken {a k h1 h2} (heq : hist = h1 ++ .take a k none :: h2) (hst : Stored ok h1 k c)
  /-- another caller has the same key -/
  | displaced {c' k} (hne : c' ≠ c) (hkey : t.key c = some k) (hkey' : t.key c' = some k)

theorem Dropped.step (h : Dropped ok hist t c) (hsafe : Safe t) (hs : Step t act t') :
    Dropped ok (hist ++ [act]) t' c := by
  cases h with
  | removed hmem => exact .removed (List.mem_append_left _ hmem)
  | taken heq hst => exact .taken (by rw [heq, List.append_assoc, List.cons_append]) hst
  | displaced hne hkey hkey' =>
    exact .displaced hne (step_key hsafe hs hkey) (step_key hsafe hs hkey')

/-- The step that drops it. -/
theorem dropped_of_step (hr : machine.Run ok hist t) (hs : Step t act t') (hc : t.chan c ≠ .closed)
    (hc' : t'.chan c = .closed) : Dropped ok (hist ++ [act]) t' c := by
  have hsafe := Run.safe hr
  have hdrop : ∀ k, (t.dropSender k).chan c = .closed → t.pending.lookup k = some c := by
    intro k hk
    by_contra hno
    exact hc ((dropSender_chan t c k hno).symm.trans hk)
  cases hs with
  | @register c1 k hp hkey =>
    have hk := hdrop k hc'
    refine .displaced ?_ (by simpa using hsafe.keyed k c hk) (by simpa using hkey)
    rintro rfl
    exact (hsafe.registered hk).2 hp
  | @unregister c1 e k hgive hkey =>
    have hk := hdrop k hc'
    by_cases he : c1 = c
    · subst he
      exact .removed (by simp)
    · exact .displaced he (by simpa using hsafe.keyed k c hk) (by simpa using hkey)
  | @finish a c1 v ha =>
    by_cases he : c = c1
    · subst he
      simp only [Function.update_self] at hc'
      cases v with
      | some v => cases hc'
      | none =>
        obtain ⟨k, h1, h2, rfl, hst⟩ := (Run.provenanceInv hr).held a c none ha
        exact .taken (by rw [List.append_assoc, List.cons_append]) hst
    · exact absurd ((Function.update_of_ne he ..).symm.trans hc') hc
  | _ => exact absurd hc' hc

theorem Run.closed (hr : machine.Run ok hist t) (hc : t.chan c = .closed) :
    Dropped ok hist t c := by
  induction hr with
  | nil => cases hc
  | @snoc hist t act t' hr _ hs ih =>
    by_cases hc' : t.chan c = .closed
    · exact (ih hc').step (Run.safe hr) (step_cases hs)
    · exact dropped_of_step hr (step_cases hs) hc' hc

/-- A receiver that found its sender dropped. -/
theorem Run.disconnected (hr : machine.Run ok hist t) (hc : t.phase c = .over .disconnected) :
    t.chan c = .closed := by
  refine Machine.Run.invariant (P := fun _ t => t.phase c = .over .disconnected →
    t.chan c = .closed) ?_ ?_ hr hc
  · intro h
    cases h
  · intro hist t act t' hr ih _ hs hc
    have hs := step_cases hs
    have hkeep : t.phase c = .over .disconnected → t'.chan c = .closed := fun hp =>
      (chan_settled (Run.safe hr) hs (by simp [ih hp])).trans (ih hp)
    have hset : ∀ {c' : C} {p : Phase V}, Function.update t.phase c' p c = .over .disconnected →
        p ≠ .over .disconnected → t'.chan c = .closed := by
      intro c' p h hp
      rcases update_phase_cases h with ⟨-, heq⟩ | h
      · exact absurd heq hp
      · exact hkeep h
    cases hs with
    | @disconnect c' hp hchan =>
      rcases update_phase_cases hc with ⟨rfl, -⟩ | hc
      · exact hchan
      · exact hkeep hc
    | @unregister c' e k hgive hk =>
      simp only [setPhase_phase, remove_phase] at hc
      refine hset hc ?_
      rintro h
      cases h
      unfold Table.givesUp at hgive
      split at hgive <;> cases hgive
    | take => exact hkeep hc
    | miss => exact hkeep hc
    | finish => exact hkeep hc
    | _ =>
      simp only [setPhase_phase, insert_phase] at hc
      exact hset hc (by simp)

/-- **While no two callers have the same key, and agents send what they take, no caller finds its
sender dropped.** -/
theorem Run.not_disconnected (hr : machine.Run ok hist t) (hfresh : t.FreshKeys)
    (hsends : ∀ a k, .take a k none ∉ hist) (c : C) : t.phase c ≠ .over .disconnected := by
  intro hc
  have hpath := Run.path hr c
  have hmem : .unregister c ∈ hist → .unregister c ∈ ownSteps c hist := fun h =>
    List.mem_filter.2 ⟨h, by simp [Act.caller]⟩
  cases Run.closed hr (Run.disconnected hr hc) with
  | removed h =>
    rw [hc] at hpath
    generalize ownSteps c hist = l at hpath hmem
    generalize t.key c = key at hpath
    cases hpath
    simpa using hmem h
  | @taken a k h1 h2 heq => exact hsends a k (by rw [heq]; simp)
  | displaced hne hkey hkey' => exact hne (hfresh _ _ _ hkey' hkey)

end Oneshot
