import JsonRpcClient.Ws.Correlation

/-!
# What the two maps hold

Two results about every reachable state of a client. `ids_unique`: as long as the ids last, the keys
of both maps denote disjoint sets of reserved ids, so an `insert` never meets an entry.
`no_leak_iff`: every entry belongs to a call that is running, in just those runs in which no call is
dropped while its sender is in a map; nothing removes the entry of a dropped call
(`dropped_calls_leak`).
-/

namespace JsonRpc.Ws
open Json Arrange Oneshot
open scoped List

variable {R : ResponseTypes} {cfg : Config R} {h : List Action} {s : State}

/-! ## Reserved ids -/

/-- What a step reserves. -/
def Action.reservation (cfg : Config R) : Action → Option (Reservation R × List RequestId)
  | .reserveId _ id => some (.request, [id])
  | .build c key =>
    match cfg.calls c with
    | .batch calls _ => some (.batch calls, key.elim [] RangeInclusive.ids)
    | .request .. => none
  | _ => none

/-- How many ids a history reserves. -/
def reserved (cfg : Config R) (h : List Action) : Nat :=
  total (h.filterMap (Action.reservation cfg))

theorem reserved_append (cfg : Config R) (h1 h2 : List Action) :
    reserved cfg (h1 ++ h2) = reserved cfg h1 + reserved cfg h2 := by
  simp only [reserved, total, List.filterMap_append, List.map_append, List.sum_append]

/-- A run of a client is a run of its id manager. -/
theorem Run.idManager (hr : (client cfg).Run Machine.always h s) :
    (JsonRpc.idManager R cfg.profile).Run Machine.always
    (h.filterMap (Action.reservation cfg)) s.idmgr := by
  refine hr.project State.idmgr (Action.reservation cfg) rfl ?_
  intro s a s' _ hs
  obtain ⟨hids, -⟩ := step_eq_some.1 hs
  cases a with
  | reserveId c id =>
    simp only [Action.onIds] at hids
    split at hids
    · rename_i hid
      refine ⟨trivial, ?_⟩
      simp only [JsonRpc.idManager, Reservation.reserve, hid.2, ↓reduceIte]
      exact hids
    · cases hids
  | build c key =>
    simp only [Action.onIds] at hids
    split at hids
    · rename_i calls timeout hcalls
      split at hids
      · rename_i hkey
        simp only [Action.reservation, hcalls]
        refine ⟨trivial, ?_⟩
        simp only [JsonRpc.idManager, Reservation.reserve, hkey, ↓reduceIte]
        exact hids
      · cases hids
    · cases hids
  | _ => exact (Option.some.inj hids).symm

/-- The ids a step hands out. -/
def Action.ids : Action → List RequestId
  | .reserveId _ id => [id]
  | .build _ key => key.elim [] RangeInclusive.ids
  | _ => []

theorem reservation_of_mem {a : Action} (hr : (client cfg).Run Machine.always h s) (ha : a ∈ h)
    {id : RequestId} (hid : id ∈ a.ids) : ∃ r, a.reservation cfg = some (r, a.ids) := by
  obtain ⟨h1, s1, s2, -, -, hs⟩ := hr.of_mem ha
  cases a with
  | reserveId c id => exact ⟨_, rfl⟩
  | build c key =>
    obtain ⟨hids, -⟩ := step_eq_some.1 hs
    simp only [Action.onIds] at hids
    split at hids
    · rename_i calls timeout hcalls
      exact ⟨.batch calls, by simp only [Action.reservation, hcalls, Action.ids]⟩
    · cases hids
  | _ => cases hid

/-- Two steps never hand out the same id. -/
theorem ids_disjoint (hr : (client cfg).Run Machine.always h s) (ht : reserved cfg h < 2 ^ 64)
    {a b : Action} (ha : a ∈ h) (hb : b ∈ h) (hne : a ≠ b) : a.ids.Disjoint b.ids := by
  obtain ⟨-, hinc⟩ := idManager_increasing (Run.idManager hr) ht
  rw [List.pairwise_filterMap] at hinc
  have hpair : h.Pairwise fun a b => a.ids.Disjoint b.ids := by
    refine hinc.imp_of_mem fun {a b} ha hb hab id hida hidb => ?_
    obtain ⟨r, hra⟩ := reservation_of_mem hr ha hida
    obtain ⟨r', hrb⟩ := reservation_of_mem hr hb hidb
    have hlt := RequestId.lt_iff.1 (hab _ hra _ hrb id hida id hidb)
    omega
  have : Std.Symm fun a b : Action => a.ids.Disjoint b.ids := ⟨fun _ _ hab _ hb ha => hab ha hb⟩
  exact hpair.forall ha hb hne

theorem ids_lt (hr : (client cfg).Run Machine.always h s) (ht : reserved cfg h < 2 ^ 64)
    {a : Action} (ha : a ∈ h)
    {id : RequestId} (hid : id ∈ a.ids) : id.toNat < s.idmgr.current_id.toNat := by
  obtain ⟨r, hra⟩ := reservation_of_mem hr ha hid
  exact (idManager_mem (Run.idManager hr) ht id).1 ⟨_, List.mem_filterMap.2 ⟨a, ha, hra⟩, hid⟩

/-- The keys that calls hold were reserved by them. -/
theorem reserved_unary (hr : (client cfg).Run Machine.always h s) {c : Nat} {id : RequestId}
    (hkey : s.unary.key c = some id) : .reserveId c id ∈ h :=
  (sublist_unary [.prepare c id] (by simp [Traced])
    ((Oneshot.Run.provenanceInv (tableRun_unary hr)).prepared c id hkey)).subset List.mem_cons_self

theorem reserved_batch (hr : (client cfg).Run Machine.always h s) {c : Nat} {key : RangeInclusive}
    (hkey : s.batch.key c = some key) : .build c (some key) ∈ h :=
  (sublist_batch [.prepare c key] (by simp [Traced])
    ((Oneshot.Run.provenanceInv (tableRun_batch hr)).prepared c key hkey)).subset List.mem_cons_self

/-- The range of a batch is not empty. -/
theorem key_ids_ne_nil (hr : (client cfg).Run Machine.always h s) (ht : reserved cfg h < 2 ^ 64)
    {c : Nat} {key : RangeInclusive} (hkey : s.batch.key c = some key) : key.ids ≠ [] := by
  have hmem := reserved_batch hr hkey
  obtain ⟨h1, s1, s2, -, -, hs⟩ := hr.of_mem hmem
  obtain ⟨hids, -⟩ := step_eq_some.1 hs
  simp only [Action.onIds] at hids
  split at hids
  · rename_i calls timeout hcalls
    obtain ⟨idmgr, hres⟩ := build_of_key hr hkey hcalls
    obtain ⟨hcount, -⟩ := RequestIdManager.reserveRange_some hres
    have hlen := (idManager_ids (Run.idManager hr) ht).1 (.batch calls, key.ids)
      (List.mem_filterMap.2 ⟨_, hmem, by simp only [Action.reservation, hcalls, Option.elim]⟩)
    rintro hnil
    rw [hnil, List.length_nil, Reservation.count] at hlen
    rw [← hlen] at hcount
    exact hcount rfl
  · cases hids

/-- No two calls have the same key. -/
structure FreshKeys (s : State) : Prop where
  unary : s.unary.FreshKeys
  batch : s.batch.FreshKeys

theorem freshKeys (hr : (client cfg).Run Machine.always h s) (ht : reserved cfg h < 2 ^ 64) :
    FreshKeys s where
  unary c c' id hc hc' := by
    by_contra hne
    exact ids_disjoint hr ht (reserved_unary hr hc) (reserved_unary hr hc') (by simp [hne])
      List.mem_cons_self List.mem_cons_self
  batch c c' key hc hc' := by
    by_contra hne
    obtain ⟨x, hx⟩ := List.exists_mem_of_ne_nil _ (key_ids_ne_nil hr ht hc)
    exact ids_disjoint hr ht (reserved_batch hr hc) (reserved_batch hr hc') (by simp [hne]) hx hx

/-- The keys of both maps are reserved ids, and no two keys have an id in common. -/
structure DistinctKeys (s : State) : Prop where
  unary_lt : ∀ id ∈ s.unary.pending, id.toNat < s.idmgr.current_id.toNat
  batch_lt : ∀ key ∈ s.batch.pending, ∀ id ∈ key.ids, id.toNat < s.idmgr.current_id.toNat
  unary_batch : ∀ id ∈ s.unary.pending, ∀ key ∈ s.batch.pending, id ∉ key.ids
  batch_batch : ∀ key ∈ s.batch.pending, ∀ key' ∈ s.batch.pending, key ≠ key' →
    key.ids.Disjoint key'.ids

/-- A call that registers next leaves every entry of the maps as it is. -/
def InsertKeeps (cfg : Config R) (s : State) : Prop :=
  ∀ c s', s.step cfg (.call c .insert) = some s' →
    (∀ id c', s.unary.pending.lookup id = some c' → s'.unary.pending.lookup id = some c') ∧
    ∀ key c', s.batch.pending.lookup key = some c' → s'.batch.pending.lookup key = some c'

theorem distinctKeys (hr : (client cfg).Run Machine.always h s) (ht : reserved cfg h < 2 ^ 64) :
    DistinctKeys s := by
  have hunary : ∀ id ∈ s.unary.pending, ∃ c, .reserveId c id ∈ h := fun id hid => by
    obtain ⟨c, hc⟩ := Option.isSome_iff_exists.1 (AList.lookup_isSome.2 hid)
    exact ⟨c, reserved_unary hr ((Run.safe_unary hr).keyed id c hc)⟩
  have hbatch : ∀ key ∈ s.batch.pending, ∃ c, s.batch.pending.lookup key = some c ∧
      .build c (some key) ∈ h :=
    fun key hkey => by
      obtain ⟨c, hc⟩ := Option.isSome_iff_exists.1 (AList.lookup_isSome.2 hkey)
      exact ⟨c, hc, reserved_batch hr ((Run.safe_batch hr).keyed key c hc)⟩
  refine ⟨fun id hid => ?_, fun key hkey id hid => ?_, fun id hid key hkey hmem => ?_,
    fun key hkey key' hkey' hne => ?_⟩
  · obtain ⟨c, hmem⟩ := hunary id hid
    exact ids_lt hr ht hmem List.mem_cons_self
  · obtain ⟨c, -, hmem⟩ := hbatch key hkey
    exact ids_lt hr ht hmem hid
  · obtain ⟨c, hc⟩ := hunary id hid
    obtain ⟨c', -, hc'⟩ := hbatch key hkey
    exact ids_disjoint hr ht hc hc' (by simp) List.mem_cons_self hmem
  · obtain ⟨c, -, hmem⟩ := hbatch key hkey
    obtain ⟨c', -, hmem'⟩ := hbatch key' hkey'
    exact ids_disjoint hr ht hmem hmem' (fun he => by cases he; exact hne rfl)

theorem insertKeeps (hr : (client cfg).Run Machine.always h s) (ht : reserved cfg h < 2 ^ 64) :
    InsertKeeps cfg s := by
  intro c s' hs
  obtain ⟨-, hu, hb, -⟩ := step_eq_some.1 hs
  simp only [Action.onUnary, Action.onBatch, CallStep.act] at hu hb
  by_cases hreq : (cfg.calls c).isRequest = true
  · simp only [hreq, ↓reduceIte, tableStep, Option.some.injEq] at hu hb
    rw [← hb]
    refine ⟨fun id c' hk => ?_, fun _ _ hk => hk⟩
    generalize s'.unary = t' at hu ⊢
    cases step_cases hu with
    | register hready hkey =>
      rename_i key
      simp only [setPhase_pending, insert_pending]
      rw [AList.lookup_insert_ne, hk]
      rintro rfl
      -- the other call would be this one, which has not registered
      have hsame := (freshKeys hr ht).unary c' c _ ((Run.safe_unary hr).keyed _ _ hk) hkey
      exact ((Run.safe_unary hr).own c (.inr hready)).1 _ (hsame ▸ hk)
  · simp only [hreq, Bool.false_eq_true, ↓reduceIte, tableStep, Option.some.injEq] at hu hb
    rw [← hu]
    refine ⟨fun _ _ hk => hk, fun id c' hk => ?_⟩
    generalize s'.batch = t' at hb ⊢
    cases step_cases hb with
    | register hready hkey =>
      rename_i key
      simp only [setPhase_pending, insert_pending]
      rw [AList.lookup_insert_ne, hk]
      rintro rfl
      have hsame := (freshKeys hr ht).batch c' c _ ((Run.safe_batch hr).keyed _ _ hk) hkey
      exact ((Run.safe_batch hr).own c (.inr hready)).1 _ (hsame ▸ hk)

/-- **Id uniqueness over whole runs.** Every sequence of reservations that asks for fewer than
`2^64` ids gives each the number it asks for, hands out exactly the ids below `current_id`, and
gives greater ids to the later of two. So in every state of a client the keys of the maps denote
disjoint sets of ids below `current_id`, and no `insert` replaces an entry. -/
theorem ids_unique (cfg : Config R) :
    (∀ h m, (JsonRpc.idManager R cfg.profile).Run Machine.always h m → total h < 2 ^ 64 →
      (∀ a ∈ h, a.2.length = a.1.count) ∧
      (∀ id, (∃ a ∈ h, id ∈ a.2) ↔ id.toNat < m.current_id.toNat) ∧
      h.Pairwise (fun a b => a.2.Disjoint b.2 ∧ ∀ x ∈ a.2, ∀ y ∈ b.2, x < y) ∧
      ∀ a ∈ h, a.2.Pairwise (· < ·)) ∧
    (∀ h s, (client cfg).Run Machine.always h s → reserved cfg h < 2 ^ 64 →
      DistinctKeys s ∧ InsertKeeps cfg s) := by
  refine ⟨fun h m hr ht => ⟨(idManager_ids hr ht).1, idManager_mem hr ht, ?_,
    (idManager_increasing hr ht).1⟩,
    fun h s hr ht => ⟨distinctKeys hr ht, insertKeeps hr ht⟩⟩
  refine (idManager_increasing hr ht).2.imp fun {a b} hab => ⟨fun x hxa hxb => ?_, hab⟩
  have hlt := RequestId.lt_iff.1 (hab x hxa x hxb)
  omega

/-- A request, and a batch of two after it. -/
def twoReservations : List (Reservation basicTypes × List RequestId) :=
  [(.request, [⟨0⟩]), (.batch [.addRequest .U64 "a" none, .addRequest .U64 "b" none], [⟨1⟩, ⟨2⟩])]

theorem ids_unique_two :
    (∃ m, (JsonRpc.idManager basicTypes twoCalls.profile).Run Machine.always twoReservations m ∧
      m.current_id = 3 ∧ twoReservations.Pairwise fun a b => a.2.Disjoint b.2 ∧
        ∀ x ∈ a.2, ∀ y ∈ b.2, x < y) ∧
    ∃ s, (client twoCalls).Run Machine.always (twoReplies.take 6) s ∧
      s.unary.pending.lookup ⟨0⟩ = some 0 ∧ s.batch.pending.lookup ⟨⟨1⟩, ⟨1⟩⟩ = some 1 ∧
      DistinctKeys s ∧ InsertKeeps twoCalls s := by
  obtain ⟨hmanager, hclient⟩ := ids_unique twoCalls
  constructor
  · have hrun : ((JsonRpc.idManager basicTypes twoCalls.profile).exec .new twoReservations).any
        (fun m => m.current_id = 3) = true := by decide +kernel
    obtain ⟨m, hm, hcur⟩ := (Option.any_eq_true _ _).1 hrun
    have hr := Machine.Run.of_exec (m := JsonRpc.idManager basicTypes twoCalls.profile) hm
    obtain ⟨-, -, hpairwise, -⟩ := hmanager _ m hr (by decide +kernel)
    exact ⟨m, hr, of_decide_eq_true hcur, hpairwise⟩
  · have hrun : ((client twoCalls).exec State.init (twoReplies.take 6)).any (fun s =>
        s.unary.pending.lookup ⟨0⟩ = some 0 ∧
          s.batch.pending.lookup ⟨⟨1⟩, ⟨1⟩⟩ = some 1) = true := by decide +kernel
    obtain ⟨s, hs, hpending⟩ := (Option.any_eq_true _ _).1 hrun
    obtain ⟨hunary, hbatch⟩ := of_decide_eq_true hpending
    have hr := Machine.Run.of_exec hs
    exact ⟨s, hr, hunary, hbatch, hclient _ s hr (by decide +kernel)⟩

/-! ## Entries of calls that are over -/

/-- Every entry belongs to a call that is running, and is stored under that call's own key. -/
structure NoLeak (s : State) : Prop where
  unary : ∀ id c, s.unary.pending.lookup id = some c → s.unary.key c = some id ∧
    (s.unary.phase c).running = true
  batch : ∀ key c, s.batch.pending.lookup key = some c → s.batch.key c = some key ∧
    (s.batch.phase c).running = true

/-- The ids of a call that is over are in neither map. -/
structure Cleared (s : State) : Prop where
  unary : ∀ c e id, s.unary.phase c = .over e → s.unary.key c = some id → id ∉ s.unary.pending
  batch : ∀ c e key, s.batch.phase c = .over e → s.batch.key c = some key → key ∉ s.batch.pending

/-- No call is dropped while its sender is in a map. -/
def KeepsPending (s : State) (a : Action) : Prop :=
  ∀ c, a = .call c .drop → (∀ id, s.unary.pending.lookup id ≠ some c) ∧ ∀ key,
    s.batch.pending.lookup key ≠ some c

theorem keepsSender_unary {a : Action} {act : Act RequestId Nat Agent Reply}
    (hok : KeepsPending s a) (h : a.onUnary cfg = some act) : KeepsSender s.unary act := by
  rintro c rfl
  exact (hok c (onUnary_call .drop h).1).1

theorem keepsSender_batch {a : Action} {act : Act RangeInclusive Nat Agent (Result BatchResult)}
    (hok : KeepsPending s a) (h : a.onBatch cfg = some act) : KeepsSender s.batch act := by
  rintro c rfl
  exact (hok c (onBatch_call .drop h).1).2

theorem Run.noLeak (hr : (client cfg).Run KeepsPending h s) : NoLeak s where
  unary id c hk := ⟨(Run.safe_unary hr).keyed id c hk,
    Oneshot.Run.running (Run.unary _ (fun _ _ _ => keepsSender_unary) hr) id c hk⟩
  batch key c hk := ⟨(Run.safe_batch hr).keyed key c hk,
    Oneshot.Run.running (Run.batch _ (fun _ _ _ => keepsSender_batch) hr) key c hk⟩

/-- While the ids last, nobody else has the ids of a call that is over. -/
theorem Run.cleared (hr : (client cfg).Run KeepsPending h s)
    (ht : reserved cfg h < 2 ^ 64) : Cleared s := by
  have hfresh := freshKeys hr.any ht
  constructor
  · intro c e id hc hkey hid
    obtain ⟨c', hc'⟩ := Option.isSome_iff_exists.1 (AList.lookup_isSome.2 hid)
    obtain ⟨hkey', hrun⟩ := (Run.noLeak hr).unary id c' hc'
    obtain rfl := hfresh.unary c c' id hkey hkey'
    rw [hc] at hrun; cases hrun
  · intro c e key hc hkey hid
    obtain ⟨c', hc'⟩ := Option.isSome_iff_exists.1 (AList.lookup_isSome.2 hid)
    obtain ⟨hkey', hrun⟩ := (Run.noLeak hr).batch key c' hc'
    obtain rfl := hfresh.batch c c' key hkey hkey'
    rw [hc] at hrun; cases hrun

/-- Dropping a call whose sender is in a map leaks the entry. -/
theorem keepsPending_of_noLeak {a : Action} {s' : State} (hr : (client cfg).Run Machine.always h s)
    (hs : s.step cfg a = some s') (hleak : NoLeak s') : KeepsPending s a := by
  rintro c rfl
  obtain ⟨-, hu, hb, -⟩ := step_eq_some.1 hs
  simp only [Action.onUnary, Action.onBatch, CallStep.act] at hu hb
  constructor
  · intro id hk
    have hrun := hleak.unary id c
    simp only [isRequest_of_pending hr hk, ↓reduceIte, tableStep] at hu
    generalize s'.unary = t' at hu hrun
    cases step_cases hu with
    | drop hc =>
      have hover := (hrun hk).2
      rw [setPhase_phase, Function.update_self] at hover
      cases hover
  · intro key hk
    have hrun := hleak.batch key c
    simp only [isBatch_of_pending hr hk, Bool.false_eq_true, ↓reduceIte, tableStep] at hb
    generalize s'.batch = t' at hb hrun
    cases step_cases hb with
    | drop hc =>
      have hover := (hrun hk).2
      rw [setPhase_phase, Function.update_self] at hover
      cases hover

/-- **When no entry leaks**: in just the runs in which no call is dropped while its sender is in a
map. As long as the ids last, nothing is then stored under the ids of a call that is over. -/
theorem no_leak_iff (hr : (client cfg).Run Machine.always h s) :
    ((client cfg).Run KeepsPending h s ↔
      ∀ h1 h2 s1, h = h1 ++ h2 → (client cfg).Run Machine.always h1 s1 → NoLeak s1) ∧
    ((client cfg).Run KeepsPending h s → reserved cfg h < 2 ^ 64 → Cleared s) := by
  refine ⟨⟨?_, ?_⟩, Run.cleared⟩
  · rintro hkeeps h1 h2 s1 rfl hr1
    obtain ⟨s1', hr1', -⟩ := hkeeps.split
    obtain rfl := hr1.unique hr1'
    exact Run.noLeak hr1'
  · intro hleak
    induction hr with
    | nil => exact .nil
    | snoc hr _ hs ih =>
      refine .snoc (ih fun h1 h2 s1 heq => ?_) ?_ hs
      · exact hleak h1 (h2 ++ [_]) s1 (by rw [heq, List.append_assoc])
      · exact keepsPending_of_noLeak hr hs (hleak _ [] _ (by simp) (hr.snoc trivial hs))

theorem no_leak_iff_two : ∃ s, (client twoCalls).Run KeepsPending twoReplies s ∧ Cleared s := by
  have hrun : ((client twoCalls).exec State.init twoReplies).isSome = true := by decide +kernel
  obtain ⟨s, hs⟩ := Option.isSome_iff_exists.1 hrun
  have hr := Machine.Run.of_exec hs
  have hkeeps : (client twoCalls).Run KeepsPending twoReplies s :=
    hr.restrict (by simp [twoReplies, KeepsPending])
  exact ⟨s, hkeeps, (no_leak_iff hr).2 hkeeps (by decide +kernel)⟩

/-- Two calls that are dropped while they wait. -/
def twoDropped : List Action :=
  [.reserveId 0 ⟨0⟩, .build 1 (some ⟨⟨1⟩, ⟨1⟩⟩), .call 0 .insert, .call 1 .insert, .call 0 .sendOk,
    .call 1 .sendOk,
    .call 0 .drop, .call 1 .drop]

/-- **Both calls are over, and both entries stay.** -/
theorem dropped_calls_leak : ∃ s, (client twoCalls).Run Machine.always twoDropped s ∧
    s.unary.phase 0 = .over .dropped ∧ s.unary.pending.lookup ⟨0⟩ = some 0 ∧
    s.batch.phase 1 = .over .dropped ∧ s.batch.pending.lookup ⟨⟨1⟩, ⟨1⟩⟩ = some 1 ∧ ¬ NoLeak s := by
  have hrun : ((client twoCalls).exec State.init twoDropped).any (fun s =>
      s.unary.phase 0 = .over .dropped ∧ s.unary.pending.lookup ⟨0⟩ = some 0 ∧
      s.batch.phase 1 = .over .dropped ∧
        s.batch.pending.lookup ⟨⟨1⟩, ⟨1⟩⟩ = some 1) = true := by decide +kernel
  obtain ⟨s, hs, hend⟩ := (Option.any_eq_true _ _).1 hrun
  obtain ⟨hu, hu', hb, hb'⟩ := of_decide_eq_true hend
  refine ⟨s, Machine.Run.of_exec hs, hu, hu', hb, hb', fun hleak => ?_⟩
  have hrunning := (hleak.unary _ _ hu').2
  rw [hu] at hrunning; cases hrunning

end JsonRpc.Ws
