import JsonRpcClient.Concurrent.Run

/-!
# A table of callers that wait for one answer each

Every caller makes a one-shot channel, puts its sender into a shared map under a key of its own, and
waits at the receiver. Agents take senders out of the map, one map operation at a time, and answer
on them later. A caller may also give up: its message is not sent, its time is over, or it is
abandoned where it stands; in the first two cases it removes its key, in the last nothing does.

Map operations are atomic; everything else interleaves. The results on whole runs are

* `Run.provenance`: an answer reached its caller through one `take` of the caller's own key, made
  after the caller registered and answered before it received;
* `take_once`: no sender is taken twice;
* `Run.left`: a registered caller's sender is in the map, was taken, or was dropped;
* `Run.running`: without abandoned callers, every sender in the map belongs to a caller that is
  running.
-/

namespace Oneshot
open scoped List

/-- The receiver's side of a one-shot channel. -/
inductive Chan (V : Type) where
  | empty
  | value (v : V)
  /-- the sender was dropped unused -/
  | closed
deriving DecidableEq

/-- What the receiver finds once the sender is used, or dropped. -/
def Chan.ofSent {V : Type} : Option V → Chan V
  | some v => .value v
  | none => .closed

/-- How a call ended. -/
inductive Exit (V : Type) where
  /-- before it registered -/
  | early
  | sendFailed
  | timedOut
  | dropped
  | received (v : V)
  | disconnected
deriving DecidableEq

/-- Where a call stands. -/
inductive Phase (V : Type) where
  | fresh
  /-- has its key -/
  | ready
  /-- registered, and sending its message -/
  | sending
  /-- the message was refused; the key is still to be removed -/
  | failed
  /-- waits at the receiver -/
  | waiting
  /-- the time is over; the key is still to be removed -/
  | expired
  | over (e : Exit V)
deriving DecidableEq

/-- Registered and not over. -/
def Phase.running {V : Type} : Phase V → Bool
  | sending | failed | waiting | expired => true
  | _ => false

structure Table (K C A V : Type) where
  /-- whose sender is stored under a key -/
  pending : AList fun _ : K => C
  key : C → Option K
  phase : C → Phase V
  chan : C → Chan V
  /-- the sender an agent has taken, and what it is going to send: `none` drops the sender -/
  hand : A → Option (C × Option V)

inductive Act (K C A V : Type) where
  | prepare (c : C) (k : K)
  | abort (c : C)
  | register (c : C)
  | sendOk (c : C)
  | sendErr (c : C)
  | expire (c : C)
  | unregister (c : C)
  | receive (c : C)
  | drop (c : C)
  | take (a : A) (k : K) (v : Option V)
  | finish (a : A)

variable {K C A V : Type}

def Table.init : Table K C A V :=
  ⟨∅, fun _ => none, fun _ => .fresh, fun _ => .empty, fun _ => none⟩

/-! ## One call's phase -/

section Phase
variable [DecidableEq C]

def Table.setPhase (t : Table K C A V) (c : C) (p : Phase V) : Table K C A V :=
  { t with phase := Function.update t.phase c p }

section Frame
variable (t : Table K C A V) (c : C) (p : Phase V)

@[simp] theorem setPhase_pending : (t.setPhase c p).pending = t.pending := rfl
@[simp] theorem setPhase_key : (t.setPhase c p).key = t.key := rfl
@[simp] theorem setPhase_chan : (t.setPhase c p).chan = t.chan := rfl
@[simp] theorem setPhase_hand : (t.setPhase c p).hand = t.hand := rfl
@[simp] theorem setPhase_phase : (t.setPhase c p).phase = Function.update t.phase c p := rfl

end Frame

theorem update_phase_cases {t : Table K C A V} {c c' : C} {p q : Phase V}
    (h : Function.update t.phase c p c' = q) : (c' = c ∧ p = q) ∨ t.phase c' = q := by
  by_cases hc : c' = c
  · subst hc; rw [Function.update_self] at h; exact .inl ⟨rfl, h⟩
  · rw [Function.update_of_ne hc] at h; exact .inr h

theorem update_phase_received {t : Table K C A V} {c c' : C} {p : Phase V} {v : V}
    (hp : p ≠ .over (.received v)) (h : Function.update t.phase c p c' = .over (.received v)) :
    t.phase c' = .over (.received v) := by
  by_cases hc : c' = c
  · subst hc; rw [Function.update_self] at h; exact absurd h hp
  · rwa [Function.update_of_ne hc] at h

end Phase

/-! ## The senders in the map -/

section Map
variable [DecidableEq K]

theorem lookup_insert_cases {m : AList fun _ : K => C} {k k' : K} {c c' : C}
    (h : (m.insert k c).lookup k' = some c') : (k' = k ∧ c' = c) ∨
    (k' ≠ k ∧ m.lookup k' = some c') := by
  by_cases hk : k' = k
  · subst hk; rw [AList.lookup_insert] at h; exact .inl ⟨rfl, (Option.some.inj h).symm⟩
  · rw [AList.lookup_insert_ne hk] at h; exact .inr ⟨hk, h⟩

theorem lookup_erase_cases {m : AList fun _ : K => C} {k k' : K} {c' : C}
    (h : (m.erase k).lookup k' = some c') : k' ≠ k ∧ m.lookup k' = some c' := by
  by_cases hk : k' = k
  · subst hk; rw [AList.lookup_erase] at h; cases h
  · rw [AList.lookup_erase_ne hk] at h; exact ⟨hk, h⟩

variable [DecidableEq C]

namespace Table

/-- The sender stored under `k`, if any, is dropped. -/
def dropSender (t : Table K C A V) (k : K) : Table K C A V :=
  match t.pending.lookup k with
  | some c => { t with chan := Function.update t.chan c .closed }
  | none => t

/-- `map.insert(k, tx)`: a sender stored there before is dropped. -/
def insert (t : Table K C A V) (k : K) (c : C) : Table K C A V :=
  { t.dropSender k with pending := t.pending.insert k c }

/-- `map.remove(&k)`, the result being dropped. -/
def remove (t : Table K C A V) (k : K) : Table K C A V :=
  { t.dropSender k with pending := t.pending.erase k }

end Table

section Frame
variable (t : Table K C A V) (c : C) (k : K)

@[simp] theorem dropSender_pending : (t.dropSender k).pending = t.pending := by
  unfold Table.dropSender; split <;> rfl
@[simp] theorem dropSender_key : (t.dropSender k).key = t.key := by
  unfold Table.dropSender; split <;> rfl
@[simp] theorem dropSender_phase : (t.dropSender k).phase = t.phase := by
  unfold Table.dropSender; split <;> rfl
@[simp] theorem dropSender_hand : (t.dropSender k).hand = t.hand := by
  unfold Table.dropSender; split <;> rfl
@[simp] theorem insert_pending : (t.insert k c).pending = t.pending.insert k c := rfl
@[simp] theorem insert_key : (t.insert k c).key = t.key := dropSender_key t k
@[simp] theorem insert_phase : (t.insert k c).phase = t.phase := dropSender_phase t k
@[simp] theorem insert_hand : (t.insert k c).hand = t.hand := dropSender_hand t k
@[simp] theorem remove_pending : (t.remove k).pending = t.pending.erase k := rfl
@[simp] theorem remove_key : (t.remove k).key = t.key := dropSender_key t k
@[simp] theorem remove_phase : (t.remove k).phase = t.phase := dropSender_phase t k
@[simp] theorem remove_hand : (t.remove k).hand = t.hand := dropSender_hand t k

/-- A channel changes only if its own sender was stored under the key. -/
theorem dropSender_chan (h : t.pending.lookup k ≠ some c) : (t.dropSender k).chan c = t.chan c := by
  unfold Table.dropSender
  split
  · rename_i c' hc'
    have hne : c ≠ c' := fun e => h (e ▸ hc')
    exact Function.update_of_ne hne ..
  · rfl

/-- Dropping a sender never puts a value into a channel. -/
theorem dropSender_value {v : V} (h : (t.dropSender k).chan c = .value v) :
    t.chan c = .value v := by
  unfold Table.dropSender at h
  split at h
  · rename_i c' _
    by_cases hc : c = c'
    · subst hc; simp at h
    · simpa [Function.update_of_ne hc] using h
  · exact h

end Frame

theorem dropSender_closed {t : Table K C A V} {c : C} {k : K} (h : t.pending.lookup k = some c) :
    (t.dropSender k).chan c = .closed := by
  simp only [Table.dropSender, h, Function.update_self]

end Map

/-! ## The steps -/

section Steps

/-- What a call that gives up returns. -/
def Table.givesUp : Phase V → Option (Exit V)
  | .failed => some .sendFailed
  | .expired => some .timedOut
  | _ => none

variable [DecidableEq K] [DecidableEq C] [DecidableEq A]

def Table.step (t : Table K C A V) : Act K C A V → Option (Table K C A V)
  | .prepare c k =>
    match t.phase c with
    | .fresh => some { t.setPhase c .ready with key := Function.update t.key c (some k) }
    | _ => none
  | .abort c =>
    match t.phase c with
    | .fresh => some (t.setPhase c (.over .early))
    | _ => none
  | .register c =>
    match t.phase c, t.key c with
    | .ready, some k => some ((t.insert k c).setPhase c .sending)
    | _, _ => none
  | .sendOk c =>
    match t.phase c with
    | .sending => some (t.setPhase c .waiting)
    | _ => none
  | .sendErr c =>
    match t.phase c with
    | .sending => some (t.setPhase c .failed)
    | _ => none
  | .expire c =>
    match t.phase c, t.chan c with
    | .waiting, .empty => some (t.setPhase c .expired)
    | _, _ => none
  | .unregister c =>
    match givesUp (t.phase c), t.key c with
    | some e, some k => some ((t.remove k).setPhase c (.over e))
    | _, _ => none
  | .receive c =>
    match t.phase c, t.chan c with
    | .waiting, .value v => some (t.setPhase c (.over (.received v)))
    | .waiting, .closed => some (t.setPhase c (.over .disconnected))
    | _, _ => none
  | .drop c =>
    match t.phase c with
    | .sending => some (t.setPhase c (.over .dropped))
    | .waiting => some (t.setPhase c (.over .dropped))
    | _ => none
  | .take a k v =>
    match t.hand a, t.pending.lookup k with
    | none, some c =>
      some { t with pending := t.pending.erase k, hand := Function.update t.hand a (some (c, v)) }
    | none, none => some t
    | some _, _ => none
  | .finish a =>
    match t.hand a with
    | some (c, v) => some { t with
        chan := Function.update t.chan c (.ofSent v), hand := Function.update t.hand a none }
    | none => none

def machine : Machine (Table K C A V) (Act K C A V) := ⟨.init, Table.step⟩

/-! ## What a step can do -/

/-- `step` as a relation, one constructor for each way a step can go. -/
inductive Step : Table K C A V → Act K C A V → Table K C A V → Prop
  | prepare {t c k} (h : t.phase c = .fresh) :
      Step t (.prepare c k) { t.setPhase c .ready with key := Function.update t.key c (some k) }
  | abort {t c} (h : t.phase c = .fresh) : Step t (.abort c) (t.setPhase c (.over .early))
  | register {t c k} (h : t.phase c = .ready) (hk : t.key c = some k) :
      Step t (.register c) ((t.insert k c).setPhase c .sending)
  | sendOk {t c} (h : t.phase c = .sending) : Step t (.sendOk c) (t.setPhase c .waiting)
  | sendErr {t c} (h : t.phase c = .sending) : Step t (.sendErr c) (t.setPhase c .failed)
  | expire {t c} (h : t.phase c = .waiting) (hc : t.chan c = .empty) : Step t (.expire c)
      (t.setPhase c .expired)
  | unregister {t c e k} (h : Table.givesUp (t.phase c) = some e) (hk : t.key c = some k) :
      Step t (.unregister c) ((t.remove k).setPhase c (.over e))
  | receive {t c v} (h : t.phase c = .waiting) (hc : t.chan c = .value v) :
      Step t (.receive c) (t.setPhase c (.over (.received v)))
  | disconnect {t c} (h : t.phase c = .waiting) (hc : t.chan c = .closed) :
      Step t (.receive c) (t.setPhase c (.over .disconnected))
  | drop {t c} (h : t.phase c = .sending ∨ t.phase c = .waiting) : Step t (.drop c)
      (t.setPhase c (.over .dropped))
  | take {t a k v c} (h : t.hand a = none) (hk : t.pending.lookup k = some c) :
      Step t (.take a k v)
        { t with pending := t.pending.erase k, hand := Function.update t.hand a (some (c, v)) }
  | miss {t a k v} (h : t.hand a = none) (hk : t.pending.lookup k = none) : Step t (.take a k v) t
  | finish {t a c v} (h : t.hand a = some (c, v)) :
      Step t (.finish a) { t with
        chan := Function.update t.chan c (.ofSent v), hand := Function.update t.hand a none }

theorem step_cases {t t' : Table K C A V} {act : Act K C A V}
    (h : t.step act = some t') : Step t act t' := by
  cases act with
  | prepare c k => simp only [Table.step] at h; split at h <;> cases h; exact .prepare ‹_›
  | abort c => simp only [Table.step] at h; split at h <;> cases h; exact .abort ‹_›
  | register c => simp only [Table.step] at h; split at h <;> cases h; exact .register ‹_› ‹_›
  | sendOk c => simp only [Table.step] at h; split at h <;> cases h; exact .sendOk ‹_›
  | sendErr c => simp only [Table.step] at h; split at h <;> cases h; exact .sendErr ‹_›
  | expire c => simp only [Table.step] at h; split at h <;> cases h; exact .expire ‹_› ‹_›
  | unregister c => simp only [Table.step] at h; split at h <;> cases h; exact .unregister ‹_› ‹_›
  | receive c =>
    simp only [Table.step] at h
    split at h <;> cases h
    · exact .receive ‹_› ‹_›
    · exact .disconnect ‹_› ‹_›
  | drop c =>
    simp only [Table.step] at h
    split at h <;> cases h
    · exact .drop (.inl ‹_›)
    · exact .drop (.inr ‹_›)
  | take a k v =>
    simp only [Table.step] at h
    split at h <;> cases h
    · exact .take ‹_› ‹_›
    · exact .miss ‹_› ‹_›
  | finish a => simp only [Table.step] at h; split at h <;> cases h; exact .finish ‹_›

/-- **Only `register` puts a sender into the map**, and it puts its own under its own key. -/
theorem step_pending {t t' : Table K C A V} {act : Act K C A V} (h : Step t act t') {k : K} {c : C}
    (hk : t'.pending.lookup k = some c) :
    t.pending.lookup k = some c ∨ (act = .register c ∧ t.phase c = .ready ∧ t.key c = some k) := by
  cases h with
  | register hp hkey =>
    rcases lookup_insert_cases (by simpa using hk) with ⟨rfl, rfl⟩ | ⟨-, h⟩
    · exact .inr ⟨rfl, hp, hkey⟩
    · exact .inl h
  | unregister => exact .inl (lookup_erase_cases (by simpa using hk)).2
  | take => exact .inl (lookup_erase_cases hk).2
  | _ => exact .inl hk

/-- **Only `take` puts a sender into an agent's hand.** -/
theorem step_hand {t t' : Table K C A V} {act : Act K C A V} (h : Step t act t') {a : A}
    {x : C × Option V} (hx : t'.hand a = some x) :
    t.hand a = some x ∨ ∃ k, act = .take a k x.2 ∧ t.pending.lookup k = some x.1 := by
  cases h with
  | @take b k v c _ hk =>
    by_cases hb : a = b
    · subst hb
      simp only [Function.update_self] at hx
      cases hx
      exact .inr ⟨k, rfl, hk⟩
    · simp only [Function.update_of_ne hb] at hx
      exact .inl hx
  | @finish b c v _ =>
    by_cases hb : a = b
    · subst hb; simp at hx
    · simp only [Function.update_of_ne hb] at hx
      exact .inl hx
  | _ => exact .inl (by simpa using hx)

end Steps

/-! ## The invariant -/

section Safe
variable [DecidableEq K]

/-- Each sender is in at most one place: unused with its own caller, in the map, in one agent's
hand, or used up. -/
structure Safe (t : Table K C A V) : Prop where
  /-- a sender in the map is stored under its caller's key … -/
  keyed : ∀ k c, t.pending.lookup k = some c → t.key c = some k
  /-- … and has not been used -/
  unused : ∀ k c, t.pending.lookup k = some c → t.chan c = .empty
  /-- a sender that was taken is not in the map … -/
  gone : ∀ a c v, t.hand a = some (c, v) → ∀ k, t.pending.lookup k ≠ some c
  /-- … nor used yet … -/
  held : ∀ a c v, t.hand a = some (c, v) → t.chan c = .empty
  /-- … nor taken by another agent -/
  single : ∀ a b c v w, t.hand a = some (c, v) → t.hand b = some (c, w) → a = b
  /-- a caller that has not registered still has its sender -/
  own : ∀ c, t.phase c = .fresh ∨ t.phase c = .ready →
    (∀ k, t.pending.lookup k ≠ some c) ∧ (∀ a v, t.hand a ≠ some (c, v)) ∧ t.chan c = .empty
  /-- callers get their keys in order -/
  keyless : ∀ c, t.phase c = .fresh → t.key c = none

theorem safe_init : Safe (Table.init : Table K C A V) := by
  constructor <;> simp [Table.init]

/-- `c` has registered. -/
def Registered (t : Table K C A V) (c : C) : Prop := t.phase c ≠ .fresh ∧ t.phase c ≠ .ready

/-- A sender in the map has been registered. -/
theorem Safe.registered {t : Table K C A V} (h : Safe t) {k : K} {c : C}
    (hk : t.pending.lookup k = some c) : Registered t c :=
  ⟨fun hc => (h.own c (.inl hc)).1 k hk, fun hc => (h.own c (.inr hc)).1 k hk⟩

theorem Safe.take [DecidableEq A] {t : Table K C A V} (h : Safe t) {a : A} {k : K} {v : Option V}
    {c : C} (ha : t.hand a = none) (hk : t.pending.lookup k = some c) :
    Safe
      { t with pending := t.pending.erase k, hand := Function.update t.hand a (some (c, v)) } := by
  have hgone : ∀ k', (t.pending.erase k).lookup k' ≠ some c := fun k' hk' => by
    obtain ⟨hne, hk'⟩ := lookup_erase_cases hk'
    exact hne (Option.some.inj ((h.keyed _ _ hk').symm.trans (h.keyed _ _ hk)))
  have hhand : ∀ b c' w, Function.update t.hand a (some (c, v)) b = some (c', w) →
      (b = a ∧ c' = c) ∨ (b ≠ a ∧ t.hand b = some (c', w)) := by
    intro b c' w hb
    by_cases hba : b = a
    · subst hba
      rw [Function.update_self] at hb
      cases hb
      exact .inl ⟨rfl, rfl⟩
    · rw [Function.update_of_ne hba] at hb; exact .inr ⟨hba, hb⟩
  constructor
  · exact fun k' c' hk' => h.keyed k' c' (lookup_erase_cases hk').2
  · exact fun k' c' hk' => h.unused k' c' (lookup_erase_cases hk').2
  · intro b c' w hb k' hk'
    rcases hhand b c' w hb with ⟨-, rfl⟩ | ⟨-, hb'⟩
    · exact hgone k' hk'
    · exact h.gone b c' w hb' k' (lookup_erase_cases hk').2
  · intro b c' w hb
    rcases hhand b c' w hb with ⟨-, rfl⟩ | ⟨-, hb'⟩
    · exact h.unused k c' hk
    · exact h.held b c' w hb'
  · intro b b' c' w w' hb hb'
    rcases hhand b c' w hb with ⟨rfl, rfl⟩ | ⟨-, h1⟩
    · rcases hhand b' c' w' hb' with ⟨rfl, -⟩ | ⟨-, h2⟩
      · rfl
      · exact absurd hk (h.gone b' c' w' h2 k)
    · rcases hhand b' c' w' hb' with ⟨-, rfl⟩ | ⟨-, h2⟩
      · exact absurd hk (h.gone b c' w h1 k)
      · exact h.single b b' c' w w' h1 h2
  · intro c' hc'
    obtain ⟨h1, h2, h3⟩ := h.own c' hc'
    refine ⟨fun k' hk' => h1 k' (lookup_erase_cases hk').2, fun b w hb => ?_, h3⟩
    rcases hhand b c' w hb with ⟨-, rfl⟩ | ⟨-, hb'⟩
    · exact h1 k hk
    · exact h2 b w hb'
  · exact h.keyless

variable [DecidableEq C]

/-- A call whose phase alone changes, from one after registration. -/
theorem Safe.setPhase {t : Table K C A V} (h : Safe t) {c : C} {p : Phase V}
    (hp : p ≠ .fresh ∧ p ≠ .ready ∨ p = .ready ∧ t.phase c = .fresh) : Safe (t.setPhase c p) where
  keyed := h.keyed
  unused := h.unused
  gone := h.gone
  held := h.held
  single := h.single
  own c' hc' := by
    by_cases hc : c' = c
    · subst hc
      simp only [setPhase_phase, Function.update_self] at hc'
      rcases hp with hp | ⟨rfl, hp⟩
      · rcases hc' with rfl | rfl <;> simp at hp
      · exact h.own c' (.inl hp)
    · simp only [setPhase_phase, Function.update_of_ne hc] at hc'
      exact h.own c' hc'
  keyless c' hc' := by
    by_cases hc : c' = c
    · subst hc
      simp only [setPhase_phase, Function.update_self] at hc'
      rcases hp with hp | ⟨rfl, hp⟩
      · exact absurd hc' hp.1
      · cases hc'
    · simp only [setPhase_phase, Function.update_of_ne hc] at hc'
      exact h.keyless c' hc'

theorem Safe.remove {t : Table K C A V} (h : Safe t) (k : K) : Safe (t.remove k) where
  keyed k' c' hk := by
    obtain ⟨-, hk⟩ := lookup_erase_cases hk
    simpa using h.keyed k' c' hk
  unused k' c' hk := by
    obtain ⟨hne, hk⟩ := lookup_erase_cases hk
    have hother : t.pending.lookup k ≠ some c' := fun hk' =>
      hne (Option.some.inj ((h.keyed _ _ hk).symm.trans (h.keyed _ _ hk')))
    exact (dropSender_chan t c' k hother).trans (h.unused k' c' hk)
  gone a c v ha k' hk := h.gone a c v (by simpa using ha) k' (lookup_erase_cases hk).2
  held a c v ha := by
    have ha : t.hand a = some (c, v) := by simpa using ha
    exact (dropSender_chan t c k (h.gone a c v ha k)).trans (h.held a c v ha)
  single a b c v w ha hb := h.single a b c v w (by simpa using ha) (by simpa using hb)
  own c hc := by
    obtain ⟨h1, h2, h3⟩ := h.own c (by simpa using hc)
    refine ⟨fun k' hk => h1 k' (lookup_erase_cases hk).2, by simpa using h2, ?_⟩
    exact (dropSender_chan t c k (h1 k)).trans h3
  keyless c hc := by simpa using h.keyless c (by simpa using hc)

theorem Safe.register {t : Table K C A V} (h : Safe t) {c : C} {k : K} (hc : t.phase c = .ready)
    (hk : t.key c = some k) : Safe ((t.insert k c).setPhase c .sending) := by
  obtain ⟨hc1, hc2, hc3⟩ := h.own c (.inr hc)
  have hchan : ∀ c', t.pending.lookup k ≠ some c' → (t.insert k c).chan c' = t.chan c' :=
    fun c' hc' =>
    dropSender_chan t c' k hc'
  -- the caller's own sender is the only new entry
  have hother : ∀ k' c', t.pending.lookup k' = some c' → k' ≠ k → t.pending.lookup k ≠ some c' :=
    fun k' c' hk' hne hk'' =>
      hne (Option.some.inj ((h.keyed _ _ hk').symm.trans (h.keyed _ _ hk'')))
  constructor
  · intro k' c' hk'
    rcases lookup_insert_cases hk' with ⟨rfl, rfl⟩ | ⟨-, hk'⟩
    · simpa using hk
    · simpa using h.keyed k' c' hk'
  · intro k' c' hk'
    rcases lookup_insert_cases hk' with ⟨rfl, rfl⟩ | ⟨hne, hk'⟩
    · exact (hchan c' (hc1 k')).trans hc3
    · exact (hchan c' (hother k' c' hk' hne)).trans (h.unused k' c' hk')
  · intro a c' v ha k' hk'
    have ha' : t.hand a = some (c', v) := by simpa using ha
    rcases lookup_insert_cases hk' with ⟨-, rfl⟩ | ⟨-, hk'⟩
    · exact hc2 a v ha'
    · exact h.gone a c' v ha' k' hk'
  · intro a c' v ha
    have ha : t.hand a = some (c', v) := by simpa using ha
    exact (hchan c' (h.gone a c' v ha k)).trans (h.held a c' v ha)
  · intro a b c' v w ha hb
    exact h.single a b c' v w (by simpa using ha) (by simpa using hb)
  · intro c' hc'
    by_cases he : c' = c
    · subst he; simp at hc'
    · simp only [setPhase_phase, Function.update_of_ne he, insert_phase] at hc'
      obtain ⟨h1, h2, h3⟩ := h.own c' hc'
      refine ⟨fun k' hk' => ?_, by simpa using h2, (hchan c' (h1 k)).trans h3⟩
      rcases lookup_insert_cases hk' with ⟨-, rfl⟩ | ⟨-, hk'⟩
      · exact he rfl
      · exact h1 k' hk'
  · intro c' hc'
    by_cases he : c' = c
    · subst he; simp at hc'
    · simp only [setPhase_phase, Function.update_of_ne he, insert_phase] at hc'
      simpa using h.keyless c' hc'

end Safe

variable [DecidableEq K] [DecidableEq C] [DecidableEq A]

theorem Safe.finish {t : Table K C A V} (h : Safe t) {a : A} {c : C} {v : Option V}
    (ha : t.hand a = some (c, v)) :
    Safe
      { t with chan := Function.update t.chan c (.ofSent v), hand := Function.update t.hand a none } := by
  have hgone := h.gone a c v ha
  have hchan : ∀ c', c' ≠ c → Function.update t.chan c (.ofSent v) c' = t.chan c' := fun c' hc' =>
    Function.update_of_ne hc' ..
  have hhand : ∀ b c' w, Function.update t.hand a none b = some (c', w) → b ≠ a ∧
      t.hand b = some (c', w) := by
    intro b c' w hb
    by_cases hba : b = a
    · subst hba; simp at hb
    · rw [Function.update_of_ne hba] at hb; exact ⟨hba, hb⟩
  constructor
  · exact h.keyed
  · intro k' c' hk'
    exact (hchan c' fun he => hgone k' (he ▸ hk')).trans (h.unused k' c' hk')
  · exact fun b c' w hb => h.gone b c' w (hhand b c' w hb).2
  · intro b c' w hb
    obtain ⟨hba, hb⟩ := hhand b c' w hb
    exact (hchan c' fun he => hba (h.single b a c w v (he ▸ hb) ha)).trans (h.held b c' w hb)
  · exact fun b b' c' w w' hb hb' => h.single b b' c' w w' (hhand b c' w hb).2
      (hhand b' c' w' hb').2
  · intro c' hc'
    obtain ⟨h1, h2, h3⟩ := h.own c' hc'
    exact ⟨h1, fun b w hb => h2 b w (hhand b c' w hb).2,
      (hchan c' fun he => h2 a v (he ▸ ha)).trans h3⟩
  · exact h.keyless

theorem Safe.step {t t' : Table K C A V} {act : Act K C A V} (h : Safe t)
    (hs : Step t act t') : Safe t' := by
  cases hs with
  | prepare hc =>
    rename_i c k
    have hset := h.setPhase (c := c) (p := .ready) (.inr ⟨rfl, hc⟩)
    refine ⟨fun k' c' hk' => ?_, hset.unused, hset.gone, hset.held, hset.single, hset.own,
      fun c' hc' => ?_⟩
    · have hne : c' ≠ c := fun he => (h.own c (.inl hc)).1 k' (he ▸ hk')
      simpa [Function.update_of_ne hne] using h.keyed k' c' hk'
    · by_cases he : c' = c
      · subst he; simp at hc'
      · simp only [setPhase_phase, Function.update_of_ne he] at hc'
        simpa [Function.update_of_ne he] using h.keyless c' hc'
  | abort hc => exact h.setPhase (.inl (by simp))
  | register hc hk => exact h.register hc hk
  | sendOk hc => exact h.setPhase (.inl (by simp))
  | sendErr hc => exact h.setPhase (.inl (by simp))
  | expire hc _ => exact h.setPhase (.inl (by simp))
  | unregister _ _ => exact (h.remove _).setPhase (.inl (by simp))
  | receive hc _ => exact h.setPhase (.inl (by simp))
  | disconnect hc _ => exact h.setPhase (.inl (by simp))
  | drop _ => exact h.setPhase (.inl (by simp))
  | take ha hk => exact h.take ha hk
  | miss => exact h
  | finish ha => exact h.finish ha

variable {ok : Table K C A V → Act K C A V → Prop} {hist : List (Act K C A V)} {t : Table K C A V}

theorem Run.safe (hr : machine.Run ok hist t) : Safe t :=
  Machine.Run.invariant (P := fun _ t => Safe t) safe_init
    (fun _ _ _ _ _ h _ hs => h.step (step_cases hs)) hr

/-- A call keeps the key it got. -/
theorem step_key {t t' : Table K C A V} {act : Act K C A V} {c : C} {k : K} (h : Safe t)
    (hs : Step t act t') (hk : t.key c = some k) : t'.key c = some k := by
  cases hs with
  | prepare hc =>
    rename_i c' k'
    have hne : c ≠ c' := by
      rintro rfl
      rw [h.keyless c hc] at hk; cases hk
    simpa [Function.update_of_ne hne] using hk
  | _ => simpa using hk

theorem Run.key {h1 h2 : List (Act K C A V)} {t1 : Table K C A V} {c : C} {k : K}
    (hr : machine.Run ok (h1 ++ h2) t) (hr1 : machine.Run ok h1 t1) (hk : t1.key c = some k) :
    t.key c = some k :=
  hr.segment (P := fun t => t.key c = some k) hr1 hk fun _ _ _ _ _ hr2 hk hs =>
    step_key (Run.safe hr2) (step_cases hs) hk

/-- No two callers have the same key. -/
def Table.FreshKeys (t : Table K C A V) : Prop :=
  ∀ c c' k, t.key c = some k → t.key c' = some k → c = c'

/-! ## Where an answer comes from -/

/-- After the history `h`, the sender stored under `k` is `c`'s. -/
def Stored (ok : Table K C A V → Act K C A V → Prop) (h : List (Act K C A V)) (k : K)
    (c : C) : Prop :=
  ∃ t, machine.Run ok h t ∧ t.pending.lookup k = some c

/-- What the history says about the present places of the senders and values. -/
structure Provenance (ok : Table K C A V → Act K C A V → Prop) (h : List (Act K C A V))
    (t : Table K C A V) : Prop where
  prepared : ∀ c k, t.key c = some k → [.prepare c k] <+ h
  mapped : ∀ k c, t.pending.lookup k = some c → [.prepare c k, .register c] <+ h
  held : ∀ a c v, t.hand a = some (c, v) → ∃ k h1 h2, h = h1 ++ .take a k v :: h2 ∧ Stored ok h1 k c
  delivered : ∀ c v, t.chan c = .value v → ∃ a k h1 h2, h = h1 ++ .take a k (some v) :: h2 ∧
    Stored ok h1 k c ∧ [.finish a] <+ h2
  received : ∀ c v, t.phase c = .over (.received v) → ∃ a k h1 h2,
    h = h1 ++ .take a k (some v) :: h2 ∧
    Stored ok h1 k c ∧ [.finish a, .receive c] <+ h2

/-- A step that leaves the places of senders and values alone, or empties some. -/
theorem Provenance.frame {h : List (Act K C A V)} {t t' : Table K C A V} {act : Act K C A V}
    (hp : Provenance ok h t) (hkey : ∀ c k, t'.key c = some k → t.key c = some k)
    (hmap : ∀ k c, t'.pending.lookup k = some c → t.pending.lookup k = some c)
    (hhand : ∀ a c v, t'.hand a = some (c, v) → t.hand a = some (c, v))
    (hchan : ∀ c v, t'.chan c = .value v → t.chan c = .value v)
    (hphase : ∀ c v, t'.phase c = .over (.received v) → t.phase c = .over (.received v)) :
    Provenance ok (h ++ [act]) t' where
  prepared c k hk := (hp.prepared c k (hkey c k hk)).trans (List.sublist_append_left h _)
  mapped k c hk := (hp.mapped k c (hmap k c hk)).trans (List.sublist_append_left h _)
  held a c v ha := by
    obtain ⟨k, h1, h2, rfl, hs⟩ := hp.held a c v (hhand a c v ha)
    exact ⟨k, h1, h2 ++ [act], by simp, hs⟩
  delivered c v hc := by
    obtain ⟨a, k, h1, h2, rfl, hs, hl⟩ := hp.delivered c v (hchan c v hc)
    exact ⟨a, k, h1, h2 ++ [act], by simp, hs, hl.trans (List.sublist_append_left h2 _)⟩
  received c v hc := by
    obtain ⟨a, k, h1, h2, rfl, hs, hl⟩ := hp.received c v (hphase c v hc)
    exact ⟨a, k, h1, h2 ++ [act], by simp, hs, hl.trans (List.sublist_append_left h2 _)⟩

theorem Provenance.step {h : List (Act K C A V)} {t t' : Table K C A V} {act : Act K C A V}
    (hr : machine.Run ok h t) (hp : Provenance ok h t) (hs : Step t act t') :
    Provenance ok (h ++ [act]) t' := by
  have hsafe := Run.safe hr
  cases hs with
  | prepare hc =>
    rename_i c k
    have hf : Provenance ok (h ++ [.prepare c k]) (t.setPhase c .ready) :=
      hp.frame (fun _ _ h => h) (fun _ _ h => h) (fun _ _ _ h => h) (fun _ _ h => h)
        (fun _ _ => update_phase_received (by simp))
    refine ⟨fun c' k' hk' => ?_, hf.mapped, hf.held, hf.delivered, hf.received⟩
    by_cases he : c' = c
    · subst he
      simp only [Function.update_self, Option.some.injEq] at hk'
      subst hk'
      exact List.sublist_append_right h _
    · exact hf.prepared c' k' (by simpa [Function.update_of_ne he] using hk')
  | abort =>
    exact hp.frame (by simp) (by simp) (by simp) (by simp)
      (fun _ _ => update_phase_received (by simp))
  | register hc hk =>
    rename_i c k
    have hstored := hp.prepared c k hk
    have hf : Provenance ok (h ++ [.register c]) ((t.dropSender k).setPhase c .sending) :=
      hp.frame (by simp) (by simp) (by simp) (fun _ _ hv => dropSender_value _ _ _ hv)
        (fun _ _ hv => by simpa using update_phase_received (by simp) hv)
    refine ⟨hf.prepared, fun k' c' hk' => ?_, hf.held, hf.delivered, hf.received⟩
    rcases lookup_insert_cases hk' with ⟨rfl, rfl⟩ | ⟨-, hk'⟩
    · exact hstored.append (List.Sublist.refl [Act.register c'])
    · exact (hp.mapped k' c' hk').trans (List.sublist_append_left h _)
  | sendOk =>
    exact hp.frame (by simp) (by simp) (by simp) (by simp)
      (fun _ _ => update_phase_received (by simp))
  | sendErr =>
    exact hp.frame (by simp) (by simp) (by simp) (by simp)
      (fun _ _ => update_phase_received (by simp))
  | expire =>
    exact hp.frame (by simp) (by simp) (by simp) (by simp)
      (fun _ _ => update_phase_received (by simp))
  | unregister he hk =>
    rename_i c e k
    refine hp.frame (by simp) (fun _ _ hk' => (lookup_erase_cases (by simpa using hk')).2) (by simp)
      (fun _ _ hv => dropSender_value _ _ _ hv) (fun _ v hv => ?_)
    simp only [setPhase_phase, remove_phase] at hv
    refine update_phase_received (fun heq => ?_) hv
    rw [Phase.over.injEq] at heq
    subst heq
    unfold Table.givesUp at he
    split at he <;> cases he
  | receive hc hv =>
    rename_i c v
    have hf : Provenance ok (h ++ [.receive c]) t :=
      hp.frame (fun _ _ h => h) (fun _ _ h => h) (fun _ _ _ h => h) (fun _ _ h => h)
        (fun _ _ h => h)
    refine ⟨hf.prepared, hf.mapped, hf.held, hf.delivered, fun c' w hw => ?_⟩
    by_cases he : c' = c
    · subst he
      simp only [setPhase_phase, Function.update_self, Phase.over.injEq, Exit.received.injEq] at hw
      subst hw
      obtain ⟨a, k, h1, h2, rfl, hst, hl⟩ := hp.delivered c' v hv
      exact ⟨a, k, h1, h2 ++ [.receive c'], by simp, hst,
        hl.append (List.Sublist.refl [Act.receive c'])⟩
    · exact hf.received c' w (by simpa [Function.update_of_ne he] using hw)
  | disconnect =>
    exact hp.frame (by simp) (by simp) (by simp) (by simp)
      (fun _ _ => update_phase_received (by simp))
  | drop =>
    exact hp.frame (by simp) (by simp) (by simp) (by simp)
      (fun _ _ => update_phase_received (by simp))
  | take ha hk =>
    rename_i a k v c
    have hf : Provenance ok (h ++ [.take a k v]) { t with pending := t.pending.erase k } :=
      hp.frame (fun _ _ h => h) (fun _ _ hk' => (lookup_erase_cases hk').2) (fun _ _ _ h => h)
        (fun _ _ h => h) (fun _ _ h => h)
    refine ⟨hf.prepared, hf.mapped, fun b c' w hb => ?_, hf.delivered, hf.received⟩
    by_cases he : b = a
    · subst he
      simp only [Function.update_self, Option.some.injEq, Prod.mk.injEq] at hb
      obtain ⟨rfl, rfl⟩ := hb
      exact ⟨k, h, [], rfl, t, hr, hk⟩
    · exact hf.held b c' w (by simpa [Function.update_of_ne he] using hb)
  | miss => exact hp.frame (by simp) (by simp) (by simp) (by simp) (by simp)
  | finish ha =>
    rename_i a c v
    have hf : Provenance ok (h ++ [.finish a]) { t with hand := Function.update t.hand a none } :=
      hp.frame (fun _ _ h => h) (fun _ _ h => h) (fun b c' w hb => ?_) (fun _ _ h => h)
        (fun _ _ h => h)
    · refine ⟨hf.prepared, hf.mapped, hf.held, fun c' w hw => ?_, hf.received⟩
      by_cases he : c' = c
      · subst he
        simp only [Function.update_self] at hw
        cases v with
        | none => cases hw
        | some u =>
          cases hw
          obtain ⟨k, h1, h2, rfl, hst⟩ := hp.held a c' _ ha
          exact ⟨a, k, h1, h2 ++ [.finish a], by simp, hst, List.sublist_append_right h2 _⟩
      · exact hf.delivered c' w (by simpa [Function.update_of_ne he] using hw)
    · by_cases he : b = a
      · subst he; simp at hb
      · simpa [Function.update_of_ne he] using hb

theorem Run.provenanceInv (hr : machine.Run ok hist t) : Provenance ok hist t := by
  refine Machine.Run.invariant (P := Provenance ok) ?_
    (fun _ _ _ _ hr h _ hs => h.step hr (step_cases hs)) hr
  constructor <;> simp [machine, Table.init]

/-- The run determines its table, so the sender is in the map of every run with this history. -/
theorem Stored.lookup {h : List (Act K C A V)} {k : K} {c : C} (hst : Stored ok h k c)
    (hr : machine.Run ok h t) :
    t.pending.lookup k = some c := by
  obtain ⟨t', hr', hk⟩ := hst
  obtain rfl := hr.unique hr'
  exact hk

theorem Stored.key_eq {h1 h2 : List (Act K C A V)} {k : K} {c : C} (hst : Stored ok h1 k c)
    (hr : machine.Run ok (h1 ++ h2) t) : t.key c = some k := by
  obtain ⟨t1, hr1, -⟩ := Machine.Run.split hr
  exact Run.key hr hr1 ((Run.safe hr1).keyed k c (hst.lookup hr1))

/-- **Where an answer comes from.** A call that received `v` got it from a `take` of its own sender
under its own key, which comes after the call registered and before the answer was sent and
received. -/
theorem Run.provenance (hr : machine.Run ok hist t) {c : C} {v : V}
    (hc : t.phase c = .over (.received v)) :
    ∃ a k h1 h2, hist = h1 ++ .take a k (some v) :: h2 ∧ Stored ok h1 k c ∧
      [.prepare c k, .register c] <+ h1 ∧ [.finish a, .receive c] <+ h2 := by
  obtain ⟨a, k, h1, h2, rfl, ⟨t1, hr1, hk1⟩, hl⟩ := (Run.provenanceInv hr).received c v hc
  exact ⟨a, k, h1, h2, rfl, ⟨t1, hr1, hk1⟩, (Run.provenanceInv hr1).mapped k c hk1, hl⟩

/-! ## No sender is taken twice -/

/-- `c` has registered, and its sender is not in the map. -/
def Gone (t : Table K C A V) (c : C) : Prop :=
  t.phase c ≠ .fresh ∧ t.phase c ≠ .ready ∧ ∀ k, t.pending.lookup k ≠ some c

/-- A call never goes back to before its registration. -/
theorem step_phase {t t' : Table K C A V} {act : Act K C A V} (hs : Step t act t') {c : C}
    (hc : t'.phase c = .fresh ∨ t'.phase c = .ready) : t.phase c = .fresh ∨ t.phase c = .ready := by
  have hset : ∀ c' (p : Phase V), p ≠ .fresh → p ≠ .ready ∨ t.phase c' = .fresh →
      Function.update t.phase c' p c = .fresh ∨ Function.update t.phase c' p c = .ready →
      t.phase c = .fresh ∨ t.phase c = .ready := by
    intro c' p h1 h2 h
    rcases h with h | h <;> rcases update_phase_cases h with ⟨rfl, rfl⟩ | h
    · exact absurd rfl h1
    · exact .inl h
    · rcases h2 with h2 | h2
      · exact absurd rfl h2
      · exact .inl h2
    · exact .inr h
  cases hs with
  | prepare h => exact hset _ _ (by simp) (.inr h) hc
  | take => exact hc
  | miss => exact hc
  | finish => exact hc
  | _ =>
    simp only [setPhase_phase, insert_phase, remove_phase] at hc
    exact hset _ _ (by simp) (.inl (by simp)) hc

theorem Registered.step {t t' : Table K C A V} {act : Act K C A V} {c : C} (h : Registered t c)
    (hs : Step t act t') : Registered t' c := by
  have hphase := mt (step_phase hs (c := c)) (not_or.2 h)
  exact ⟨fun hc => hphase (.inl hc), fun hc => hphase (.inr hc)⟩

theorem Run.registered {h1 h2 : List (Act K C A V)} {t1 : Table K C A V} {c : C}
    (hr : machine.Run ok (h1 ++ h2) t) (hr1 : machine.Run ok h1 t1) (hc : Registered t1 c) :
    Registered t c :=
  hr.segment (P := fun t => Registered t c) hr1 hc fun _ _ _ _ _ _ hc hs => hc.step (step_cases hs)

theorem Gone.step {t t' : Table K C A V} {act : Act K C A V} {c : C} (h : Gone t c)
    (hs : Step t act t') :
    Gone t' c := by
  obtain ⟨h1, h2⟩ := Registered.step ⟨h.1, h.2.1⟩ hs
  refine ⟨h1, h2, fun k hk => ?_⟩
  rcases step_pending hs hk with hk | ⟨-, hready, -⟩
  · exact h.2.2 k hk
  · exact h.2.1 hready

theorem Safe.gone_take {t t' : Table K C A V} {a : A} {k : K} {v : Option V} {c : C} (h : Safe t)
    (hk : t.pending.lookup k = some c) (hs : t.step (.take a k v) = some t') : Gone t' c := by
  obtain ⟨h1, h2⟩ := h.registered hk
  cases step_cases hs with
  | take _ hk' =>
    obtain rfl := Option.some.inj (hk.symm.trans hk')
    refine ⟨h1, h2, fun k' hk'' => ?_⟩
    obtain ⟨hne, hk''⟩ := lookup_erase_cases hk''
    exact hne (Option.some.inj ((h.keyed _ _ hk'').symm.trans (h.keyed _ _ hk)))
  | miss _ hk' => rw [hk] at hk'; cases hk'

/-- **A sender that was taken is never in the map again**, so it is taken at most once. -/
theorem take_once {a : A} {k : K} {v : Option V} {h1 h2 : List (Act K C A V)} {c : C}
    (hr : machine.Run ok (h1 ++ .take a k v :: h2) t) (hst : Stored ok h1 k c) : Gone t c := by
  rw [List.append_cons] at hr
  obtain ⟨t2, hr2, -⟩ := Machine.Run.split hr
  obtain ⟨t1, hr1, -, hs⟩ := hr2.last
  refine hr.segment (P := fun t => Gone t c) hr2 ?_ fun _ _ _ _ _ _ h hs => h.step (step_cases hs)
  exact (Run.safe hr1).gone_take (hst.lookup hr1) hs

/-! ## How a sender leaves the map -/

/-- A channel that has its answer, or whose sender was dropped, stays as it is. -/
theorem chan_settled {t t' : Table K C A V} {act : Act K C A V} {c : C} (h : Safe t)
    (hs : Step t act t') (hc : t.chan c ≠ .empty) : t'.chan c = t.chan c := by
  have hdrop : ∀ k, (t.dropSender k).chan c = t.chan c := fun k =>
    dropSender_chan t c k fun hk => hc (h.unused k c hk)
  cases hs with
  | register => exact hdrop _
  | unregister => exact hdrop _
  | finish ha =>
    rename_i a c' v
    have hne : c ≠ c' := by
      rintro rfl
      exact hc (h.held a c v ha)
    exact Function.update_of_ne hne ..
  | _ => rfl

theorem Run.settled {h1 h2 : List (Act K C A V)} {t1 : Table K C A V} {c : C}
    (hr : machine.Run ok (h1 ++ h2) t) (hr1 : machine.Run ok h1 t1) (hc : t1.chan c ≠ .empty) :
    t.chan c = t1.chan c := by
  refine hr.segment (P := fun t => t.chan c = t1.chan c) hr1 rfl ?_
  intro p act t2 t3 _ hr2 h2 hs
  rw [chan_settled (Run.safe hr2) (step_cases hs) (h2 ▸ hc), h2]

/-- How a step takes the sender of `c` from under the key `k` out of the map. -/
inductive Leaves (t t' : Table K C A V) (k : K) (c : C) : Act K C A V → Prop
  | taken {a v} (ha : t'.hand a = some (c, v)) : Leaves t t' k c (.take a k v)
  | removed (hc : t'.chan c = .closed) : Leaves t t' k c (.unregister c)
  /-- another call has the same key, and stores its own sender or removes what it finds -/
  | displaced {act c'} (hne : c' ≠ c) (hkey : t.key c' = some k) (hc : t'.chan c = .closed) :
      Leaves t t' k c act

theorem leaves_of_step {t t' : Table K C A V} {act : Act K C A V} (hs : Step t act t') {k : K}
    {c : C} (hk : t.pending.lookup k = some c) (hn : t'.pending.lookup k ≠ some c) :
    Leaves t t' k c act := by
  cases hs with
  | register hp hkey =>
    rename_i c' k'
    by_cases he : k = k'
    · subst he
      have hne : c' ≠ c := by
        rintro rfl
        exact hn (by simp)
      exact .displaced hne hkey (dropSender_closed hk)
    · exact absurd (by simpa [AList.lookup_insert_ne he] using hk) hn
  | unregister hgive hkey =>
    rename_i c' e k'
    by_cases he : k = k'
    · subst he
      by_cases hc : c' = c
      · subst hc
        exact .removed (dropSender_closed hk)
      · exact .displaced hc hkey (dropSender_closed hk)
    · exact absurd (by simpa [AList.lookup_erase_ne he] using hk) hn
  | take ha hk' =>
    rename_i a k' v c'
    by_cases he : k = k'
    · subst he
      obtain rfl := Option.some.inj (hk.symm.trans hk')
      exact .taken (by simp)
    · exact absurd (by simpa [AList.lookup_erase_ne he] using hk) hn
  | _ => exact absurd hk hn

/-- A sender that was in the map and is there no more left it in one step. -/
theorem Run.leaves {h1 h2 : List (Act K C A V)} {k : K} {c : C}
    (hr : machine.Run ok (h1 ++ h2) t) (hst : Stored ok h1 k c) (hn : t.pending.lookup k ≠ some c) :
    ∃ p act q t1 t2, h2 = p ++ act :: q ∧ machine.Run ok (h1 ++ p) t1 ∧
      t1.pending.lookup k = some c ∧ machine.Run ok (h1 ++ p ++ [act]) t2 ∧
      Leaves t1 t2 k c act := by
  obtain ⟨t0, hr0, hk0⟩ := hst
  obtain ⟨p, act, q, t1, t2, rfl, hr1, hk1, hs, hn1⟩ :=
    hr.loses (P := fun t => t.pending.lookup k = some c) hr0 hk0 hn
  refine ⟨p, act, q, t1, t2, rfl, hr1, hk1, ?_, leaves_of_step (step_cases hs) hk1 hn1⟩
  rw [List.append_cons, ← List.append_assoc, ← List.append_assoc] at hr
  obtain ⟨t2', hr2, -⟩ := Machine.Run.split hr
  obtain ⟨t1', hr1', -, hs'⟩ := hr2.last
  obtain rfl := hr1'.unique hr1
  obtain rfl := Option.some.inj (hs'.symm.trans hs)
  exact hr2

/-- Where the sender of a registered call is, or how it left the map. -/
def Left (ok : Table K C A V → Act K C A V → Prop) (h : List (Act K C A V)) (t : Table K C A V)
    (c : C) : Prop :=
  (∃ a k v h1 h2, h = h1 ++ .take a k v :: h2 ∧ Stored ok h1 k c) ∨ .unregister c ∈ h ∨
    t.chan c = .closed

/-- **A registered call's sender is in the map, unless an agent took it, the call removed it, or it
was dropped** (another call registered under the same key). -/
theorem Run.left (hr : machine.Run ok hist t) {c : C} (hc : .register c ∈ hist) :
    (∃ k, t.pending.lookup k = some c) ∨ Left ok hist t c := by
  obtain ⟨h1, h2, rfl⟩ := List.append_of_mem hc
  rw [List.append_cons] at hr
  obtain ⟨t1, hr1, -⟩ := Machine.Run.split hr
  obtain ⟨k, hk⟩ : ∃ k, t1.pending.lookup k = some c := by
    obtain ⟨t0, -, -, hs⟩ := hr1.last
    have hs : t0.step (.register c) = some t1 := hs
    cases step_cases hs with
    | register hp hkey => exact ⟨_, AList.lookup_insert _⟩
  by_cases hk' : t.pending.lookup k = some c
  · exact .inl ⟨k, hk'⟩
  right
  obtain ⟨p, act, q, t2, t3, rfl, hr2, hk2, hr3, hleaves⟩ := Run.leaves hr ⟨t1, hr1, hk⟩ hk'
  rw [List.append_cons]
  cases hleaves with
  | @taken a v => exact .inl ⟨a, k, v, h1 ++ [.register c] ++ p, q, by simp, t2, hr2, hk2⟩
  | removed => exact .inr (.inl (by simp))
  | displaced hne hkey hclosed =>
    rw [List.append_cons p, ← List.append_assoc, ← List.append_assoc] at hr
    exact .inr (.inr ((Run.settled hr hr3 (by simp [hclosed])).trans hclosed))

/-! ## Only running calls have senders in the map -/

/-- No call is abandoned while its sender is in the map. -/
def KeepsSender (t : Table K C A V) (act : Act K C A V) : Prop :=
  ∀ c, act = .drop c → ∀ k, t.pending.lookup k ≠ some c

theorem running_step {t t' : Table K C A V} {act : Act K C A V} (hsafe : Safe t)
    (h : ∀ k c, t.pending.lookup k = some c → (t.phase c).running = true) (hok : KeepsSender t act)
    (hs : Step t act t') : ∀ k c, t'.pending.lookup k = some c → (t'.phase c).running = true := by
  intro k c hk
  -- a call in the map can move between running phases only
  have hset : ∀ c' p, (c' = c → p.running = true) → t.pending.lookup k = some c →
      (Function.update t.phase c' p c).running = true := by
    intro c' p hp hk
    by_cases he : c = c'
    · subst he; rw [Function.update_self]; exact hp rfl
    · rw [Function.update_of_ne he]; exact h k c hk
  have hphase : ∀ {c' p}, t.phase c' = p → p.running = false → t.pending.lookup k = some c →
      c' ≠ c := by
    rintro c' p hp hfalse hk rfl
    rw [← hp, h k c' hk] at hfalse; cases hfalse
  cases hs with
  | prepare hc => exact hset _ _ (fun he => absurd he (hphase hc rfl hk)) hk
  | abort hc => exact hset _ _ (fun he => absurd he (hphase hc rfl hk)) hk
  | register hc hkey =>
    rename_i c' k'
    simp only [setPhase_phase, insert_phase]
    rcases lookup_insert_cases hk with ⟨-, rfl⟩ | ⟨-, hk⟩
    · rw [Function.update_self]; rfl
    · exact hset _ _ (fun _ => rfl) hk
  | sendOk => exact hset _ _ (fun _ => rfl) hk
  | sendErr => exact hset _ _ (fun _ => rfl) hk
  | expire => exact hset _ _ (fun _ => rfl) hk
  | unregister hgive hkey =>
    rename_i c' e k'
    obtain ⟨hne, hk⟩ := lookup_erase_cases (m := t.pending) hk
    simp only [setPhase_phase, remove_phase]
    refine hset _ _ (fun he => absurd ?_ hne) hk
    exact Option.some.inj ((hsafe.keyed k c hk).symm.trans (he ▸ hkey))
  | receive _ hv => exact hset _ _ (fun he => by rw [he, hsafe.unused k c hk] at hv; cases hv) hk
  | disconnect _ hv => exact hset _ _ (fun he => by rw [he, hsafe.unused k c hk] at hv; cases hv) hk
  | drop _ => exact hset _ _ (fun he => absurd (he ▸ hk) (hok _ rfl k)) hk
  | take _ _ => exact h k c (lookup_erase_cases hk).2
  | miss _ _ => exact h k c hk
  | finish _ => exact h k c hk

/-- **As long as no call is abandoned with its sender in the map, every sender there belongs to a
call that is running.** -/
theorem Run.running (hr : machine.Run KeepsSender hist t) :
    ∀ k c, t.pending.lookup k = some c → (t.phase c).running = true :=
  Machine.Run.invariant
    (P := fun _ t => ∀ k c, t.pending.lookup k = some c → (t.phase c).running = true)
    (by simp [machine, Table.init])
    (fun _ _ _ _ hr h hok hs => running_step (Run.safe hr) h hok (step_cases hs)) hr

end Oneshot
