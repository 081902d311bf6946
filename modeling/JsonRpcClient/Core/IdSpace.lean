import JsonRpcClient.Concurrent.Run
import JsonRpcClient.Core.RequestId

/-!
# A `RequestIdManager` for ever (request_id.rs)

There are no more than `2 ^ 64` ids, and `fetch_add` wraps. `ids_recycled` is what a manager hands out
over runs of any length, in which it may also be reset: it goes round and round the ids, gives a range
whole or not at all, and no id again before it has gone round once or was reset.
-/

namespace JsonRpc

/-- A call of a method that changes the counter. -/
inductive IdOp where
  | reserveId
  | reserveRange (count : UInt64)
  | reset

namespace IdOp

/-- How many ids are asked for. -/
def count : IdOp → Nat
  | reserveId => 1
  | reserveRange count => count.toNat
  | reset => 0

/-- The ids that are handed out, none where the method returns `None` or panics, and the manager after
it. -/
def run (p : Profile) (m : RequestIdManager) : IdOp → List RequestId × RequestIdManager
  | reserveId => ([m.reserveId.1], m.reserveId.2)
  | reserveRange count =>
    (((m.reserveRange p count).1.getD none).elim [] RangeInclusive.ids, (m.reserveRange p count).2)
  | reset => ([], m.reset)

end IdOp

/-- A manager that anybody may use. -/
def idSpace (p : Profile) : Machine RequestIdManager (IdOp × List RequestId) where
  init := .new
  step m a := if (a.1.run p m).1 = a.2 then some (a.1.run p m).2 else none

/-- How many ids were asked for since the last reset. -/
def asked (h : List (IdOp × List RequestId)) : Nat :=
  h.foldl (fun n a => match a.1 with | .reset => 0 | op => n + op.count) 0

/-- The next `count` ids, or none where those come to the end of all ids. -/
def Granted (start count : Nat) (ids : List RequestId) : Prop :=
  ids.map RequestId.toNat = List.range' start count ∧ start + count ≤ 2 ^ 64 ∨
    ids = [] ∧ 2 ^ 64 ≤ start + count

variable {p : Profile} {m m' : RequestIdManager} {op : IdOp}
  {h : List (IdOp × List RequestId)}

theorem RequestIdManager.reserveRange_counter (p : Profile) (m : RequestIdManager) (count : UInt64) :
    (m.reserveRange p count).2.current_id = m.current_id + count := by
  unfold reserveRange
  by_cases hc : count = 0
  · subst hc
    simp
  · rw [if_neg hc]
    simp only [fetchAdd]
    split <;> rfl

theorem RequestIdManager.reserveRange_granted (p : Profile) (m : RequestIdManager) (count : UInt64) :
    Granted m.current_id.toNat count.toNat
      (((m.reserveRange p count).1.getD none).elim [] RangeInclusive.ids) := by
  have hcur := m.current_id.toNat_lt
  by_cases h0 : count = 0
  · subst h0
    exact .inl ⟨rfl, by simp; omega⟩
  have hpos : 0 < count.toNat := by
    rw [Nat.pos_iff_ne_zero]
    exact fun h => h0 (UInt64.toNat.inj h)
  by_cases hfits : m.current_id.toNat + count.toNat < 2 ^ 64
  · obtain ⟨range, hres, hstart, hlast⟩ := reserveRange_spec p hpos hfits
    refine .inl ⟨?_, hfits.le⟩
    rw [hres]
    simp only [Option.getD_some, Option.elim_some, RangeInclusive.ids_toNat, hstart, hlast,
      Nat.add_sub_cancel_left]
  · cases hres : (m.reserveRange p count).1.getD none with
    | none => exact .inr ⟨rfl, by omega⟩
    | some range =>
      have hres : (m.reserveRange p count).1 = some (some range) := by
        cases hfst : (m.reserveRange p count).1 with
        | none => rw [hfst] at hres; cases hres
        | some o => rw [hfst] at hres; exact congrArg some hres
      rw [Option.elim_some]
      by_cases hle : range.start ≤ range.last
      · -- the range ends with the last id of all
        obtain ⟨-, hlast⟩ := reserveRange_length hres hle
        have hfirst : range.start.toNat = m.current_id.toNat := by
          rw [RequestId.toNat, (reserveRange_some hres).2.1]
        have hbound := range.last.toNat_lt
        refine .inl ⟨?_, by omega⟩
        rw [RangeInclusive.ids_toNat, hlast, hfirst, Nat.add_sub_cancel_left]
      · rw [RequestId.le_iff, not_le] at hle
        refine .inr ⟨?_, by omega⟩
        rw [← List.length_eq_zero_iff, RangeInclusive.length_ids]
        omega

/-- What one call does. -/
theorem IdOp.run_spec (p : Profile) (m : RequestIdManager) (op : IdOp) :
    Granted m.current_id.toNat op.count (op.run p m).1 ∧
    (op ≠ .reset → (op.run p m).2.current_id.toNat = (m.current_id.toNat + op.count) % 2 ^ 64) := by
  have hcur := m.current_id.toNat_lt
  cases op with
  | reserveId =>
    refine ⟨.inl ⟨rfl, ?_⟩, fun _ => UInt64.toNat_add m.current_id 1⟩
    rw [count]
    omega
  | reserveRange count =>
    refine ⟨RequestIdManager.reserveRange_granted p m count, fun _ => ?_⟩
    rw [run, RequestIdManager.reserveRange_counter]
    exact UInt64.toNat_add m.current_id count
  | reset => exact ⟨.inl ⟨rfl, hcur.le⟩, fun h => absurd rfl h⟩

theorem idSpace_step {a : IdOp × List RequestId} (hs : (idSpace p).step m a = some m') :
    a.2 = (a.1.run p m).1 ∧ m' = (a.1.run p m).2 := by
  simp only [idSpace] at hs
  split at hs
  · rename_i ha
    exact ⟨ha.symm, (Option.some.inj hs).symm⟩
  · cases hs

@[simp] theorem asked_reset (h : List (IdOp × List RequestId)) (ids : List RequestId) :
    asked (h ++ [(.reset, ids)]) = 0 := by
  simp [asked]

theorem asked_concat {a : IdOp × List RequestId} (ha : a.1 ≠ .reset) :
    asked (h ++ [a]) = asked h + a.1.count := by
  obtain ⟨op, ids⟩ := a
  cases op with
  | reset => exact absurd rfl ha
  | _ => simp [asked]

/-- The counter is how much was asked for since the last reset, however often it has gone round. -/
theorem idSpace_counter (hr : (idSpace p).Run Machine.always h m) :
    m.current_id.toNat = asked h % 2 ^ 64 := by
  induction hr with
  | nil => rfl
  | @snoc h m a m' _ _ hs ih =>
    obtain ⟨-, rfl⟩ := idSpace_step hs
    by_cases hreset : a.1 = .reset
    · obtain ⟨op, ids⟩ := a
      cases hreset
      rw [asked_reset]
      rfl
    · rw [(IdOp.run_spec p m a.1).2 hreset, asked_concat hreset, ih, Nat.mod_add_mod]

/-- What a use that has no reset behind it was given. -/
theorem idSpace_given {h1 h2 : List (IdOp × List RequestId)} {a : IdOp × List RequestId}
    (hr : (idSpace p).Run Machine.always (h1 ++ a :: h2) m) :
    Granted (asked h1 % 2 ^ 64) a.1.count a.2 := by
  rw [List.append_cons] at hr
  obtain ⟨m2, hr2, -⟩ := hr.split
  obtain ⟨m1, hr1, -, hs⟩ := hr2.last
  obtain ⟨hids, -⟩ := idSpace_step hs
  rw [hids, ← idSpace_counter hr1]
  exact (IdOp.run_spec p m1 a.1).1

/-- How much is asked for in a part of a history that resets nothing. -/
theorem asked_append {h1 h2 : List (IdOp × List RequestId)} (hno : ∀ a ∈ h2, a.1 ≠ .reset) :
    asked (h1 ++ h2) = asked h1 + (h2.map fun a => a.1.count).sum := by
  induction h2 using List.reverseRecOn with
  | nil => simp
  | append_singleton h2 a ih =>
    have ha := hno a (by simp)
    have hrest := ih fun b hb => hno b (List.mem_append_left _ hb)
    rw [← List.append_assoc, asked_concat ha, hrest]
    simp
    omega

/-- **Ids are recycled, not repeated.** Over runs of any length, with ranges of any size and resets:
the counter is what was asked for since the last reset, modulo `2 ^ 64`; a call is given the next
ids, as many as it asked for, or none where those come to the end; and two calls without a reset
between them have no id in common, unless more than `2 ^ 64` were asked for from the first to the
second. -/
theorem ids_recycled (hr : (idSpace p).Run Machine.always h m) :
    m.current_id.toNat = asked h % 2 ^ 64 ∧
    (∀ h1 a h2, h = h1 ++ a :: h2 → Granted (asked h1 % 2 ^ 64) a.1.count a.2) ∧
    ∀ h1 a h2 b h3, h = h1 ++ a :: h2 ++ b :: h3 → (∀ x ∈ a :: h2, x.1 ≠ .reset) →
      a.1.count + (h2.map fun x => x.1.count).sum + b.1.count ≤ 2 ^ 64 → a.2.Disjoint b.2 := by
  refine ⟨idSpace_counter hr, ?_, ?_⟩
  · rintro h1 a h2 rfl
    exact idSpace_given hr
  · rintro h1 a h2 b h3 rfl hno hle id hida hidb
    have hasked : asked (h1 ++ a :: h2) =
        asked h1 + (a.1.count + (h2.map fun x => x.1.count).sum) := by
      rw [asked_append hno]
      simp
    have hb := idSpace_given hr
    rw [hasked] at hb
    rw [List.append_assoc] at hr
    rcases idSpace_given hr with ⟨ha, hafits⟩ | ⟨hnone, -⟩
    case inr => simp [hnone] at hida
    rcases hb with ⟨hb, hbfits⟩ | ⟨hnone, -⟩
    case inr => simp [hnone] at hidb
    -- both ids are counted from the last reset; the second is less than a round ahead of the first
    have hmema := List.mem_map_of_mem (f := RequestId.toNat) hida
    have hmemb := List.mem_map_of_mem (f := RequestId.toNat) hidb
    rw [ha, List.mem_range'_1] at hmema
    rw [hb, List.mem_range'_1] at hmemb
    omega

/-- A range that cannot be given, and takes the counter round. -/
def goneRound : List (IdOp × List RequestId) :=
  [(.reserveId, [⟨0⟩]), (.reserveId, [⟨1⟩]), (.reserveRange 0xffffffffffffffff, []),
    (.reserveId, [⟨1⟩]), (.reserveRange 2, [⟨2⟩, ⟨3⟩]), (.reset, []), (.reserveId, [⟨0⟩])]

theorem ids_recycled_round : ∃ m, (idSpace .wrapping).Run Machine.always goneRound m ∧
    m.current_id.toNat = 1 ∧
    ∀ h1 a h2 b h3, goneRound = h1 ++ a :: h2 ++ b :: h3 → (∀ x ∈ a :: h2, x.1 ≠ .reset) →
      a.1.count + (h2.map fun x => x.1.count).sum + b.1.count ≤ 2 ^ 64 → a.2.Disjoint b.2 := by
  have hrun : ((idSpace .wrapping).exec (idSpace .wrapping).init goneRound).isSome = true := by
    decide +kernel
  obtain ⟨m, hm⟩ := Option.isSome_iff_exists.1 hrun
  have hr := Machine.Run.of_exec hm
  obtain ⟨hcounter, -, hdisjoint⟩ := ids_recycled hr
  exact ⟨m, hr, hcounter, hdisjoint⟩

end JsonRpc
