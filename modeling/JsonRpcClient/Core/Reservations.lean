import JsonRpcClient.Concurrent.Run
import JsonRpcClient.Core.Batch

/-!
# The ids of a whole run

Callers reserve through one `RequestIdManager`, one id for a request and a range for a batch. Each
reservation is a single `fetch_add`, so any interleaving of callers is a sequence of reservations, a
run of `idManager`. `idManager_ids` is what such a run hands out, as long as the ids last: laid end
to end, `0, 1, …, current_id - 1`.
-/

namespace JsonRpc
open Json

variable {R : ResponseTypes}

/-- The range a built batch is going to be registered under. -/
def buildKey (result : Outcome (Option (Batch R))) : Option RangeInclusive :=
  match result with
  | .ret (.ok (some batch)) => batch.request_id_range
  | _ => none

/-- `WsClient::request` and `HttpClient::request` reserve one id, `batch_request` through `build`.
-/
inductive Reservation (R : ResponseTypes) where
  | request
  | batch (calls : List (BatchBuilder.Call R))

namespace Reservation

/-- How many ids are asked for. -/
def count : Reservation R → Nat
  | request => 1
  | batch calls => (BatchBuilder.ofCalls calls).requests.length

/-- The ids that are handed out, in order, and the manager after it. -/
def reserve (p : Profile) (m : RequestIdManager) : Reservation R → List RequestId × RequestIdManager
  | request => ([m.reserveId.1], m.reserveId.2)
  | batch calls =>
    ((buildKey ((BatchBuilder.ofCalls calls).build p m).1).elim [] RangeInclusive.ids,
      ((BatchBuilder.ofCalls calls).build p m).2)

/-- While the ids last, a reservation is the next `count` ids. -/
theorem reserve_spec (p : Profile) {m : RequestIdManager} {r : Reservation R}
    (h : m.current_id.toNat + r.count < 2 ^ 64) :
    (r.reserve p m).1.map RequestId.toNat = List.range' m.current_id.toNat r.count ∧
      (r.reserve p m).2.current_id.toNat = m.current_id.toNat + r.count := by
  cases r with
  | request =>
    refine ⟨rfl, ?_⟩
    exact toNat_add_of_lt (by simpa [count] using h)
  | batch calls =>
    simp only [count, reserve] at h ⊢
    set b := BatchBuilder.ofCalls calls with hb
    by_cases h0 : 0 < b.requests.length
    · obtain ⟨range, hstart, hlast, hbuild⟩ := BatchBuilder.build_ok (p := p) (m := m)
        (hb ▸ BatchBuilder.valid_ofCalls calls) h0 h
      have hcount : (UInt64.ofNat b.requests.length).toNat = b.requests.length :=
        UInt64.toNat_ofNat_of_lt' (show _ < 2 ^ 64 by omega)
      refine ⟨?_, ?_⟩
      · simp only [hbuild, buildKey, Outcome.ok, Option.elim, range.ids_toNat, hstart]
        congr 1; omega
      · rw [hbuild]
        have hadd := toNat_add_of_lt (a := m.current_id) (b := UInt64.ofNat b.requests.length)
          (by omega)
        simpa only [hcount] using hadd
    · -- without requests no range is reserved
      have hnil : b.requests = [] := List.length_eq_zero_iff.1 (by omega)
      have hvalid : b.Valid := hb ▸ BatchBuilder.valid_ofCalls calls
      simp only [BatchBuilder.build, hnil, List.isEmpty_nil, Bool.true_and, List.length_nil]
      split
      · exact ⟨rfl, rfl⟩
      · simp only [show UInt64.ofNat 0 = 0 from rfl, RequestIdManager.reserveRange_zero,
          hvalid.assemble_eq]
        exact ⟨rfl, rfl⟩

end Reservation

/-! ## Runs -/

/-- The id manager of a client, never reset; a step is a reservation together with the ids it got.
-/
def idManager (R : ResponseTypes) (p : Profile) : Machine RequestIdManager
    (Reservation R × List RequestId) where
  init := .new
  step m a := if (a.1.reserve p m).1 = a.2 then some (a.1.reserve p m).2 else none

/-- How many ids a run asks for. -/
def total (h : List (Reservation R × List RequestId)) : Nat := (h.map fun a => a.1.count).sum

variable {p : Profile} {ok : RequestIdManager → Reservation R × List RequestId → Prop}
  {h : List (Reservation R × List RequestId)} {m : RequestIdManager}

/-- **A run hands out `0, 1, …, current_id - 1`, in this order.** -/
theorem idManager_ids (hr : (idManager R p).Run ok h m) (ht : total h < 2 ^ 64) :
    (∀ a ∈ h, a.2.length = a.1.count) ∧ m.current_id.toNat = total h ∧
      (h.flatMap Prod.snd).map RequestId.toNat = List.range m.current_id.toNat := by
  induction hr with
  | nil => exact ⟨by simp, rfl, rfl⟩
  | snoc _ _ hs ih =>
    rename_i h m a m' _ _
    have htotal : total (h ++ [a]) = total h + a.1.count := by simp [total]
    obtain ⟨hlen, hcur, hids⟩ := ih (by omega)
    simp only [idManager] at hs
    split at hs
    · rename_i ha
      cases hs
      obtain ⟨hrange, hcur'⟩ := a.1.reserve_spec p (m := m) (by omega)
      rw [ha] at hrange
      refine ⟨fun x hx => ?_, by omega, ?_⟩
      · rcases List.mem_append.1 hx with hx | hx
        · exact hlen x hx
        · rw [List.mem_singleton] at hx
          subst hx
          simpa using congrArg List.length hrange
      · rw [List.flatMap_append, List.map_append, hids, List.flatMap_singleton, hrange, hcur',
          List.range_eq_range', List.range_eq_range']
        simpa using List.range'_append_1 (s := 0) (m := m.current_id.toNat) (n := a.1.count)
    · cases hs

/-- Ids are handed out in increasing order, within a reservation and from one to the next. -/
theorem idManager_increasing (hr : (idManager R p).Run ok h m) (ht : total h < 2 ^ 64) :
    (∀ a ∈ h, a.2.Pairwise (· < ·)) ∧ h.Pairwise fun a b => ∀ x ∈ a.2, ∀ y ∈ b.2, x < y := by
  obtain ⟨-, -, hids⟩ := idManager_ids hr ht
  have hsorted : (h.flatMap Prod.snd).Pairwise (· < ·) := by
    have h1 : ((h.flatMap Prod.snd).map RequestId.toNat).Pairwise (· < ·) := by
      rw [hids]; exact List.pairwise_lt_range
    rw [List.pairwise_map] at h1
    exact h1.imp fun h => RequestId.lt_iff.2 h
  exact List.pairwise_flatMap.1 hsorted

theorem idManager_mem (hr : (idManager R p).Run ok h m) (ht : total h < 2 ^ 64) (id : RequestId) :
    (∃ a ∈ h, id ∈ a.2) ↔ id.toNat < m.current_id.toNat := by
  obtain ⟨-, -, hids⟩ := idManager_ids hr ht
  rw [← List.mem_range, ← hids, List.mem_map, ← List.mem_flatMap]
  exact ⟨fun hid => ⟨id, hid, rfl⟩, fun ⟨x, hx, he⟩ => RequestId.toNat_inj.1 he ▸ hx⟩

/-- In whatever list the reservations of a run are made, two elements that get the same id are one.
-/
theorem reserved_inj {α : Type} {l : List α} {g : α → Option (Reservation R × List RequestId)}
    (hr : (idManager R p).Run ok (l.filterMap g) m) (ht : total (l.filterMap g) < 2 ^ 64)
    {a b : α} (ha : a ∈ l) (hb : b ∈ l) {ra rb : Reservation R × List RequestId}
    (hra : g a = some ra) (hrb : g b = some rb) {id : RequestId} (hida : id ∈ ra.2)
    (hidb : id ∈ rb.2) : a = b := by
  obtain ⟨-, hinc⟩ := idManager_increasing hr ht
  rw [List.pairwise_filterMap] at hinc
  let Apart (a b : α) : Prop := ∀ ra rb, g a = some ra → g b = some rb → ra.2.Disjoint rb.2
  have hpair : l.Pairwise Apart := by
    refine hinc.imp fun {a b} hab ra rb hra hrb id hida hidb => ?_
    have hlt := RequestId.lt_iff.1 (hab ra hra rb hrb id hida id hidb)
    omega
  have : Std.Symm Apart := ⟨fun _ _ hab ra rb hra hrb _ hb ha => hab rb ra hrb hra ha hb⟩
  by_contra hne
  exact hpair.forall ha hb hne ra rb hra hrb hida hidb

end JsonRpc
