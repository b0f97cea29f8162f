import Mathlib.Data.List.Basic
import ModemSelect.Proofs.Following

namespace ModemSelect

def Listening.slot : Listening → Nat
  | .start id | .stop id => id

def Listening.started? : Listening → Option Nat
  | .start id => some id
  | .stop _ => none

def Listening.stopped? : Listening → Option Nat
  | .start _ => none
  | .stop id => some id

namespace Revision

/-- The report lists the slots in the order of the requests. -/
structure Accounted (r : Revision) : Prop where
  started : r.change.started = r.requests.filterMap Listening.started?
  stopped : r.change.stopped = r.requests.filterMap Listening.stopped?

theorem Accounted.stop {r : Revision} (h : r.Accounted) (id : Nat) : (r.stop id).Accounted where
  started := by simp [Revision.stop, h.started, Listening.started?]
  stopped := by simp [Revision.stop, h.stopped, Listening.stopped?]

section Visit

variable {r : Revision} {id : Nat} (inside : id < r.table.count) (wanted : SlotSet)
  (phones : Readings)
include inside

theorem Accounted.visit (h : r.Accounted) : (visit wanted phones r id).Accounted := by
  cases visit_cases inside wanted phones with
  | kept same => rwa [same]
  | started m table shows inserted own same =>
    rw [same]
    constructor
    · simp [h.started, Listening.started?]
    · simp [h.stopped, Listening.stopped?]
  | stopped tracked shows same =>
    rw [same]
    exact h.stop id

end Visit

section Visits

variable {wanted : SlotSet} {phones : Readings} {ids : List Nat} {r : Revision}
  (inside : ∀ id ∈ ids, id < r.table.count)
include inside

theorem Accounted.foldl_visit (h : r.Accounted) :
    (ids.foldl (Revision.visit wanted phones) r).Accounted := by
  induction ids generalizing r with
  | nil => exact h
  | cons id rest ih =>
    have first := inside id List.mem_cons_self
    refine ih (fun k hk => ?_) (h.visit first wanted phones)
    rw [count_visit first]
    exact inside k (List.mem_cons_of_mem id hk)

end Visits

end Revision

namespace SlotTable

/-- The slots past the new count that were followed. -/
def dropped (t : SlotTable) (count : Nat) : List Nat := t.trackedIds.filter (count ≤ ·)

section Request

variable {t : SlotTable} {wanted : SlotSet} {phones : Readings} {k id : Nat}

end Request

section Reconciled

variable (t : SlotTable) (count : Nat) (active : SlotSet) (phones : Readings)

end Reconciled

/-- The slot that the handset loses is let go before one that is no longer active. -/
example :
    let phones := Readings.sample .home []
    let t := ((SlotTable.ofCount 4).follow (SlotSet.ofList [0, 1, 2, 3]) phones).table
    (t.followResized 3 (SlotSet.ofList [0, 2, 5]) phones).change = ⟨[], [3, 1]⟩ := by
  decide +kernel

end SlotTable

end ModemSelect
