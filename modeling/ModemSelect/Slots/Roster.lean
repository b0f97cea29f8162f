import ModemSelect.Handset.Readings

namespace ModemSelect

inductive Listening where
  | start (id : Nat)
  | stop (id : Nat)
  deriving DecidableEq

/-- The slots whose following started and stopped, in the order in which that happened. -/
structure RosterChange where
  started : List Nat := []
  stopped : List Nat := []
  deriving DecidableEq

def RosterChange.isEmpty (c : RosterChange) : Bool := c.started.isEmpty && c.stopped.isEmpty

/-- A table under revision: the table so far, what changed in it and the requests made. -/
structure Revision where
  table : SlotTable
  change : RosterChange := {}
  requests : List Listening := []

namespace Revision

def start (r : Revision) (id : Nat) (phones : Readings) : Revision :=
  match phones.snapshot id with
  | .error _ => r
  | .ok known =>
    match r.table.insert { id, known } with
    | .error _ => r
    | .ok table =>
      { table
        change := { r.change with started := r.change.started ++ [id] }
        requests := r.requests ++ [.start id] }

def stop (r : Revision) (id : Nat) : Revision where
  table := (r.table.remove id).1
  change := { r.change with stopped := r.change.stopped ++ [id] }
  requests := r.requests ++ [.stop id]

/-- A wanted slot is followed from now on, if it can be read; another one no longer is. -/
def visit (wanted : SlotSet) (phones : Readings) (r : Revision) (id : Nat) : Revision :=
  if wanted.contains id then
    if r.table.isTracked id then r else r.start id phones
  else
    if r.table.isTracked id then r.stop id else r

/-- The slots of the table that have to be looked at: those wanted and those followed. -/
def concerned (r : Revision) (wanted : SlotSet) : List Nat :=
  (wanted.union r.table.tracked).ids.filter (· < r.table.count)

def follow (r : Revision) (wanted : SlotSet) (phones : Readings) : Revision :=
  (r.concerned wanted).foldl (visit wanted phones) r

end Revision

namespace SlotTable

/-- Switching needs two active slots, so with fewer none is followed. -/
def wanted (active : SlotSet) : SlotSet :=
  if active.size < 2 then SlotSet.empty else active

theorem mem_wanted {active : SlotSet} {id : Nat} :
    id ∈ wanted active ↔ 2 ≤ active.size ∧ id ∈ active := by
  unfold wanted
  split
  next few => simp [Nat.not_le_of_lt few]
  next enough => simp [Nat.le_of_not_lt enough]

/-- Follows exactly the wanted slots that can be read, keeping what is already followed. -/
def follow (t : SlotTable) (active : SlotSet) (phones : Readings) : Revision :=
  { table := t : Revision }.follow (wanted active) phones

/-- Changes the count of slots and then follows the active ones; modems in dropped slots are let
go first. -/
def followResized (t : SlotTable) (count : Nat) (active : SlotSet) (phones : Readings) :
    Revision :=
  let dropped := t.trackedIds.filter (count ≤ ·)
  let r := dropped.foldl Revision.stop { table := t }
  { r with table := r.table.resize count }.follow (wanted active) phones

end SlotTable

end ModemSelect
