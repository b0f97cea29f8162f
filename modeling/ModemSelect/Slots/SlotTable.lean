import ModemSelect.Slots.Modem
import ModemSelect.Slots.SlotMap

namespace ModemSelect

inductive SlotError where
  | outside (id slots : Nat)
  | untracked (id : Nat)
  | alreadyTracked (id : Nat)
  | noPhone (id : Nat)
  | noDefault
  deriving DecidableEq

def SlotError.message : SlotError → String
  | .outside id slots => s!"candidate {id} is outside the {slots} modem slots"
  | .untracked id => s!"candidate {id} is not tracked"
  | .alreadyTracked id => s!"candidate {id} is already tracked"
  | .noPhone id => s!"no phone backs candidate {id}"
  | .noDefault => "no default data candidate"

/-- The modem slots of the handset: what is known of the modem followed in a slot, nothing for an
empty one. -/
structure SlotTable where
  slots : SlotMap Snapshot

namespace SlotTable

def ofCount (count : Nat) : SlotTable := ⟨.ofCount count⟩

def count (t : SlotTable) : Nat := t.slots.count

/-- The modem in a slot, none for an empty slot or one outside the table. -/
def modem? (t : SlotTable) (id : Nat) : Option Modem := (t.slots.get? id).map (Modem.mk id)

def isTracked (t : SlotTable) (id : Nat) : Bool := (t.modem? id).isSome

def tracked (t : SlotTable) : SlotSet := t.slots.domain

def trackedIds (t : SlotTable) : List Nat := t.tracked.ids

def modems (t : SlotTable) : List Modem := t.slots.filled.map fun (id, known) => { id, known }

def standings (t : SlotTable) (features : Features) (scorer : Scorer) : List Standing :=
  t.modems.map (·.standing features scorer)

def get (t : SlotTable) (id : Nat) : Except SlotError Modem :=
  if id < t.count then
    match t.modem? id with
    | some m => .ok m
    | none => .error (.untracked id)
  else .error (.outside id t.count)

def insert (t : SlotTable) (m : Modem) : Except SlotError SlotTable :=
  if m.id < t.count then
    if t.isTracked m.id then .error (.alreadyTracked m.id)
    else .ok ⟨t.slots.set m.id m.known⟩
  else .error (.outside m.id t.count)

/-- The table with the news taken in, and whether it was news. -/
def learn (t : SlotTable) (id : Nat) (news : Update) : Except SlotError (SlotTable × Bool) :=
  match t.get id with
  | .error e => .error e
  | .ok m => .ok (⟨t.slots.set id (m.known.learn news)⟩, !m.known.knows news)

/-- Empties a slot and hands out the modem that was in it. -/
def remove (t : SlotTable) (id : Nat) : SlotTable × Option Modem :=
  (⟨t.slots.erase id⟩, t.modem? id)

/-- Slots past the new count are dropped with their modems; added slots are empty. -/
def resize (t : SlotTable) (count : Nat) : SlotTable := ⟨t.slots.resize count⟩

end SlotTable

end ModemSelect
