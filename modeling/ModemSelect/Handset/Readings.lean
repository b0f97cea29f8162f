import ModemSelect.Internet
import ModemSelect.Slots.SlotSet
import ModemSelect.Slots.SlotTable

namespace ModemSelect

/-- What can be read off the handset at one moment. A slot that no phone backs reads nothing. -/
structure Readings where
  registration : Nat → Option Registration
  display : Nat → Option Display
  signal : Nat → Option Signal
  roamingData : Nat → Option Bool
  userData : Nat → Option Bool
  /-- The second argument asks as if no other network were up. -/
  internet : Nat → Bool → Option Verdict
  /-- The slot that the user designated for data. -/
  defaultSlot : Option Nat
  /-- The slot that carries data now, where it is not the default. -/
  preferredSlot : Option Nat
  /-- The slots that back an active, visible subscription. -/
  active : SlotSet

/-- A slot can be followed once it reads a registration; other readings may be missing. -/
def Readings.snapshot (phones : Readings) (id : Nat) : Except SlotError Snapshot :=
  match phones.registration id with
  | none => .error (.noPhone id)
  | some registration =>
    .ok {
      registration
      display := (phones.display id).getD {}
      signal := (phones.signal id).getD {}
      roamingData := (phones.roamingData id).getD false }

/-- The slot that carries data, given the default. -/
def Readings.carrier (phones : Readings) (default : Nat) : Nat :=
  phones.preferredSlot.getD default

end ModemSelect
