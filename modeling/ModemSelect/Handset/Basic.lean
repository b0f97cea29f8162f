import ModemSelect.Handset.Readings
import ModemSelect.Slots.Roster

namespace ModemSelect

/-- A simulated phone: what its modem reports, its two data switches and what else restricts it. -/
structure Phone where
  registration : Registration := { state := .home }
  display : Display := { networkType := .lte }
  signal : Signal := Signal.ofLevel 2
  roamingData : Bool := true
  userData : Bool := true
  restrictions : List Refusal := []

/-- Internet is refused by the restrictions, without service, with data switched off and while
roaming with roaming data switched off. -/
def Phone.verdict (p : Phone) : Verdict :=
  let state := p.registration.state
  Verdict.ofReasons <| p.restrictions
    ++ (if state.isInService then [] else [.notInService])
    ++ (if p.userData then [] else [.dataDisabled])
    ++ (if state = .roaming ∧ !p.roamingData then [.roamingDisabled] else [])

/-- A simulated handset: a phone or none in each slot, and what the engine hears about. -/
structure Handset where
  phones : SlotMap Phone
  active : SlotSet := SlotSet.empty
  defaultSlot : Option Nat := none
  preferredSlot : Option Nat := none
  subscribed : SlotSet := SlotSet.empty

namespace Handset

def ofCount (count : Nat) : Handset := { phones := .ofCount count }

def slotCount (h : Handset) : Nat := h.phones.count

def phone? (h : Handset) (id : Nat) : Option Phone := h.phones.get? id

def readings (h : Handset) : Readings where
  registration id := (h.phone? id).map (·.registration)
  display id := (h.phone? id).map (·.display)
  signal id := (h.phone? id).map (·.signal)
  roamingData id := (h.phone? id).map (·.roamingData)
  userData id := (h.phone? id).map (·.userData)
  internet id _ := (h.phone? id).map (·.verdict)
  defaultSlot := h.defaultSlot
  preferredSlot := h.preferredSlot
  active := h.active

/-- Puts a phone into a slot; there is nothing to do for a slot the handset lacks. -/
def insert (h : Handset) (id : Nat) (phone : Phone) : Handset :=
  { h with phones := h.phones.set id phone }

def remove (h : Handset) (id : Nat) : Handset := { h with phones := h.phones.erase id }

/-- Changes the phone in a slot; an empty slot stays empty. -/
def modify (h : Handset) (id : Nat) (f : Phone → Phone) : Handset :=
  { h with phones := h.phones.modify id f }

/-- Phones in dropped slots are lost; added slots are empty. -/
def resize (h : Handset) (count : Nat) : Handset :=
  { h with phones := h.phones.resize count }

def setState (h : Handset) (id : Nat) (state : ServiceState) : Handset :=
  h.modify id fun p => { p with registration := { p.registration with state } }

def setSatellite (h : Handset) (id : Nat) (nonTerrestrial : Bool) : Handset :=
  h.modify id fun p => { p with registration := { p.registration with nonTerrestrial } }

def setLevel (h : Handset) (id level : Nat) : Handset :=
  h.modify id fun p => { p with signal := Signal.ofLevel level }

def setDisplay (h : Handset) (id : Nat) (display : Display) : Handset :=
  h.modify id fun p => { p with display }

def setUserData (h : Handset) (id : Nat) (userData : Bool) : Handset :=
  h.modify id fun p => { p with userData }

def setRoamingData (h : Handset) (id : Nat) (roamingData : Bool) : Handset :=
  h.modify id fun p => { p with roamingData }

def setRestrictions (h : Handset) (id : Nat) (restrictions : List Refusal) : Handset :=
  h.modify id fun p => { p with restrictions }

def setActive (h : Handset) (ids : List Nat) : Handset := { h with active := SlotSet.ofList ids }

def setDefault (h : Handset) (id : Option Nat) : Handset := { h with defaultSlot := id }

def setPreferred (h : Handset) (id : Option Nat) : Handset := { h with preferredSlot := id }

def listen (h : Handset) : Listening → Handset
  | .start id => { h with subscribed := h.subscribed.insert id }
  | .stop id => { h with subscribed := h.subscribed.erase id }

def listenAll (h : Handset) (requests : List Listening) : Handset := requests.foldl listen h

end Handset

end ModemSelect
