import ModemSelect.Handset.Basic
import ModemSelect.Settings.Draft

namespace ModemSelect

structure PhonePlan where
  slot : Nat
  state : ServiceState := .home
  satellite : Bool := false
  network : NetworkType := .lte
  overrideType : OverrideType := .none
  level : Nat := 2
  roamingData : Bool := true
  userData : Bool := true

def PhonePlan.phone (p : PhonePlan) : Phone where
  registration := ⟨p.state, p.satellite⟩
  display := ⟨p.network, p.overrideType⟩
  signal := Signal.ofLevel p.level
  roamingData := p.roamingData
  userData := p.userData

inductive ValidationResult where
  | passed
  | failed
  deriving DecidableEq

instance : Named ValidationResult where
  all := [.passed, .failed]
  name
    | .passed => "passed"
    | .failed => "failed"

inductive Action where
  | registration (slot : Nat) (state : ServiceState) (satellite : Bool)
  | signal (slot level : Nat)
  | display (slot : Nat) (display : Display)
  | userData (slot : Nat) (enabled : Bool)
  | roamingData (slot : Nat) (enabled : Bool)
  | restrict (slot : Nat) (reasons : List Refusal)
  | subscriptions (active : List Nat)
  | modemCount (count : Nat)
  | defaultCandidate (slot : Option Nat)
  | defaultNetwork (transports : List Transport) (hasInternet : Bool)
  | validation (result : ValidationResult)
  | evaluate
  | cancel
  | suspend (ms : Nat)

structure Step where
  time : Nat
  action : Action

/-- A scenario: the handset at the start, the settings and the steps, in the order of the file. -/
structure Scenario where
  slots : Nat := 2
  default : Option Nat := none
  preferred : Option Nat := none
  active : List Nat := []
  draft : Draft := {}
  phones : List PhonePlan := []
  steps : List Step := []
  /-- The uptime until which timers go on firing after the last step. -/
  runUntil : Option Nat := none

inductive ScenarioError where
  | unreadable
  | tooManySlots (slots : Nat)
  | phoneOutside (slot slots : Nat)
  | tooManyModems (count time : Nat)
  | settings (e : SettingsError)
  deriving DecidableEq

namespace Scenario

def slotLimit : Nat := 16

def stepError? (step : Step) : Option ScenarioError :=
  match step.action with
  | .modemCount count => if slotLimit < count then some (.tooManyModems count step.time) else none
  | _ => none

/-- The first fault of the slots, then the phones, then the steps. -/
def fault? (s : Scenario) : Option ScenarioError :=
  if slotLimit < s.slots then some (.tooManySlots s.slots)
  else
    match s.phones.find? fun p => s.slots ≤ p.slot with
    | some p => some (.phoneOutside p.slot s.slots)
    | none => s.steps.findSome? stepError?

/-- The handset as it is at the start; of two phones for one slot the later stands. -/
def handset (s : Scenario) : Handset :=
  let h := s.phones.foldl (fun h p => h.insert p.slot p.phone) (Handset.ofCount s.slots)
  ((h.setActive s.active).setDefault s.default).setPreferred s.preferred

/-- The steps by time; those at one time keep their order. -/
def orderedSteps (s : Scenario) : List Step :=
  s.steps.mergeSort fun a b => a.time ≤ b.time

end Scenario

namespace ScenarioError

def detail : ScenarioError → Option String
  | .tooManySlots slots => some s!"{slots} slots exceeds the limit of {Scenario.slotLimit}"
  | .phoneOutside slot slots => some s!"phone in slot {slot} but only {slots} slots"
  | .tooManyModems count time =>
    some s!"modem count {count} at {time}ms exceeds the limit of {Scenario.slotLimit}"
  | .unreadable | .settings _ => none

def message? (e : ScenarioError) : Option String := e.detail.map ("scenario: " ++ ·)

end ScenarioError

end ModemSelect
