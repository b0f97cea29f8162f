import ModemSelect.Rig
import ModemSelect.Scenario.Script

namespace ModemSelect

structure TimedDirective where
  time : Nat
  directive : Directive
  deriving DecidableEq

/-- A scenario being played. The player moves data where the engine says: at once where no
validation is needed, and otherwise when a step reports that the validation passed. -/
structure Player where
  rig : Rig
  /-- The slot whose validation waits for a step to report its result. -/
  awaiting : Option Nat := none
  trace : List TimedDirective := []

namespace Player

def start (s : Scenario) (settings : Settings) : Player where
  rig := Rig.mount settings none s.slots s.handset {}

def setPreferred (p : Player) (id : Nat) : Player :=
  { p with rig := { p.rig with handset := p.rig.handset.setPreferred (some id) } }

/-- Tells the engine that the switch went through, which gives no directive. -/
def completeSwitch (p : Player) : Player :=
  { p with rig := { p.rig with engine := p.rig.engine.completeSwitch p.rig.clock } }

/-- Puts a directive on the trace and does what it says. -/
def obey (p : Player) (d : Directive) : Player :=
  let entry : TimedDirective := ⟨p.rig.clock.uptime, d⟩
  let p := { p with trace := p.trace ++ [entry] }
  match d with
  | .validationRequired target false => (p.setPreferred target).completeSwitch
  | .validationRequired target true => { p with awaiting := some target }
  | .immediateSwitch target _ _ => { p with awaiting := none }.setPreferred target
  | .cancelPendingValidation => { p with awaiting := none }

def obeyAll (p : Player) (directives : List Directive) : Player := directives.foldl obey p

def send (p : Player) (event : Event) : Player :=
  let (rig, directives) := p.rig.handle event
  { p with rig }.obeyAll directives

def poll (p : Player) : Player :=
  let (rig, directives, _) := p.rig.poll
  { p with rig }.obeyAll directives

def onHandset (p : Player) (f : Handset → Handset) : Player :=
  { p with rig := { p.rig with handset := f p.rig.handset } }

def advance (p : Player) (ms : Nat) : Player :=
  { p with rig := { p.rig with clock := p.rig.clock.advance ms } }

def suspend (p : Player) (ms : Nat) : Player :=
  { p with rig := { p.rig with clock := p.rig.clock.suspend ms } }

/-- Goes from deadline to deadline while they are not past the given uptime. -/
def fireWithin : Nat → Player → Nat → Player
  | 0, p, _ => p
  | fuel + 1, p, time =>
    match p.rig.nextWakeup with
    | none => p
    | some wait =>
      if time < Clock.deadline p.rig.clock.uptime wait then p
      else fireWithin fuel (p.advance wait).poll time

def advanceTo (p : Player) (time : Nat) : Player :=
  let p := fireWithin p.rig.engine.timers.load p time
  (p.advance (time - p.rig.clock.uptime)).poll

def perform (p : Player) : Action → Player
  | .registration slot state satellite =>
    (p.onHandset fun h => (h.setState slot state).setSatellite slot satellite).send
      (.news slot (.registration ⟨state, satellite⟩))
  | .signal slot level =>
    (p.onHandset fun h => h.setLevel slot level).send
      (.news slot (.signal (Signal.ofLevel level)))
  | .display slot display =>
    (p.onHandset fun h => h.setDisplay slot display).send (.news slot (.display display))
  | .userData slot enabled =>
    (p.onHandset fun h => h.setUserData slot enabled).send (.dataSettingsChanged slot)
  | .roamingData slot enabled =>
    (p.onHandset fun h => h.setRoamingData slot enabled).send (.dataSettingsChanged slot)
  | .restrict slot reasons =>
    (p.onHandset fun h => h.setRestrictions slot reasons).send (.dataSettingsChanged slot)
  | .subscriptions active =>
    (p.onHandset fun h => h.setActive active).send .subscriptionsChanged
  | .modemCount count =>
    (p.onHandset fun h => h.resize count).send (.modemCountChanged count)
  | .defaultCandidate slot =>
    (p.onHandset fun h => h.setDefault slot).send .subscriptionsChanged
  | .defaultNetwork transports hasInternet =>
    p.send (.defaultNetworkChanged (if transports.isEmpty then none
      else some (DefaultNetwork.ofTransports transports hasInternet)))
  | .validation .passed =>
    let moved := match p.awaiting with
      | some target => { p with awaiting := none }.setPreferred target
      | none => p
    moved.send .validationSucceeded
  | .validation .failed => { p with awaiting := none }.send .validationFailed
  | .evaluate => p.send (.evaluationRequested .external)
  | .cancel => p.send .cancelPendingSwitch
  | .suspend ms => (p.suspend ms).poll

def play (p : Player) (step : Step) : Player := (p.advanceTo step.time).perform step.action

def run (s : Scenario) (settings : Settings) : Player :=
  let p := s.orderedSteps.foldl play (start s settings)
  match s.runUntil with
  | some time => p.advanceTo time
  | none => p

end Player

end ModemSelect
