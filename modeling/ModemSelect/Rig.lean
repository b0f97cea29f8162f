import ModemSelect.Engine.Step
import ModemSelect.Handset.Basic

namespace ModemSelect

/-- An engine at work on a simulated handset under a clock that is moved by hand. -/
structure Rig where
  handset : Handset
  clock : Clock
  engine : Engine

namespace Rig

def moment (r : Rig) : Moment := ⟨r.clock, r.handset.readings⟩

/-- The engine acts and the handset takes its listening requests. -/
def act (r : Rig) (o : Outcome) : Rig :=
  { r with engine := o.engine, handset := r.handset.listenAll o.requests }

def mount (settings : Settings) (scorer : Option Scorer) (count : Nat) (handset : Handset)
    (clock : Clock) : Rig :=
  let o := Engine.start settings scorer count handset.readings
  { handset := handset.listenAll o.requests, clock, engine := o.engine }

def handle (r : Rig) (event : Event) : Rig × List Directive :=
  let o := r.engine.handle r.moment event
  (r.act o, o.directives)

def poll (r : Rig) : Rig × List Directive × Nat :=
  let (o, fired) := r.engine.poll r.moment
  (r.act o, o.directives, fired)

def nextWakeup (r : Rig) : Option Nat := r.engine.nextWakeup r.clock

end Rig

end ModemSelect
