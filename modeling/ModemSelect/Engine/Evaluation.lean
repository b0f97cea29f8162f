import ModemSelect.Engine.Message

namespace ModemSelect.Engine

/-- Drops every trace of a pending switch and says so once. -/
def cancelPending (e : Engine) (clock : Clock) : Outcome where
  engine := e.cleared.note clock (Message.canceled e.target)
  directives := [.cancelPendingValidation]

/-- Cancels only where there is something to cancel. -/
def dropPending (e : Engine) (clock : Clock) : Outcome :=
  if e.hasPending then e.cancelPending clock else { engine := e }

def situation (e : Engine) (default preferred : Nat) : Situation where
  settings := e.settings
  default
  preferred
  standings := e.standings

/-- What the policy says now, or why it cannot be asked. -/
def decide (e : Engine) (phones : Readings) : Except SlotError Decision := do
  let some default := phones.defaultSlot | .error .noDefault
  let preferred := phones.carrier default
  let _ ← e.slots.get default
  let s := e.situation default preferred
  if preferred = default then
    let allows := fun id => ((phones.internet id true).map (·.allowed)).getD false
    pure (s.leaveDefault allows).decision
  else
    let _ ← e.slots.get preferred
    let some userData := phones.userData default | .error (.noPhone default)
    let some verdict := phones.internet preferred false | .error (.noPhone preferred)
    pure (s.returnToDefault userData verdict e.bypassed)

/-- Turns to the pending switch, unless its target is being validated already. A stability check
that already runs for it keeps its deadline. -/
def awaitStability (e : Engine) (clock : Clock) (reason : Reason) (p : Pending) : Engine :=
  if e.validating ∧ e.target = some p.target then e
  else
    let delay := e.settings.stabilityDelay p.performance
    let (timers, result) := e.timers.schedule .stabilityCheck (.stability p) delay clock
    let e := { e with target := some p.target, timers }
    match result with
    | .alreadyScheduled => e
    | .armed _ => e.note clock (Message.stabilityCheck p delay reason)

def apply (e : Engine) (clock : Clock) (reason : Reason) : Decision → Outcome
  | .pending p => { engine := e.awaitStability clock reason p }
  | .immediate target why => {
      engine := e.cleared.note clock (Message.immediate target why reason)
      directives := [.immediateSwitch target why reason] }
  | .noAction => e.dropPending clock

/-- Asks the policy and acts on the answer. With switching off nothing happens, and without a
choice of slots, or when the policy cannot be asked, a pending switch is dropped. -/
def evaluate (e : Engine) (m : Moment) (reason : Reason) : Outcome :=
  if !e.settings.enabled then { engine := e }
  else if !m.phones.leavesChoice then e.dropPending m.clock
  else
    match e.decide m.phones with
    | .ok decision => e.apply m.clock reason decision
    | .error error =>
      (e.note m.clock (Message.aborted reason error)).apply m.clock reason .noAction

/-- A change of scores alone is worth an evaluation when a switch is pending, when some slot now
beats the one that carries data by more than the tolerance, or when the default draws level. -/
def scoreMatters (e : Engine) (phones : Readings) : Bool :=
  if !e.settings.comparesScores then false
  else if e.hasPending then true
  else
    match phones.defaultSlot with
    | none => false
    | some default =>
      match e.standings.find? (·.id == phones.carrier default) with
      | none => true
      | some current =>
        (e.standings.filter (·.id != current.id)).any fun other =>
          other.score - current.score > e.settings.tolerance
            || other.id == default && other.score ≥ current.score

end ModemSelect.Engine
