import ModemSelect.Engine.Evaluation

namespace ModemSelect

/-- What the engine makes of an event: what is done at once and, where an evaluation follows, the
reason for it. -/
structure Uptake where
  done : Outcome
  reason : Option Reason := none

def Uptake.complete (u : Uptake) (m : Moment) : Outcome :=
  match u.reason with
  | none => u.done
  | some reason => u.done.andThen fun e => e.evaluate m reason

namespace Engine

/-- News is taken in first. It leads to an evaluation only where it can change the ranking. -/
def hear (e : Engine) (m : Moment) (id : Nat) (update : Update) : Uptake :=
  match e.slots.learn id update with
  | .error (.untracked _) => { done := { engine := e } }
  | .error error => { done := { engine := e.note m.clock (Message.newsDropped error) } }
  | .ok (slots, isNews) =>
    let e := { e with slots }
    if !isNews then { done := { engine := e } }
    else if update.onlyScore && !e.scoreMatters m.phones then { done := { engine := e } }
    else { done := { engine := e }, reason := update.reason }

/-- The roaming switch of a followed slot is read again before the evaluation. -/
def rereadRoaming (e : Engine) (phones : Readings) (id : Nat) : Engine :=
  if e.slots.isTracked id then
    match phones.roamingData id with
    | none => e
    | some enabled =>
      match e.slots.learn id (.roamingData enabled) with
      | .error _ => e
      | .ok (slots, _) => { e with slots }
  else e

def setDefaultNetwork (e : Engine) (m : Moment) (network : Option DefaultNetwork) : Uptake :=
  let bypassed := (network.map (·.bypassesModems)).getD false
  if bypassed = e.bypassed then { done := { engine := e } }
  else
    let e := { e with bypassed }
    { done := { engine := e.note m.clock (Message.defaultNetwork bypassed) }
      reason := some .defaultNetworkChanged }

def followActive (e : Engine) (m : Moment) : Uptake :=
  let r := e.slots.follow m.phones.active m.phones
  let e := { e with slots := r.table }
  let e := if r.change.isEmpty then e else e.note m.clock (Message.listening r.change)
  { done := { engine := e, requests := r.requests }, reason := some .subscriptionsChanged }

def setModemCount (e : Engine) (m : Moment) (count : Nat) : Uptake :=
  let r := e.slots.followResized count m.phones.active m.phones
  let e := { e with slots := r.table }
  let e := e.note m.clock (Message.modemCount count r.change)
  { done := { engine := e, requests := r.requests }, reason := some .subscriptionsChanged }

def setSettings (e : Engine) (m : Moment) (settings : Settings) : Uptake :=
  let e := { e with settings }.note m.clock Message.settingsUpdated
  if settings.enabled then { done := { engine := e }, reason := some .carrierConfigChanged }
  else { done := e.dropPending m.clock }

/-- A failed validation is retried after a backoff; a retry that is already on its way keeps its
time. When retries are used up the target is given up. -/
def failValidation (e : Engine) (clock : Clock) : Engine :=
  let (retry, answer) := e.retry.fail e.settings.maxRetries (e.settings.stabilityDelay false)
  let e := { e with validating := false, retry }
  match answer with
  | .retry attempt delay =>
    let (timers, _) := e.timers.schedule .evaluate (.evaluate .retryValidation) delay clock
    { e with timers }.note clock (Message.retry attempt delay)
  | .exhausted =>
    { e with target := none, timers := (e.timers.cancel .evaluate).1 }.note clock Message.exhausted

/-- The switch is done; a stability check for another one goes on. -/
def completeSwitch (e : Engine) (clock : Clock) : Engine :=
  { e with
    target := none
    validating := false
    retry := e.retry.reset.1
    timers := (e.timers.cancel .evaluate).1 }.note clock (Message.completed e.target)

def takeUp (e : Engine) (m : Moment) : Event → Uptake
  | .news id update => e.hear m id update
  | .dataSettingsChanged id =>
    { done := { engine := e.rereadRoaming m.phones id }, reason := some .dataSettingsChanged }
  | .evaluationRequested reason => { done := { engine := e }, reason := some reason }
  | .defaultNetworkChanged network => e.setDefaultNetwork m network
  | .subscriptionsChanged => e.followActive m
  | .modemCountChanged count => e.setModemCount m count
  | .settingsChanged settings => e.setSettings m settings
  | .validationFailed => { done := { engine := e.failValidation m.clock } }
  | .validationSucceeded => { done := { engine := e.completeSwitch m.clock } }
  | .cancelPendingSwitch => { done := e.cancelPending m.clock }

def handle (e : Engine) (m : Moment) (event : Event) : Outcome := (e.takeUp m event).complete m

/-- The debounce is over: the target is to be validated, if switching is still possible. -/
def passStability (e : Engine) (m : Moment) (p : Pending) : Outcome :=
  if e.settings.enabled && m.phones.leavesChoice then {
    engine := { e with target := some p.target, validating := true }.note m.clock
      (Message.requireValidation p)
    directives := [.validationRequired p.target p.needsValidation] }
  else e.cancelPending m.clock

def deliver (e : Engine) (m : Moment) : TimerNote → Outcome
  | .stability p => e.passStability m p
  | .evaluate reason => e.evaluate m reason

/-- Takes every due timer off the clock and then delivers their notes in turn; the count of the
timers fired comes with it. -/
def poll (e : Engine) (m : Moment) : Outcome × Nat :=
  let (timers, fired) := e.timers.fireDue m.clock
  let o := fired.foldl (fun (o : Outcome) note => o.andThen fun e => e.deliver m note.2)
    { engine := { e with timers } }
  (o, fired.length)

def nextWakeup (e : Engine) (clock : Clock) : Option Nat := e.timers.nextWakeup clock

end Engine

end ModemSelect
