import ModemSelect.Choice.Decision
import ModemSelect.Handset.Readings
import ModemSelect.Schedule.Reason

namespace ModemSelect

inductive Event where
  | news (id : Nat) (update : Update)
  | dataSettingsChanged (id : Nat)
  | evaluationRequested (reason : Reason)
  /-- The system's default network, none while there is none. -/
  | defaultNetworkChanged (network : Option DefaultNetwork)
  | subscriptionsChanged
  | modemCountChanged (count : Nat)
  | settingsChanged (settings : Settings)
  | validationFailed
  /-- Validation passed and data has moved. -/
  | validationSucceeded
  | cancelPendingSwitch

inductive Directive where
  /-- Data is to move to the target, after a probe when it needs validation. -/
  | validationRequired (target : Nat) (needsValidation : Bool)
  /-- Data is to move to the target at once. -/
  | immediateSwitch (target : Nat) (why : Urgency) (trigger : Reason)
  /-- Whatever validation is under way is to end. -/
  | cancelPendingValidation
  deriving DecidableEq

def Update.reason : Update → Reason
  | .registration _ => .registrationChanged
  | .display _ => .displayInfoChanged
  | .signal _ => .signalChanged
  | .roamingData _ => .dataSettingsChanged

end ModemSelect
