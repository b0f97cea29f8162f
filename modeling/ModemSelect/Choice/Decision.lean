import ModemSelect.Slots.Modem

namespace ModemSelect

/-- A switch that waits for its stability check. -/
structure Pending where
  target : Nat
  performance : Bool
  needsValidation : Bool
  deriving DecidableEq

/-- Why a switch does not wait. -/
inductive Urgency where
  | defaultDataDisabled
  | alternateDisallowed
  deriving DecidableEq

instance : Named Urgency where
  all := [.defaultDataDisabled, .alternateDisallowed]
  name
    | .defaultDataDisabled => "default_data_disabled"
    | .alternateDisallowed => "alternate_disallowed"

/-- What the policy makes of the standings. -/
inductive Decision where
  | pending (p : Pending)
  | immediate (target : Nat) (why : Urgency)
  | noAction
  deriving DecidableEq

/-- What a decision is made from: the settings, who is the default, who carries data and how the
slots stand. -/
structure Situation where
  settings : Settings
  default : Nat
  preferred : Nat
  standings : List Standing

def Situation.standing? (s : Situation) (id : Nat) : Option Standing :=
  s.standings.find? (·.id == id)

end ModemSelect
