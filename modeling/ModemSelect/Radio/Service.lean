import ModemSelect.Text

namespace ModemSelect

inductive ServiceState where
  | home
  | roaming
  | outOfService
  | unknown
  deriving DecidableEq

instance : Named ServiceState where
  all := [.home, .roaming, .outOfService, .unknown]
  name
    | .home => "home"
    | .roaming => "roaming"
    | .outOfService => "out_of_service"
    | .unknown => "unknown"

def ServiceState.isInService : ServiceState → Bool
  | .home | .roaming => true
  | .outOfService | .unknown => false

/-- The service state with the satellite mark reported beside it. -/
structure Registration where
  state : ServiceState := .unknown
  nonTerrestrial : Bool := false
  deriving DecidableEq

end ModemSelect
