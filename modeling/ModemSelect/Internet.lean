import ModemSelect.Text

namespace ModemSelect

inductive Refusal where
  | notInService
  | dataDisabled
  | roamingDisabled
  | simNotReady
  | concurrentVoiceData
  | restrictedByNetwork
  | noSuitableDataProfile
  deriving DecidableEq

instance : Named Refusal where
  all := [.notInService, .dataDisabled, .roamingDisabled, .simNotReady, .concurrentVoiceData,
    .restrictedByNetwork, .noSuitableDataProfile]
  name
    | .notInService => "not_in_service"
    | .dataDisabled => "data_disabled"
    | .roamingDisabled => "roaming_disabled"
    | .simNotReady => "sim_not_ready"
    | .concurrentVoiceData => "concurrent_voice_data"
    | .restrictedByNetwork => "restricted_by_network"
    | .noSuitableDataProfile => "no_suitable_data_profile"

/-- The answer to whether internet is allowed on a slot: the set of reasons against it. -/
structure Verdict where
  refusals : List Refusal
  deriving DecidableEq

namespace Verdict

def ofReasons (reasons : List Refusal) : Verdict := ⟨Named.distinct reasons⟩

def allowed (verdict : Verdict) : Bool := verdict.refusals.isEmpty

/-- No reason but the given one speaks against the slot. -/
def onlyFor (verdict : Verdict) (reason : Refusal) : Bool :=
  verdict.refusals.all (· == reason)

end Verdict

inductive Transport where
  | cellular
  | wifi
  | ethernet
  | bluetooth
  | satellite
  deriving DecidableEq

instance : Named Transport where
  all := [.cellular, .wifi, .ethernet, .bluetooth, .satellite]
  name
    | .cellular => "cellular"
    | .wifi => "wifi"
    | .ethernet => "ethernet"
    | .bluetooth => "bluetooth"
    | .satellite => "satellite"

/-- A modem carries the transport. -/
def Transport.isModem : Transport → Bool
  | .cellular | .satellite => true
  | .wifi | .ethernet | .bluetooth => false

/-- The system's default network: its set of transports and whether it reaches the internet. -/
structure DefaultNetwork where
  transports : List Transport
  hasInternet : Bool
  deriving DecidableEq

namespace DefaultNetwork

def ofTransports (transports : List Transport) (hasInternet : Bool) : DefaultNetwork :=
  ⟨Named.distinct transports, hasInternet⟩

/-- Internet over something other than a modem. -/
def bypassesModems (network : DefaultNetwork) : Bool :=
  network.hasInternet && network.transports.any fun t => !t.isModem

end DefaultNetwork

end ModemSelect
