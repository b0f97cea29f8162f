import ModemSelect.Radio.ScoreTable

namespace ModemSelect

structure Features where
  roamingSwitch : Bool := true
  satelliteClassification : Bool := true
  immediateFallbackOnDisallowed : Bool := true
  deriving DecidableEq

/-- The carrier settings in force. Thresholds are debounce times in milliseconds, and a negative
one turns its kind of switch off, as does a negative tolerance. -/
structure Settings where
  availabilityThreshold : Int := 10000
  performanceThreshold : Int := 120000
  tolerance : Int := 100
  requirePing : Bool := true
  allowRoaming : Bool := true
  maxRetries : Nat := 7
  features : Features := {}
  scores : ScoreTable := ScoreTable.standard

namespace Settings

/-- Automatic switching is on at all. -/
def enabled (s : Settings) : Bool := 0 ≤ s.availabilityThreshold

def comparesScores (s : Settings) : Bool := 0 ≤ s.performanceThreshold && 0 ≤ s.tolerance

/-- Roaming and satellite slots take part in decisions. -/
def comparesRoaming (s : Settings) : Bool := s.allowRoaming && s.features.roamingSwitch

/-- The debounce of a switch, by whether it is one for performance. -/
def stabilityDelay (s : Settings) (performance : Bool) : Nat :=
  if performance then s.performanceThreshold.toNat else s.availabilityThreshold.toNat

end Settings

end ModemSelect
