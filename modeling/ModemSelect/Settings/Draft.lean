import ModemSelect.Settings.Basic

namespace ModemSelect

inductive SettingsError where
  | unreadable
  | unsupportedVersion (version : Nat)
  | badRow (fault : ScoreTable.RowFault)
  deriving DecidableEq

def ScoreTable.RowFault.message : ScoreTable.RowFault → String
  | .unknownRat label => s!"unknown RAT `{label}` in score table"
  | .wrongLength label length => s!"score row for {label}: expected 5 levels, got {length}"
  | .decreasing label => s!"score row for {label}: scores must not decrease with signal level"

/-- Settings as they are written: a field that is left out takes its default, and version 0 stands
for the current one. -/
structure Draft where
  version : Nat := 0
  availabilityThreshold : Option Int := none
  performanceThreshold : Option Int := none
  tolerance : Option Int := none
  requirePing : Option Bool := none
  allowRoaming : Option Bool := none
  maxRetries : Option Nat := none
  roamingSwitch : Option Bool := none
  satelliteClassification : Option Bool := none
  immediateFallbackOnDisallowed : Option Bool := none
  rows : List (String × List Int) := []

namespace Draft

/-- Rows are read in the order of their labels. -/
def sortedRows (draft : Draft) : List (String × List Int) :=
  draft.rows.mergeSort fun a b => a.1 ≤ b.1

/-- The written rows replace the standard table as a whole. -/
def table (draft : Draft) : Except ScoreTable.RowFault ScoreTable :=
  if draft.rows.isEmpty then .ok ScoreTable.standard
  else ScoreTable.ofRows draft.sortedRows

def features (draft : Draft) : Features where
  roamingSwitch := draft.roamingSwitch.getD true
  satelliteClassification := draft.satelliteClassification.getD true
  immediateFallbackOnDisallowed := draft.immediateFallbackOnDisallowed.getD true

/-- The version is checked before the rows. -/
def resolve (draft : Draft) : Except SettingsError Settings :=
  if draft.version = 0 ∨ draft.version = 1 then
    match draft.table with
    | .error fault => .error (.badRow fault)
    | .ok table =>
      let standard : Settings := {}
      .ok {
        availabilityThreshold := draft.availabilityThreshold.getD standard.availabilityThreshold
        performanceThreshold := draft.performanceThreshold.getD standard.performanceThreshold
        tolerance := draft.tolerance.getD standard.tolerance
        requirePing := draft.requirePing.getD standard.requirePing
        allowRoaming := draft.allowRoaming.getD standard.allowRoaming
        maxRetries := draft.maxRetries.getD standard.maxRetries
        features := draft.features
        scores := table }
  else .error (.unsupportedVersion draft.version)

end Draft

end ModemSelect
