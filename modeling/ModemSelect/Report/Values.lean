import ModemSelect.Json
import ModemSelect.Slots.Modem

namespace ModemSelect

def Json.named {α : Type} [Named α] (a : α) : Json := .str (Named.name a)

def Json.names {α : Type} [Named α] (xs : List α) : Json := .ofList Json.named xs

def Registration.toJson (r : Registration) : Json :=
  .obj [("state", .named r.state), ("non_terrestrial", .bool r.nonTerrestrial)]

def Display.toJson (d : Display) : Json :=
  .obj [("network_type", .named d.networkType), ("override_type", .named d.overrideType)]

def Signal.toJson (s : Signal) : Json :=
  .obj [("level", .ofNat s.level.val), ("rsrp_dbm", .ofOption .num s.rsrpDbm)]

def Snapshot.members (s : Snapshot) : List (String × Json) :=
  [("registration", s.registration.toJson), ("display", s.display.toJson),
    ("signal", s.signal.toJson), ("roaming_data_enabled", .bool s.roamingData)]

def Snapshot.toJson (s : Snapshot) : Json := .obj s.members

def Modem.toJson (m : Modem) : Json := .obj (("id", .ofNat m.id) :: m.known.members)

def Standing.toJson (s : Standing) : Json :=
  .obj [("id", .ofNat s.id), ("registration", .named s.state), ("usable", .named s.usable),
    ("score", .num s.score)]

def ScoreRow.toJson (row : ScoreRow) : Json := .ofList .num row.toList

/-- The rows that there are, in the order of the classes. -/
def ScoreTable.toJson (table : ScoreTable) : Json :=
  let rows := (Named.all : List Access).filterMap fun access =>
    (table.row access).map fun row => (access.reportKey, ScoreRow.toJson row)
  .obj [("rows", .obj rows)]

def Features.toJson (f : Features) : Json :=
  .obj [("roaming_switch", .bool f.roamingSwitch),
    ("satellite_classification", .bool f.satelliteClassification),
    ("immediate_fallback_on_disallowed", .bool f.immediateFallbackOnDisallowed)]

def Settings.toJson (s : Settings) : Json :=
  .obj [("availability_stability_threshold_ms", .num s.availabilityThreshold),
    ("performance_stability_threshold_ms", .num s.performanceThreshold),
    ("score_tolerance", .num s.tolerance),
    ("require_ping_validation", .bool s.requirePing),
    ("allow_roaming_switch", .bool s.allowRoaming),
    ("max_validation_retries", .ofNat s.maxRetries),
    ("features", s.features.toJson),
    ("score_table", s.scores.toJson)]

end ModemSelect
