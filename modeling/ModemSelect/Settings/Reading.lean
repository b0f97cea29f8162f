import ModemSelect.Settings.Draft
import ModemSelect.Toml.Decoding

namespace ModemSelect

open Toml in
def Draft.decodeRows : Decoder (List (String × List Int))
  | .table entries => entries.mapM fun (label, v) =>
    (listOf (signed 32) v).map fun scores => (label, scores)
  | _ => none

open Toml in
def Draft.decodeFeatures (d : Draft) : Decoder Draft := fun v => do
  let f ← fields? ["roaming_switch", "satellite_classification",
    "immediate_fallback_on_disallowed"] v
  let roamingSwitch ← f.optional "roaming_switch" truth
  let satelliteClassification ← f.optional "satellite_classification" truth
  let immediateFallbackOnDisallowed ← f.optional "immediate_fallback_on_disallowed" truth
  some { d with roamingSwitch, satelliteClassification, immediateFallbackOnDisallowed }

open Toml in
def Draft.decode : Decoder Draft := fun v => do
  let f ← fields? ["version", "availability_stability_threshold_ms",
    "performance_stability_threshold_ms", "score_tolerance", "require_ping_validation",
    "allow_roaming_switch", "max_validation_retries", "features", "score_table"] v
  let version ← f.withDefault "version" (unsigned 32) 0
  let availabilityThreshold ← f.optional "availability_stability_threshold_ms" (signed 64)
  let performanceThreshold ← f.optional "performance_stability_threshold_ms" (signed 64)
  let tolerance ← f.optional "score_tolerance" (signed 32)
  let requirePing ← f.optional "require_ping_validation" truth
  let allowRoaming ← f.optional "allow_roaming_switch" truth
  let maxRetries ← f.optional "max_validation_retries" (unsigned 32)
  let d : Draft := {
    version, availabilityThreshold, performanceThreshold, tolerance, requirePing, allowRoaming,
    maxRetries }
  let d ← f.withDefault "features" d.decodeFeatures d
  let rows ← f.withDefault "score_table" Draft.decodeRows []
  some { d with rows }

/-- The settings that a text writes; a blank text stands for the standard ones. -/
def Settings.parse (source : String) : Except SettingsError Settings :=
  if isAllBlank source then .ok {}
  else
    match (Toml.parse source).bind Draft.decode with
    | none => .error .unreadable
    | some draft => draft.resolve

def SettingsError.message? : SettingsError → Option String
  | .unreadable => none
  | .unsupportedVersion version => some s!"unsupported config version {version}"
  | .badRow fault => some fault.message

end ModemSelect
