import ModemSelect.Scenario.Player
import ModemSelect.Settings.Reading

namespace ModemSelect

open Toml in
def PhonePlan.decode : Decoder PhonePlan := fun v => do
  let f ← fields? ["slot", "registration", "satellite", "network", "override_type", "level",
    "roaming_data", "user_data"] v
  let slot ← f.required "slot" (unsigned 64)
  let state ← f.withDefault "registration" looseChoice .home
  let satellite ← f.withDefault "satellite" truth false
  let network ← f.withDefault "network" looseChoice .lte
  let overrideType ← f.withDefault "override_type" looseChoice .none
  let level ← f.withDefault "level" (unsigned 8) 2
  let roamingData ← f.withDefault "roaming_data" truth true
  let userData ← f.withDefault "user_data" truth true
  some { slot, state, satellite, network, overrideType, level, roamingData, userData }

open Toml in
/-- The action of a step by its name; its fields stand beside the name. -/
def Action.decode (name : String) (f : Fields) : Option Action :=
  let slot := f.required "slot" (unsigned 64)
  let enabled := f.required "enabled" truth
  match name with
  | "registration" => do
    some (.registration (← slot) (← f.required "state" choice)
      (← f.withDefault "satellite" truth false))
  | "signal" => do some (.signal (← slot) (← f.required "level" (unsigned 8)))
  | "display" => do
    let networkType ← f.required "network" choice
    let overrideType ← f.withDefault "override_type" choice .none
    some (.display (← slot) { networkType, overrideType })
  | "user_data" => do some (.userData (← slot) (← enabled))
  | "roaming_data" => do some (.roamingData (← slot) (← enabled))
  | "restrict" => do
    some (.restrict (← slot) (← f.withDefault "reasons" (listOf choice) []))
  | "subscriptions" => do some (.subscriptions (← f.required "active" (listOf (unsigned 64))))
  | "modem_count" => do some (.modemCount (← f.required "count" (unsigned 64)))
  | "default_candidate" => do some (.defaultCandidate (← f.optional "slot" (unsigned 64)))
  | "default_network" => do
    some (.defaultNetwork (← f.withDefault "transports" (listOf choice) [])
      (← f.withDefault "has_internet" truth false))
  | "validation" => do some (.validation (← f.required "result" choice))
  | "evaluate" => some .evaluate
  | "cancel" => some .cancel
  | "suspend" => do some (.suspend (← f.required "ms" (unsigned 64)))
  | _ => none

open Toml in
def Step.decode : Decoder Step := fun v =>
  match v with
  | .table entries => do
    let f : Fields := entries
    let time ← f.required "at_ms" (unsigned 64)
    let action ← Action.decode (← f.required "action" text) f
    if v.fitsWord then some { time, action } else none
  | _ => none

namespace Scenario

open Toml in
def decode : Decoder Scenario := fun v => do
  let f ← fields? ["slots", "default", "preferred", "active", "config", "phones", "steps",
    "run_until_ms"] v
  let slots ← f.withDefault "slots" (unsigned 64) 2
  let default ← f.optional "default" (unsigned 64)
  let preferred ← f.optional "preferred" (unsigned 64)
  let active ← f.withDefault "active" (listOf (unsigned 64)) []
  let draft ← f.withDefault "config" Draft.decode {}
  let phones ← f.withDefault "phones" (listOf PhonePlan.decode) []
  let steps ← f.withDefault "steps" (listOf Step.decode) []
  let runUntil ← f.optional "run_until_ms" (unsigned 64)
  some { slots, default, preferred, active, draft, phones, steps, runUntil }

/-- The scenario that a text writes, if it can be played. -/
def parse (source : String) : Except ScenarioError Scenario :=
  match (Toml.parse source).bind decode with
  | none => .error .unreadable
  | some s =>
    match s.fault? with
    | some fault => .error fault
    | none => .ok s

/-- The settings to play a scenario with: those of another text, or its own. -/
def settings (s : Scenario) : Option String → Except SettingsError Settings
  | some source => Settings.parse source
  | none => s.draft.resolve

end Scenario

def Player.playText (source : String) (settings : Option String) :
    Except ScenarioError Player :=
  match Scenario.parse source with
  | .error e => .error e
  | .ok s =>
    match s.settings settings with
    | .error e => .error (.settings e)
    | .ok settings => .ok (run s settings)

end ModemSelect
