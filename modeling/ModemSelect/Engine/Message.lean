import ModemSelect.Engine.Basic

namespace ModemSelect.Message

private def flag (b : Bool) : String := if b then "true" else "false"

private def slots (ids : List Nat) : String :=
  "[" ++ ", ".intercalate (ids.map toString) ++ "]"

private def slot? : Option Nat → String
  | some id => s!"Some({id})"
  | none => "None"

private def urgency : Urgency → String
  | .defaultDataDisabled => "DefaultDataDisabled"
  | .alternateDisallowed => "AlternateDisallowed"

def newsDropped (e : SlotError) : String := s!"signal update dropped: {e.message}"

def defaultNetwork (bypassed : Bool) : String :=
  s!"default network on non-cellular: {flag bypassed}"

def listening (c : RosterChange) : String :=
  s!"listening: started {slots c.started} stopped {slots c.stopped}"

def modemCount (count : Nat) (c : RosterChange) : String :=
  s!"modem count {count}: started {slots c.started} stopped {slots c.stopped}"

def settingsUpdated : String := "configuration updated"

def aborted (reason : Reason) (e : SlotError) : String :=
  s!"evaluation aborted ({Named.name reason}): {e.message}"

def immediate (target : Nat) (why : Urgency) (reason : Reason) : String :=
  s!"immediate switch to {target}: {urgency why} ({Named.name reason})"

def stabilityCheck (p : Pending) (delay : Nat) (reason : Reason) : String :=
  s!"stability check for {p.target}: performance={flag p.performance} " ++
    s!"validation={flag p.needsValidation} in {delay}ms ({Named.name reason})"

def requireValidation (p : Pending) : String :=
  s!"require validation on {p.target}: validation={flag p.needsValidation}"

def retry (attempt delay : Nat) : String :=
  s!"validation failed: retry {attempt} in {delay}ms"

def exhausted : String := "validation failed: retries exhausted"

def completed (target : Option Nat) : String := s!"switch completed: {slot? target}"

def canceled (target : Option Nat) : String := s!"cancel pending switch: {slot? target}"

end ModemSelect.Message
