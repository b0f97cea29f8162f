import ModemSelect.Report.Trace

namespace ModemSelect

structure CommandLine where
  scenario : Option String := none
  settings : Option String := none
  dump : Bool := false

def CommandLine.parse (c : CommandLine) : List String → Option CommandLine
  | [] => some c
  | "--dump" :: rest => if c.dump then none else { c with dump := true }.parse rest
  | "--config" :: path :: rest =>
    if c.settings.isSome then none else { c with settings := some path }.parse rest
  | path :: rest =>
    if c.scenario.isSome || path.startsWith "-" then none
    else { c with scenario := some path }.parse rest

end ModemSelect

open ModemSelect in
/-- Plays the scenario in a file and prints the directives it led to. -/
def main (args : List String) : IO UInt32 := do
  let usage := "usage: modem-select SCENARIO [--config FILE] [--dump]"
  let some c := CommandLine.parse {} args | IO.eprintln usage; return 2
  let some path := c.scenario | IO.eprintln usage; return 2
  try
    let source ← IO.FS.readFile path
    let settings ← match c.settings with
      | none => pure none
      | some path => do pure (some (← IO.FS.readFile path))
    match Player.playText source settings with
    | .error _ => IO.eprintln s!"cannot play {path}"; return 1
    | .ok p => IO.print (p.output c.dump); return 0
  catch e => IO.eprintln (toString e); return 1
