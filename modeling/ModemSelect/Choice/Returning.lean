import ModemSelect.Choice.Decision
import ModemSelect.Internet

namespace ModemSelect

namespace Situation

/-- The default takes data back once it scores at least as well. Leaving it takes more than the
tolerance, so that data does not flap between the two. -/
def defaultRegains (default current : Standing) : Bool := default.score ≥ current.score

def back (s : Situation) (performance needsValidation : Bool) : Decision :=
  .pending ⟨s.default, performance, needsValidation⟩

/-- The comparison of the default with the slot that carries data. -/
def weighReturn (s : Situation) (default current : Standing) : Decision :=
  let ping := s.settings.requirePing
  if s.settings.comparesRoaming then
    if current.usable.rank < default.usable.rank then
      s.back false (current.usable.isUsable && ping)
    else if current.usable.rank > default.usable.rank then .noAction
    else if !current.usable.isUsable then s.back false false
    else if !s.settings.comparesScores then s.back false ping
    else if defaultRegains default current then s.back true ping
    else .noAction
  else if current.state != .home then s.back false false
  else if s.settings.comparesScores then
    if default.state.isInService && defaultRegains default current then s.back true ping
    else .noAction
  else if default.state == .home then s.back false ping
  else .noAction

/-- The decision while an alternate carries data. It goes back at once when the user turned data
off on the default, or when the alternate is refused internet for more than missing service; a
default network that bypasses the modems asks for no comparison. -/
def returnToDefault (s : Situation) (userData : Bool) (verdict : Verdict)
    (bypassed : Bool) : Decision :=
  if !userData then .immediate s.default .defaultDataDisabled
  else if s.settings.features.immediateFallbackOnDisallowed
      && !verdict.onlyFor .notInService then
    .immediate s.default .alternateDisallowed
  else
    match s.standing? s.default, s.standing? s.preferred with
    | some default, some current =>
      if bypassed then s.back false false else s.weighReturn default current
    | _, _ => .noAction

end Situation

end ModemSelect
