import ModemSelect.Choice.Decision

namespace ModemSelect

namespace Standing

/-- The candidate scores higher by more than the tolerance. -/
def outscores (candidate : Standing) (settings : Settings) (current : Standing) : Bool :=
  candidate.score - current.score > settings.tolerance

/-- Whether the candidate is worth leaving the default for, and then whether for performance.

While roaming slots are compared, a better rank wins, and among usable slots of one rank a better
score. Otherwise only a slot at home is eligible, by its score or, where scores are not compared,
because the default is not at home; a default without service scores 0, so that leaving it is not
a matter of performance. -/
def challenge (candidate : Standing) (settings : Settings) (current : Standing) : Option Bool :=
  if settings.comparesRoaming then
    if candidate.usable.rank > current.usable.rank then some false
    else if settings.comparesScores && candidate.usable.rank == current.usable.rank
        && candidate.usable.isUsable && candidate.outscores settings current then some true
    else none
  else if candidate.state != .home then none
  else if settings.comparesScores then
    if candidate.outscores settings current then some current.state.isInService else none
  else if current.state != .home then some false
  else none

/-- Better standings first: by rank, then score, then the lower slot. -/
def precedes (a b : Standing) : Bool :=
  a.usable.rank > b.usable.rank || a.usable.rank == b.usable.rank &&
    (a.score > b.score || a.score == b.score && a.id ≤ b.id)

end Standing

namespace Situation

/-- The slots worth leaving the default for, best first, each with whether for performance. -/
def challengers (s : Situation) (current : Standing) : List (Standing × Bool) :=
  let qualified := (s.standings.filter (·.id != current.id)).filterMap fun candidate =>
    (candidate.challenge s.settings current).map fun performance => (candidate, performance)
  qualified.mergeSort fun a b => a.1.precedes b.1

/-- A decision together with the slots that were asked whether they allow internet. -/
structure Answered where
  decision : Decision
  asked : List Nat
  deriving DecidableEq

def firstAllowed (needsValidation : Bool) (allows : Nat → Bool) :
    List (Standing × Bool) → Answered
  | [] => ⟨.noAction, []⟩
  | (candidate, performance) :: rest =>
    if allows candidate.id then
      ⟨.pending ⟨candidate.id, performance, needsValidation⟩, [candidate.id]⟩
    else
      let later := firstAllowed needsValidation allows rest
      { later with asked := candidate.id :: later.asked }

/-- The decision while the default carries data: to leave it for the best challenger that allows
internet. -/
def leaveDefault (s : Situation) (allows : Nat → Bool) : Answered :=
  match s.standing? s.default with
  | none => ⟨.noAction, []⟩
  | some current => firstAllowed s.settings.requirePing allows (s.challengers current)

end Situation

end ModemSelect
