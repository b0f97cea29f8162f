import ModemSelect.Report.Engine
import ModemSelect.Scenario.Reading

namespace ModemSelect

def TimedDirective.toJson (d : TimedDirective) : Json :=
  .obj (("at_ms", .ofNat d.time) :: d.directive.members)

namespace Player

def dump (p : Player) : String := p.rig.engine.dump p.rig.clock

/-- What is printed of a scenario that was played: a line for each directive and, if asked for,
the report of the engine. -/
def output (p : Player) (withDump : Bool) : String :=
  let lines := p.trace.map fun d => d.toJson.compact ++ "\n"
  String.join lines ++ if withDump then p.dump ++ "\n" else ""

end Player

end ModemSelect
