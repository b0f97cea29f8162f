import ModemSelect.Choice.Leaving
import ModemSelect.Choice.Returning
import ModemSelect.Engine.Event
import ModemSelect.Journal
import ModemSelect.Schedule.Retry
import ModemSelect.Schedule.Timers
import ModemSelect.Slots.Roster

namespace ModemSelect

structure Engine where
  settings : Settings
  /-- Scores in place of the table in the settings. -/
  scorer : Option Scorer := none
  slots : SlotTable
  timers : Timers := {}
  retry : Retry := {}
  /-- The slot that a pending stability check or a running validation is for. -/
  target : Option Nat := none
  /-- A validation was asked for and has not been answered. -/
  validating : Bool := false
  /-- The system's default network bypasses the modems. -/
  bypassed : Bool := false
  journal : Journal := Journal.standard

/-- The moment at which the engine acts: its clock and what the handset reads. -/
structure Moment where
  clock : Clock
  phones : Readings

/-- What came of one act: the engine after it, the directives it gave and the slots it asked to
hear about or no longer. -/
structure Outcome where
  engine : Engine
  directives : List Directive := []
  requests : List Listening := []

def Outcome.andThen (o : Outcome) (next : Engine → Outcome) : Outcome :=
  let n := next o.engine
  { engine := n.engine
    directives := o.directives ++ n.directives
    requests := o.requests ++ n.requests }

/-- Fewer active slots than two leave nothing to choose. -/
def Readings.leavesChoice (phones : Readings) : Bool := 2 ≤ phones.active.size

namespace Engine

def scoring (e : Engine) : Scorer := e.scorer.getD e.settings.scores.score

def standings (e : Engine) : List Standing :=
  e.slots.standings e.settings.features e.scoring

/-- There is something that a cancellation would undo. -/
def hasPending (e : Engine) : Bool :=
  e.target.isSome || e.timers.isScheduled .stabilityCheck || e.timers.isScheduled .evaluate
    || 0 < e.retry.failures

def note (e : Engine) (clock : Clock) (message : String) : Engine :=
  { e with journal := e.journal.push ⟨clock.realtime, message⟩ }

/-- The engine with both timers, the target, the validation and the failures forgotten. -/
def cleared (e : Engine) : Engine :=
  { e with
    timers := ((e.timers.cancel .stabilityCheck).1.cancel .evaluate).1
    retry := e.retry.reset.1
    target := none
    validating := false }

/-- A follower of the given count of slots that follows the active ones from the start. -/
def start (settings : Settings) (scorer : Option Scorer) (count : Nat) (phones : Readings) :
    Outcome :=
  let r := (SlotTable.ofCount count).follow phones.active phones
  { engine := { settings, scorer, slots := r.table }, requests := r.requests }

end Engine

end ModemSelect
