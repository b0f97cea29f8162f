import ModemSelect.Choice.Decision
import ModemSelect.Schedule.Alarms
import ModemSelect.Schedule.Queue
import ModemSelect.Schedule.Reason

namespace ModemSelect

inductive TimerNote where
  | evaluate (reason : Reason)
  | stability (p : Pending)
  deriving DecidableEq

/-- Where a timer is armed: on the queue, or on the alarms that go on through sleep. -/
inductive Backend where
  | deferred
  | alarm
  deriving DecidableEq

instance : Named Backend where
  all := [.deferred, .alarm]
  name
    | .deferred => "deferred"
    | .alarm => "alarm"

namespace Backend

/-- Delays of a minute or more are left to the alarms. -/
def forDelay (delay : Nat) : Backend := if delay < 60000 then .deferred else .alarm

def timeBase : Backend → TimeBase
  | .deferred => .uptime
  | .alarm => .realtime

end Backend

/-- The record of an armed timer; its deadline is on the clock of its backend. -/
structure Scheduled where
  note : TimerNote
  backend : Backend
  delay : Nat
  deadline : Nat
  deriving DecidableEq

/-- The two timers: what is recorded of each and the deadlines held for it. -/
structure Timers where
  queue : Queue := {}
  alarms : Alarms := {}
  records : PerTimer (Option Scheduled) := ⟨none, none⟩
  deriving DecidableEq

/-- What became of a request to schedule. -/
inductive ScheduleResult where
  | armed (backend : Backend)
  | alreadyScheduled
  deriving DecidableEq

namespace Timers

def record? (t : Timers) (key : TimerKey) : Option Scheduled := t.records.get key

def isScheduled (t : Timers) (key : TimerKey) : Bool := (t.record? key).isSome

/-- The recorded timers in their order. -/
def scheduled (t : Timers) : List (TimerKey × Scheduled) :=
  TimerKey.all.filterMap fun key => (t.record? key).map fun s => (key, s)

def isArmedOn (t : Timers) (backend : Backend) (key : TimerKey) : Bool :=
  match backend with
  | .deferred => t.queue.isArmed key
  | .alarm => t.alarms.isArmed key

def deadlineOn? (t : Timers) (backend : Backend) (key : TimerKey) : Option Nat :=
  match backend with
  | .deferred => t.queue.deadline? key
  | .alarm => t.alarms.deadline? key

/-- Clears the timer on both backends, wherever it was armed, and tells whether anything was held
for it, recorded or not. -/
def cancel (t : Timers) (key : TimerKey) : Timers × Bool :=
  let (queue, deferred) := t.queue.disarm key
  let (alarms, alarm) := t.alarms.disarm key
  let recorded := t.isScheduled key
  ({ queue, alarms, records := t.records.set key none }, deferred || alarm || recorded)

/-- Arms the timer afresh on the backend for its delay. -/
def arm (t : Timers) (key : TimerKey) (note : TimerNote) (delay : Nat) (clock : Clock) : Timers :=
  let backend := Backend.forDelay delay
  let deadline := Clock.deadline (clock.now backend.timeBase) delay
  let (t, _) := t.cancel key
  let t := { t with records := t.records.set key (some ⟨note, backend, delay, deadline⟩) }
  match backend with
  | .deferred => { t with queue := t.queue.arm key deadline }
  | .alarm => { t with alarms := t.alarms.arm key deadline }

/-- The timer is recorded with just this note. -/
def carries (t : Timers) (key : TimerKey) (note : TimerNote) : Bool :=
  match t.record? key with
  | some s => s.note == note
  | none => false

/-- A timer that already carries the note keeps its deadline; any other is replaced. -/
def schedule (t : Timers) (key : TimerKey) (note : TimerNote) (delay : Nat) (clock : Clock) :
    Timers × ScheduleResult :=
  if t.carries key note then (t, .alreadyScheduled)
  else (t.arm key note delay clock, .armed (Backend.forDelay delay))

/-- Takes the timer off the record; one without a record is passed over. -/
def claim (t : Timers) (key : TimerKey) : Timers × Option (TimerKey × TimerNote) :=
  match t.record? key with
  | some s => ({ t with records := t.records.set key none }, some (key, s.note))
  | none => (t, none)

def claimAll (t : Timers) : List TimerKey → Timers × List (TimerKey × TimerNote)
  | [] => (t, [])
  | key :: rest =>
    let (t, first) := t.claim key
    let (t, later) := t.claimAll rest
    (t, first.toList ++ later)

def dueKeys (t : Timers) (clock : Clock) : List TimerKey :=
  t.queue.due clock.uptime ++ t.alarms.due clock.realtime

/-- Takes every due timer off its backend, those of the queue first, and delivers the notes of the
recorded ones. -/
def fireDue (t : Timers) (clock : Clock) : Timers × List (TimerKey × TimerNote) :=
  let due := t.dueKeys clock
  let t := { t with
    queue := t.queue.dropDue clock.uptime
    alarms := t.alarms.dropDue clock.realtime }
  t.claimAll due

/-- The time until the earliest deadline, zero once it has passed. -/
def nextWakeup (t : Timers) (clock : Clock) : Option Nat :=
  let queue := t.queue.nextDeadline.map (· - clock.uptime)
  let alarm := t.alarms.nextDeadline.map (· - clock.realtime)
  (queue.toList ++ alarm.toList).min?

/-- A bound on how often timers can fire from here without more time passing: an evaluation that
fires may arm one stability check, which arms nothing. -/
def load (t : Timers) : Nat :=
  let weight (key : TimerKey) (n : Nat) :=
    (if t.queue.isArmed key then n else 0) + (if t.alarms.isArmed key then n else 0)
  weight .evaluate 2 + weight .stabilityCheck 1

end Timers

end ModemSelect
