import ModemSelect.Schedule.Key

namespace ModemSelect

/-- Deadlines on the uptime clock, at most one for each timer. -/
structure Queue where
  deadlines : PerTimer (Option Nat) := ⟨none, none⟩
  deriving DecidableEq

namespace Queue

def deadline? (q : Queue) (key : TimerKey) : Option Nat := q.deadlines.get key

def isArmed (q : Queue) (key : TimerKey) : Bool := (q.deadline? key).isSome

def arm (q : Queue) (key : TimerKey) (deadline : Nat) : Queue :=
  ⟨q.deadlines.set key (some deadline)⟩

/-- Clears the deadline of the timer and tells whether there was one. -/
def disarm (q : Queue) (key : TimerKey) : Queue × Bool :=
  (⟨q.deadlines.set key none⟩, (q.deadlines.get key).isSome)

def nextDeadline (q : Queue) : Option Nat := (TimerKey.all.filterMap q.deadline?).min?

/-- The timers due by now, earliest deadline first and otherwise in the order of the timers. -/
def due (q : Queue) (now : Nat) : List TimerKey :=
  let entries := TimerKey.all.filterMap fun key => (q.deadline? key).map fun d => (d, key)
  ((entries.filter fun e => e.1 ≤ now).mergeSort fun a b => a.1 ≤ b.1).map (·.2)

def dropDue (q : Queue) (now : Nat) : Queue := (q.due now).foldl (fun q key => (q.disarm key).1) q

theorem deadline?_arm (q : Queue) (key k : TimerKey) (d : Nat) :
    (q.arm key d).deadline? k = if k = key then some d else q.deadline? k :=
  PerTimer.get_set ..

theorem snd_disarm (q : Queue) (key : TimerKey) : (q.disarm key).2 = q.isArmed key := rfl

theorem deadline?_disarm (q : Queue) (key k : TimerKey) :
    (q.disarm key).1.deadline? k = if k = key then none else q.deadline? k :=
  PerTimer.get_set ..

end Queue

end ModemSelect
