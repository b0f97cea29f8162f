import ModemSelect.Schedule.Key

namespace ModemSelect

/-- An alarm that is set: the listener it will call and when. -/
structure Alarm where
  listener : Nat
  deadline : Nat
  deriving DecidableEq

/-- Alarms on the realtime clock. Each timer gets a listener when it is first armed and keeps it
for good; listeners are numbered in that order, and each has at most one alarm set. -/
structure Alarms where
  listeners : List TimerKey := []
  outstanding : List Alarm := []
  deriving DecidableEq

namespace Alarms

def listener? (a : Alarms) (key : TimerKey) : Option Nat := a.listeners.findIdx? (· == key)

def alarm? (a : Alarms) (listener : Nat) : Option Alarm :=
  a.outstanding.find? (·.listener == listener)

def deadline? (a : Alarms) (key : TimerKey) : Option Nat :=
  ((a.listener? key).bind a.alarm?).map (·.deadline)

def isArmed (a : Alarms) (key : TimerKey) : Bool := (a.deadline? key).isSome

def unset (a : Alarms) (listener : Nat) : Alarms :=
  { a with outstanding := a.outstanding.filter (·.listener != listener) }

/-- Arming a timer again replaces its alarm. -/
def arm (a : Alarms) (key : TimerKey) (deadline : Nat) : Alarms :=
  match a.listener? key with
  | some listener =>
    let rest := a.unset listener
    { rest with outstanding := rest.outstanding ++ [⟨listener, deadline⟩] }
  | none => {
      listeners := a.listeners ++ [key]
      outstanding := a.outstanding ++ [⟨a.listeners.length, deadline⟩] }

/-- Clears the alarm of the timer and tells whether there was one. -/
def disarm (a : Alarms) (key : TimerKey) : Alarms × Bool :=
  match a.listener? key with
  | some listener => (a.unset listener, (a.alarm? listener).isSome)
  | none => (a, false)

def nextDeadline (a : Alarms) : Option Nat := (a.outstanding.map (·.deadline)).min?

/-- The alarms due by now, earliest deadline first and otherwise in the order of listeners. -/
def dueAlarms (a : Alarms) (now : Nat) : List Alarm :=
  (a.outstanding.filter (·.deadline ≤ now)).mergeSort fun x y =>
    x.deadline < y.deadline || x.deadline == y.deadline && x.listener ≤ y.listener

def due (a : Alarms) (now : Nat) : List TimerKey :=
  (a.dueAlarms now).filterMap fun x => a.listeners[x.listener]?

def dropDue (a : Alarms) (now : Nat) : Alarms :=
  { a with outstanding := a.outstanding.filter fun x => now < x.deadline }

theorem snd_disarm (a : Alarms) (key : TimerKey) : (a.disarm key).2 = a.isArmed key := by
  rw [disarm, isArmed, deadline?]
  cases a.listener? key with
  | none => rfl
  | some listener => simp

end Alarms

end ModemSelect
