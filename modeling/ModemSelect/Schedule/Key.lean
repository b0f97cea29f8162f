import ModemSelect.Schedule.Clock

namespace ModemSelect

/-- What a timer is for: to evaluate again, or to end the debounce of a pending switch. -/
inductive TimerKey where
  | evaluate
  | stabilityCheck
  deriving DecidableEq

/-- Both timers in their order. -/
def TimerKey.all : List TimerKey := [.evaluate, .stabilityCheck]

theorem TimerKey.mem_all (key : TimerKey) : key ∈ all := by
  cases key <;> simp [all]

instance : Named TimerKey where
  all := TimerKey.all
  name
    | .evaluate => "evaluate"
    | .stabilityCheck => "stability_check"

/-- One value for each timer. -/
structure PerTimer (α : Type) where
  evaluate : α
  stabilityCheck : α
  deriving DecidableEq

namespace PerTimer

variable {α : Type}

def get (m : PerTimer α) : TimerKey → α
  | .evaluate => m.evaluate
  | .stabilityCheck => m.stabilityCheck

def set (m : PerTimer α) (key : TimerKey) (a : α) : PerTimer α :=
  match key with
  | .evaluate => { m with evaluate := a }
  | .stabilityCheck => { m with stabilityCheck := a }

theorem get_set (m : PerTimer α) (key k : TimerKey) (a : α) :
    (m.set key a).get k = if k = key then a else m.get k := by
  cases key <;> cases k <;> rfl

end PerTimer

end ModemSelect
