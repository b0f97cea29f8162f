import ModemSelect.Rig

namespace ModemSelect

inductive Mail where
  | event (event : Event)
  | snapshot
  | shutdown

/-- What comes of a piece of mail: the directives given and, for a request, the rig as it was. -/
structure Reply where
  directives : List Directive := []
  snapshot : Option Rig := none

/-- A worker owns a rig until it is shut down. It takes one piece of mail at a time and polls after
each, as it does whenever it has waited for one in vain. -/
structure Worker where
  rig : Rig
  isOpen : Bool := true

namespace Worker

def idle (w : Worker) : Worker × List Directive :=
  if w.isOpen then
    let (rig, directives, _) := w.rig.poll
    ({ w with rig }, directives)
  else (w, [])

/-- After the shutdown mail is not taken. -/
def receive (w : Worker) (mail : Mail) : Worker × Reply :=
  if !w.isOpen then (w, {})
  else
    match mail with
    | .event event =>
      let (rig, first) := w.rig.handle event
      let (w, later) := { w with rig }.idle
      (w, { directives := first ++ later })
    | .snapshot =>
      let (later, directives) := w.idle
      (later, { directives, snapshot := some w.rig })
    | .shutdown => ({ w with isOpen := false }, {})

/-- What is said of an event sent after the shutdown. -/
def closedEvent : String := "Failed to send event: switch runtime is closed"

/-- What is said of a request made after the shutdown. -/
def closedRequest : String := "Failed to request snapshot: switch runtime is closed"

end Worker

end ModemSelect
