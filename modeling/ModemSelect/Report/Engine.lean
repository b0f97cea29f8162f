import ModemSelect.Engine.Step
import ModemSelect.Report.Values

namespace ModemSelect

def Pending.toJson (p : Pending) : Json :=
  .obj [("target", .ofNat p.target), ("performance", .bool p.performance),
    ("needs_validation", .bool p.needsValidation)]

def TimerNote.toJson : TimerNote → Json
  | .evaluate reason => .obj [("evaluate", .named reason)]
  | .stability p => .obj [("stability", p.toJson)]

def Scheduled.toJson (key : TimerKey) (s : Scheduled) : Json :=
  .obj [("key", .named key), ("extra", s.note.toJson), ("backend", .named s.backend),
    ("delay_ms", .ofNat s.delay), ("deadline_ms", .ofNat s.deadline)]

def Timers.toJson (t : Timers) : Json :=
  .ofList (fun (key, s) => s.toJson key) t.scheduled

def Timers.armedOn (t : Timers) (backend : Backend) : Json :=
  .names (TimerKey.all.filter (t.isArmedOn backend))

/-- What is recorded and what is armed, and how soon the earliest deadline comes. -/
def Timers.report (t : Timers) (clock : Clock) : List (String × Json) :=
  [("scheduled", t.toJson), ("deferred", t.armedOn .deferred), ("alarm", t.armedOn .alarm),
    ("next_wakeup_ms", .ofOption .ofNat (t.nextWakeup clock))]

def Entry.toJson (entry : Entry) : Json :=
  .obj [("realtime_ms", .ofNat entry.realtime), ("message", .str entry.message)]

/-- A directive is told by its kind; then come its fields. -/
def Directive.members : Directive → List (String × Json)
  | .validationRequired target needsValidation =>
    [("directive", .str "validation_required"), ("target", .ofNat target),
      ("needs_validation", .bool needsValidation)]
  | .immediateSwitch target why trigger =>
    [("directive", .str "immediate_switch"), ("target", .ofNat target), ("reason", .named why),
      ("trigger", .named trigger)]
  | .cancelPendingValidation => [("directive", .str "cancel_pending_validation")]

def Directive.toJson (d : Directive) : Json := .obj d.members

namespace Engine

def report (e : Engine) (clock : Clock) : List (String × Json) :=
  [("realtime_ms", .ofNat clock.realtime),
    ("config", e.settings.toJson),
    ("slot_count", .ofNat e.slots.count),
    ("default_on_non_cellular", .bool e.bypassed),
    ("selected_target", .ofOption .ofNat e.target),
    ("validation_in_flight", .bool e.validating),
    ("consecutive_failures", .ofNat e.retry.failures),
    ("trackers", .ofList Modem.toJson e.slots.modems),
    ("candidates", .ofList Standing.toJson e.standings),
    ("timers", e.timers.toJson),
    ("log", .ofList Entry.toJson e.journal.entries)]

def dump (e : Engine) (clock : Clock) : String := (Json.obj (e.report clock)).pretty

end Engine

end ModemSelect
