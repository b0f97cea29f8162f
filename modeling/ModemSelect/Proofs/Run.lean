import ModemSelect.Engine.Step

namespace ModemSelect

inductive Task where
  | event (event : Event)
  /-- Every due timer is taken off the clock. -/
  | collect
  | deliver (note : TimerNote)

/-- One thing that the engine does, from which state and at which moment. -/
structure Beat where
  engine : Engine
  moment : Moment
  task : Task

namespace Beat

def outcome (b : Beat) : Outcome :=
  match b.task with
  | .event event => b.engine.handle b.moment event
  | .collect =>
    { engine := { b.engine with timers := (b.engine.timers.fireDue b.moment.clock).1 } }
  | .deliver note => b.engine.deliver b.moment note

def after (b : Beat) : Engine := b.outcome.engine

def directives (b : Beat) : List Directive := b.outcome.directives

/-- The evaluation that the beat makes: the engine that evaluates and the reason. -/
def evaluation? (b : Beat) : Option (Engine × Reason) :=
  match b.task with
  | .event event =>
    let u := b.engine.takeUp b.moment event
    u.reason.map fun reason => (u.done.engine, reason)
  | .deliver (.evaluate reason) => some (b.engine, reason)
  | .deliver (.stability _) | .collect => none

end Beat

/-- What an evaluation decides, nothing where it does not come to ask the policy or the policy
cannot answer. -/
def Engine.decision? (e : Engine) (phones : Readings) : Option Decision :=
  if e.settings.enabled && phones.leavesChoice then (e.decide phones).toOption else none

/-- The beat evaluates and decides to wait for the given switch. -/
def Beat.Decides (b : Beat) (p : Pending) : Prop :=
  ∃ e reason, b.evaluation? = some (e, reason) ∧ e.decision? b.moment.phones = some (.pending p)

/-- The beat leaves a stability check on record that it did not find there. -/
def Beat.Arms (b : Beat) (s : Scheduled) : Prop :=
  b.after.timers.record? .stabilityCheck = some s ∧
    b.engine.timers.record? .stabilityCheck ≠ some s

inductive Act where
  | tell (event : Event)
  | poll

namespace Engine

def act (e : Engine) (m : Moment) : Act → Outcome
  | .tell event => e.handle m event
  | .poll => (e.poll m).1

def deliveries (e : Engine) (m : Moment) : List (TimerKey × TimerNote) → List Beat
  | [] => []
  | (_, note) :: rest => ⟨e, m, .deliver note⟩ :: (e.deliver m note).engine.deliveries m rest

/-- What the engine does in one act: a poll collects the due timers and then delivers their
notes one by one. -/
def beatsOf (e : Engine) (m : Moment) : Act → List Beat
  | .tell event => [⟨e, m, .event event⟩]
  | .poll =>
    let (timers, fired) := e.timers.fireDue m.clock
    ⟨e, m, .collect⟩ :: { e with timers }.deliveries m fired

def afterActs (e : Engine) : List (Moment × Act) → Engine
  | [] => e
  | (m, a) :: rest => (e.act m a).engine.afterActs rest

def beats (e : Engine) : List (Moment × Act) → List Beat
  | [] => []
  | (m, a) :: rest => e.beatsOf m a ++ (e.act m a).engine.beats rest

end Engine

/-- A run: how the engine was started and the acts on it, each at its own moment. Between two acts
the clock and the handset change freely. -/
structure Run where
  settings : Settings
  scorer : Option Scorer := none
  count : Nat
  phones : Readings
  acts : List (Moment × Act)

namespace Run

def fresh (r : Run) : Engine := (Engine.start r.settings r.scorer r.count r.phones).engine

def engine (r : Run) : Engine := r.fresh.afterActs r.acts

def beats (r : Run) : List Beat := r.fresh.beats r.acts

end Run

def Engine.Reachable (e : Engine) : Prop := ∃ r : Run, r.engine = e

theorem Engine.afterActs_concat (e : Engine) (acts : List (Moment × Act)) (m : Moment) (a : Act) :
    e.afterActs (acts ++ [(m, a)]) = ((e.afterActs acts).act m a).engine := by
  induction acts generalizing e with
  | nil => rfl
  | cons first rest ih => exact ih _

theorem Engine.Reachable.act {e : Engine} (h : e.Reachable) (m : Moment) (a : Act) :
    (e.act m a).engine.Reachable := by
  obtain ⟨r, rfl⟩ := h
  exact ⟨{ r with acts := r.acts ++ [(m, a)] }, r.fresh.afterActs_concat r.acts m a⟩

/-- A handset whose default slot 0 is in the given state and hears no signal, and whose other
slots are at home with the best signal. Where it is restricted no slot may carry data. -/
def Readings.sample (state : ServiceState) (active : List Nat) (restricted : Bool := false) :
    Readings where
  registration id := some { state := if id = 0 then state else .home }
  display _ := some { networkType := .lte }
  signal id := some (Signal.ofLevel (if id = 0 then 0 else 4))
  roamingData _ := some true
  userData _ := some true
  internet _ _ := some ⟨if restricted then [.restrictedByNetwork] else []⟩
  defaultSlot := some 0
  preferredSlot := none
  active := SlotSet.ofList active

/-- The default slot is out of service and the other one is debounced for ten seconds. -/
def Run.debounced : Run where
  settings := {}
  count := 2
  phones := .sample .outOfService [0, 1]
  acts := [
    (⟨⟨0, 0⟩, .sample .outOfService [0, 1]⟩, .tell (.evaluationRequested .external)),
    (⟨⟨10000, 10000⟩, .sample .outOfService [0, 1]⟩, .poll)]

/-- A validation has failed and the same switch is decided on anew, so that a retry is on its way
beside a check of two minutes. The check goes on through sleep and the retry does not. -/
def Run.renewed : Run where
  settings := {}
  count := 2
  phones := .sample .home [0, 1]
  acts := [
    (⟨⟨0, 0⟩, .sample .home [0, 1]⟩, .tell (.evaluationRequested .external)),
    (⟨⟨120000, 120000⟩, .sample .home [0, 1]⟩, .poll),
    (⟨⟨120000, 120000⟩, .sample .home [0, 1]⟩, .tell .validationFailed),
    (⟨⟨120000, 120000⟩, .sample .home [0, 1]⟩, .tell (.evaluationRequested .external))]

theorem Run.debounced_asks : ∃ b, Run.debounced.beats[2]? = some b ∧
    Directive.validationRequired 1 true ∈ b.directives := by
  have last : (Run.debounced.beats[2]?).map (·.directives) =
      some [.validationRequired 1 true] := by decide +kernel
  obtain ⟨b, hb, directives⟩ := Option.map_eq_some_iff.mp last
  exact ⟨b, hb, by simp [directives]⟩

namespace Engine

theorem poll_deliveries (e : Engine) (m : Moment) :
    (e.poll m).1.directives = (e.beatsOf m .poll).flatMap (·.directives) := by
  have fold : ∀ (fired : List (TimerKey × TimerNote)) (o : Outcome),
      (fired.foldl (fun (o : Outcome) note => o.andThen fun e => e.deliver m note.2) o).directives =
        o.directives ++ (o.engine.deliveries m fired).flatMap (·.directives) := by
    intro fired
    induction fired with
    | nil => intro o; simp [deliveries]
    | cons note rest ih =>
      intro o
      rw [List.foldl_cons, ih, deliveries, List.flatMap_cons, ← List.append_assoc]
      rfl
  exact fold _ _

theorem beatsOf_poll (e : Engine) (m : Moment) :
    e.beatsOf m .poll = ⟨e, m, .collect⟩ ::
      { e with timers := (e.timers.fireDue m.clock).1 }.deliveries m
        (e.timers.fireDue m.clock).2 :=
  rfl

theorem poll_engine (e : Engine) (m : Moment) :
    (e.poll m).1.engine = (e.timers.fireDue m.clock).2.foldl
      (fun e note => (e.deliver m note.2).engine)
      { e with timers := (e.timers.fireDue m.clock).1 } := by
  have fold : ∀ (fired : List (TimerKey × TimerNote)) (o : Outcome),
      (fired.foldl (fun (o : Outcome) note => o.andThen fun e => e.deliver m note.2) o).engine =
        fired.foldl (fun e note => (e.deliver m note.2).engine) o.engine := by
    intro fired
    induction fired with
    | nil => intro o; rfl
    | cons note rest ih =>
      intro o
      exact ih _
  exact fold _ _

/-- The directives of an act are those of its beats in their order. -/
theorem act_directives (e : Engine) (m : Moment) (a : Act) :
    (e.act m a).directives = (e.beatsOf m a).flatMap (·.directives) := by
  cases a with
  | tell event => simp [act, beatsOf, Beat.directives, Beat.outcome]
  | poll => exact poll_deliveries e m

end Engine

end ModemSelect
