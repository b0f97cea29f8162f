import ModemSelect.Proofs.Following

namespace ModemSelect

/-- The event has to do with the slots themselves, and not with the settings or a switch. -/
def Event.concernsSlots : Event → Bool
  | .news .. | .dataSettingsChanged _ | .subscriptionsChanged | .modemCountChanged _ => true
  | .evaluationRequested _ | .defaultNetworkChanged _ | .settingsChanged _ | .validationFailed
  | .validationSucceeded | .cancelPendingSwitch => false

/-- The events among the acts that concern the slots, each with what the handset reads then. -/
def slotEvents : List (Moment × Act) → List (Readings × Event)
  | [] => []
  | (m, .tell event) :: rest =>
    if event.concernsSlots then (m.phones, event) :: slotEvents rest else slotEvents rest
  | (_, .poll) :: rest => slotEvents rest

/-- The tables that come of a table by such events alone, one after each. -/
def SlotTable.revisions (t : SlotTable) : List (Readings × Event) → List SlotTable
  | [] => []
  | (phones, event) :: rest =>
    let revised := (event.revise t phones).table
    revised :: revised.revisions rest

namespace Engine

/-- The tables that the engine holds right after each event that concerns the slots. -/
def tables (e : Engine) : List (Moment × Act) → List SlotTable
  | [] => []
  | (m, .tell event) :: rest =>
    let next := (e.act m (.tell event)).engine
    if event.concernsSlots then next.slots :: next.tables rest else next.tables rest
  | (m, .poll) :: rest => (e.act m .poll).engine.tables rest

theorem slots_handle_of_unconcerned {event : Event} (h : event.concernsSlots = false) (e : Engine)
    (m : Moment) : (e.handle m event).engine.slots = e.slots := by
  rw [slots_handle]
  cases event with
  | news id update => cases h
  | dataSettingsChanged id => cases h
  | subscriptionsChanged => cases h
  | modemCountChanged count => cases h
  | evaluationRequested reason => rfl
  | defaultNetworkChanged network => rfl
  | settingsChanged settings => rfl
  | validationFailed => rfl
  | validationSucceeded => rfl
  | cancelPendingSwitch => rfl

/-- Whatever else the engine is told, and whenever it polls, its tables are those that come of the
events on the slots alone. -/
theorem tables_eq_revisions (e : Engine) (acts : List (Moment × Act)) :
    e.tables acts = e.slots.revisions (slotEvents acts) := by
  induction acts generalizing e with
  | nil => rfl
  | cons first rest ih =>
    obtain ⟨m, a⟩ := first
    cases a with
    | poll =>
      have kept : (e.act m .poll).engine.slots = e.slots := slots_poll e m
      rw [tables, slotEvents, ih, kept]
    | tell event =>
      rw [tables, slotEvents]
      cases concerned : event.concernsSlots with
      | true =>
        have revised : (e.act m (.tell event)).engine.slots = (event.revise e.slots m.phones).table :=
          slots_handle e m event
        simp only [if_true, SlotTable.revisions, ih, revised]
      | false =>
        have kept : (e.act m (.tell event)).engine.slots = e.slots :=
          slots_handle_of_unconcerned concerned e m
        simp only [Bool.false_eq_true, if_false, ih, kept]

/-- What the engine holds at the end is the last of its tables. -/
theorem slots_afterActs (e : Engine) (acts : List (Moment × Act)) :
    (e.afterActs acts).slots = (e.tables acts).getLastD e.slots := by
  induction acts generalizing e with
  | nil => rfl
  | cons first rest ih =>
    obtain ⟨m, a⟩ := first
    rw [afterActs, ih]
    cases a with
    | poll =>
      have kept : (e.act m .poll).engine.slots = e.slots := slots_poll e m
      rw [tables, kept]
    | tell event =>
      rw [tables]
      cases concerned : event.concernsSlots with
      | true => exact List.getLastD_cons.symm
      | false =>
        have kept : (e.act m (.tell event)).engine.slots = e.slots :=
          slots_handle_of_unconcerned concerned e m
        simp only [Bool.false_eq_true, if_false, kept]

end Engine

/-- The table that a run starts with. -/
def Run.opening (r : Run) : SlotTable :=
  ((SlotTable.ofCount r.count).follow r.phones.active r.phones).table

/-- Two engines over as many slots that hear of the same events on the slots, while their handsets
read the same, hold the same slots after each of them, whatever their settings are, whatever else
they are told and whenever they poll. No event is lost on either: both hold what comes of these
events alone. -/
theorem tables_independent (r r' : Run) (count : r.count = r'.count) (phones : r.phones = r'.phones)
    (events : slotEvents r.acts = slotEvents r'.acts) :
    r.fresh.tables r.acts = r'.fresh.tables r'.acts ∧
      r.engine.slots = r'.engine.slots ∧
      r.fresh.tables r.acts = r.opening.revisions (slotEvents r.acts) := by
  have opening : r.fresh.slots = r'.fresh.slots := by
    change r.opening = r'.opening
    rw [Run.opening, Run.opening, count, phones]
  have tables : r.fresh.tables r.acts = r'.fresh.tables r'.acts := by
    rw [Engine.tables_eq_revisions, Engine.tables_eq_revisions, opening, events]
  refine ⟨tables, ?_, Engine.tables_eq_revisions r.fresh r.acts⟩
  rw [Run.engine, Run.engine, Engine.slots_afterActs, Engine.slots_afterActs, tables, opening]

/-- The signal of slot 1 gets better while switching is off. -/
def Run.inert : Run where
  settings := { availabilityThreshold := -1 }
  count := 2
  phones := .sample .outOfService [0, 1]
  acts := [
    (⟨⟨0, 0⟩, .sample .outOfService [0, 1]⟩, .tell (.news 1 (.signal (Signal.ofLevel 2)))),
    (⟨⟨500, 500⟩, .sample .outOfService [0, 1]⟩, .tell (.news 0 (.registration { state := .home })))]

/-- The same happens beside a switch that is debounced, asked for and cancelled. -/
def Run.lively : Run where
  settings := {}
  scorer := some fun _ _ => 0
  count := 2
  phones := .sample .outOfService [0, 1]
  acts := [
    (⟨⟨0, 0⟩, .sample .outOfService [0, 1]⟩, .tell (.evaluationRequested .external)),
    (⟨⟨10000, 10000⟩, .sample .outOfService [0, 1]⟩, .poll),
    (⟨⟨10000, 10000⟩, .sample .outOfService [0, 1]⟩,
      .tell (.news 1 (.signal (Signal.ofLevel 2)))),
    (⟨⟨10000, 10000⟩, .sample .outOfService [0, 1]⟩, .tell .validationFailed),
    (⟨⟨12000, 19000⟩, .sample .outOfService [0, 1]⟩,
      .tell (.news 0 (.registration { state := .home }))),
    (⟨⟨12000, 19000⟩, .sample .outOfService [0, 1]⟩, .tell (.settingsChanged { tolerance := -1 }))]

theorem tables_independent_inert :
    slotEvents Run.inert.acts = slotEvents Run.lively.acts ∧
      Run.inert.fresh.tables Run.inert.acts = Run.lively.fresh.tables Run.lively.acts ∧
      (Run.inert.fresh.tables Run.inert.acts).map
        (fun t => t.trackedIds.map fun id => (t.modem? id).map (·.known.signal.level.val)) =
          [[some 0, some 2], [some 0, some 2]] := by
  have events : slotEvents Run.inert.acts = slotEvents Run.lively.acts := rfl
  exact ⟨events, (tables_independent Run.inert Run.lively rfl rfl events).1, by decide +kernel⟩

end ModemSelect
