import ModemSelect.Proofs.Cancellation
import ModemSelect.Proofs.Following

namespace ModemSelect

/-- Data is to move, at once or after a validation. -/
def Directive.Moves : Directive → Prop
  | .validationRequired .. | .immediateSwitch .. => True
  | .cancelPendingValidation => False

/-- The settings under which the act is done. New ones hold from the event that brings them. -/
def Act.inForce (e : Engine) : Act → Settings
  | .tell (.settingsChanged settings) => settings
  | .tell _ | .poll => e.settings

namespace Engine

theorem settings_takeUp (e : Engine) (m : Moment) (event : Event) :
    (e.takeUp m event).done.engine.settings = (Act.tell event).inForce e := by
  have settings : (e.takeUp m event).done.engine.settings =
      (event.rebase e.basis m.phones).settings :=
    congrArg Basis.settings (basis_takeUp e m event).1
  rw [settings]
  cases event <;> rfl

/-- Only an evaluation with switching on and a choice of slots moves data. -/
theorem evaluate_moves {e : Engine} {m : Moment} {reason : Reason} {d : Directive}
    (hd : d ∈ (e.evaluate m reason).directives) (moves : d.Moves) :
    e.settings.enabled = true ∧ m.phones.leavesChoice = true := by
  by_cases gate : (e.settings.enabled && m.phones.leavesChoice) = true
  · exact Bool.and_eq_true_iff.mp gate
  · have undecided : e.decision? m.phones = none := if_neg gate
    have unpending : ∀ p, e.decision? m.phones ≠ some (.pending p) := by simp [undecided]
    have unhurried : ∀ target why, e.decision? m.phones ≠ some (.immediate target why) := by
      simp [undecided]
    rcases evaluate_of_undecided unpending unhurried reason with
      ⟨-, directives⟩ | ⟨-, -, directives⟩
    · simp [directives] at hd
    · rw [directives, List.mem_singleton] at hd
      subst hd
      exact moves.elim

theorem deliver_moves {e : Engine} {m : Moment} {note : TimerNote} {d : Directive}
    (hd : d ∈ (e.deliver m note).directives) (moves : d.Moves) :
    e.settings.enabled = true ∧ m.phones.leavesChoice = true := by
  cases note with
  | evaluate reason => exact evaluate_moves hd moves
  | stability p =>
    change d ∈ (e.passStability m p).directives at hd
    unfold passStability at hd
    split at hd
    next gate => exact Bool.and_eq_true_iff.mp gate
    next =>
      rw [cancelPending, List.mem_singleton] at hd
      subst hd
      exact moves.elim

theorem not_moves_dropPending {e : Engine} {clock : Clock} {d : Directive}
    (hd : d ∈ (e.dropPending clock).directives) : ¬ d.Moves := by
  rcases dropPending_cases e clock with ⟨-, directives⟩ | ⟨-, -, directives⟩
  · simp [directives] at hd
  · rw [directives, List.mem_singleton] at hd
    subst hd
    exact id

/-- What an event does at once moves no data. -/
theorem not_moves_takeUp {e : Engine} {m : Moment} {event : Event} {d : Directive}
    (hd : d ∈ (e.takeUp m event).done.directives) : ¬ d.Moves := by
  have quiet : (e.takeUp m event).done.directives = [] → ¬ d.Moves := by
    intro directives
    simp [directives] at hd
  cases event with
  | news id update => exact quiet (course_hear e m id update).2
  | dataSettingsChanged id => exact quiet rfl
  | evaluationRequested reason => exact quiet rfl
  | defaultNetworkChanged network => exact quiet (course_setDefaultNetwork e m network).2
  | subscriptionsChanged => exact quiet rfl
  | modemCountChanged count => exact quiet rfl
  | settingsChanged settings =>
    change d ∈ (e.setSettings m settings).done.directives at hd
    unfold setSettings at hd
    split at hd
    next => cases hd
    next => exact not_moves_dropPending hd
  | validationFailed => exact quiet rfl
  | validationSucceeded => exact quiet rfl
  | cancelPendingSwitch =>
    cases List.mem_singleton.mp hd
    exact id

theorem handle_moves {e : Engine} {m : Moment} {event : Event} {d : Directive}
    (hd : d ∈ (e.handle m event).directives) (moves : d.Moves) :
    ((Act.tell event).inForce e).enabled = true ∧ m.phones.leavesChoice = true := by
  rw [← settings_takeUp e m event]
  rw [handle, Uptake.complete] at hd
  split at hd
  next => exact absurd moves (not_moves_takeUp hd)
  next =>
    rcases List.mem_append.mp hd with hd | hd
    · exact absurd moves (not_moves_takeUp hd)
    · exact evaluate_moves hd moves

/-- All deliveries of a poll are made in the moment of the poll and under its settings, each of a
note in the tray. -/
theorem mem_deliveries {e : Engine} {m : Moment} {tray : List (TimerKey × TimerNote)} {b : Beat}
    (hb : b ∈ e.deliveries m tray) :
    b.moment = m ∧ b.engine.settings = e.settings ∧
      ∃ key note, (key, note) ∈ tray ∧ b.task = .deliver note := by
  induction tray generalizing e with
  | nil => cases hb
  | cons entry rest ih =>
    obtain ⟨key, note⟩ := entry
    rcases List.mem_cons.mp hb with rfl | hb
    · exact ⟨rfl, rfl, key, note, .head _, rfl⟩
    · obtain ⟨moment, settings, key', note', hm, task⟩ := ih hb
      exact ⟨moment, settings.trans (settings_of_basis (basis_deliver e m note)),
        key', note', .tail _ hm, task⟩

theorem act_moves {e : Engine} {m : Moment} {a : Act} {d : Directive}
    (hd : d ∈ (e.act m a).directives) (moves : d.Moves) :
    (a.inForce e).enabled = true ∧ m.phones.leavesChoice = true := by
  cases a with
  | tell event => exact handle_moves hd moves
  | poll =>
    rw [act_directives, List.mem_flatMap] at hd
    obtain ⟨b, hb, hd⟩ := hd
    rcases List.mem_cons.mp hb with rfl | hb
    · cases hd
    · obtain ⟨rfl, settings, _, note, -, task⟩ := mem_deliveries hb
      rw [Beat.directives, Beat.outcome, task] at hd
      have gate := deliver_moves hd moves
      rwa [settings] at gate

theorem idle_dropPending {e : Engine} (sound : e.course.Sound) (clock : Clock) :
    (e.dropPending clock).engine.Idle := by
  unfold dropPending
  split
  next => exact idle_of_cleared sound rfl
  next none => exact idle_of_not_hasPending sound (by simpa using none)

section Closed

variable {e : Engine} {m : Moment} (enabled : e.settings.enabled = true)
  (closed : m.phones.leavesChoice = false)
include enabled closed

theorem evaluate_of_closed (reason : Reason) : e.evaluate m reason = e.dropPending m.clock := by
  simp [evaluate, enabled, closed]

/-- Without a choice of slots whatever is delivered clears the switch under way. -/
theorem idle_deliver (sound : e.course.Sound) (note : TimerNote) :
    (e.deliver m note).engine.Idle := by
  cases note with
  | evaluate reason =>
    change (e.evaluate m reason).engine.Idle
    rw [evaluate_of_closed enabled closed]
    exact idle_dropPending sound m.clock
  | stability p =>
    have cancels : e.passStability m p = e.cancelPending m.clock := by
      simp [passStability, closed]
    change (e.passStability m p).engine.Idle
    rw [cancels]
    exact idle_of_cleared sound rfl

end Closed

theorem idle_deliveries {e : Engine} {m : Moment} (tray : List (TimerKey × TimerNote))
    (enabled : e.settings.enabled = true) (closed : m.phones.leavesChoice = false)
    (sound : e.course.Sound) :
    (∀ b ∈ e.deliveries m tray, b.after.Idle) ∧
      (tray ≠ [] → (tray.foldl (fun e note => (e.deliver m note.2).engine) e).Idle) := by
  -- Each delivery clears whatever the ones before it left, so only soundness has to be carried on.
  induction tray generalizing e with
  | nil => exact ⟨fun b hb => (by cases hb), fun h => absurd rfl h⟩
  | cons entry rest ih =>
    obtain ⟨key, note⟩ := entry
    have first := idle_deliver enabled closed sound note
    have still : (e.deliver m note).engine.settings.enabled = true := by
      rwa [settings_of_basis (basis_deliver e m note)]
    have kept : (e.deliver m note).engine.course.Sound :=
      Beat.sound_after (b := ⟨e, m, .deliver note⟩) sound
    obtain ⟨each, last⟩ := ih still kept
    refine ⟨?_, fun _ => ?_⟩
    · intro b hb
      rcases List.mem_cons.mp hb with rfl | hb
      · exact first
      · exact each b hb
    · rw [List.foldl_cons]
      cases rest with
      | nil => exact first
      | cons second others => exact last (by simp)

theorem idle_handle {e : Engine} {m : Moment} {event : Event}
    (enabled : ((Act.tell event).inForce e).enabled = true)
    (closed : m.phones.leavesChoice = false) (sound : e.course.Sound)
    (evaluates : (Beat.mk e m (.event event)).evaluation? ≠ none) :
    (e.handle m event).engine.Idle := by
  obtain ⟨⟨e', reason⟩, evaluation⟩ := Option.ne_none_iff_exists'.mp evaluates
  obtain ⟨course, after, -⟩ := Beat.evaluation_spec evaluation
  obtain ⟨r, -, taken⟩ := Option.map_eq_some_iff.mp evaluation
  have settings := settings_takeUp e m event
  rw [(Prod.mk.inj taken).1] at settings
  change (e.handle m event).engine = _ at after
  rw [after, evaluate_of_closed (settings ▸ enabled) closed]
  exact idle_dropPending (course ▸ sound) m.clock

theorem idle_poll {e : Engine} {m : Moment} (enabled : e.settings.enabled = true)
    (closed : m.phones.leavesChoice = false) (sound : e.course.Sound) {b : Beat}
    (hb : b ∈ e.beatsOf m .poll) (evaluates : b.evaluation? ≠ none) :
    b.after.Idle ∧ (e.poll m).1.engine.Idle := by
  rw [beatsOf_poll] at hb
  rcases List.mem_cons.mp hb with rfl | hb
  · exact absurd rfl evaluates
  · have collected : ({ e with timers := (e.timers.fireDue m.clock).1 } : Engine).course.Sound :=
      Beat.sound_after (b := ⟨e, m, .collect⟩) sound
    obtain ⟨each, last⟩ := idle_deliveries
      (e := { e with timers := (e.timers.fireDue m.clock).1 }) (e.timers.fireDue m.clock).2
      enabled closed collected
    have fired : (e.timers.fireDue m.clock).2 ≠ [] := by
      intro bare
      rw [bare] at hb
      cases hb
    rw [poll_engine]
    exact ⟨each b hb, last fired⟩

/-- No step moves data with fewer than two active slots or with switching off. And each evaluation
with switching on and fewer than two active slots leaves nothing of a switch, right after it and
at the end of its step. -/
theorem gate_closed {e : Engine} (h : e.Reachable) (m : Moment) (a : Act) :
    (m.phones.active.size < 2 ∨ (a.inForce e).availabilityThreshold < 0 →
      ∀ d ∈ (e.act m a).directives, ¬ d.Moves) ∧
    (m.phones.active.size < 2 → 0 ≤ (a.inForce e).availabilityThreshold →
      ∀ b ∈ e.beatsOf m a, b.evaluation? ≠ none → b.after.Idle ∧ (e.act m a).engine.Idle) := by
  refine ⟨?_, ?_⟩
  · intro shut d hd moves
    obtain ⟨enabled, choice⟩ := act_moves hd moves
    simp only [Settings.enabled, Readings.leavesChoice, decide_eq_true_eq] at enabled choice
    omega
  · intro few on b hb evaluates
    have closed : m.phones.leavesChoice = false := by simpa [Readings.leavesChoice] using few
    have enabled : (a.inForce e).enabled = true := by simpa [Settings.enabled] using on
    cases a with
    | tell event =>
      cases List.mem_singleton.mp hb
      have idle := idle_handle enabled closed h.sound evaluates
      exact ⟨idle, idle⟩
    | poll => exact idle_poll enabled closed h.sound hb evaluates

end Engine

/-- Both timers fire after the default slot has gone. -/
theorem Engine.gate_closed_renewed :
    let e := Run.renewed.engine
    let m : Moment := ⟨⟨130000, 240000⟩, .sample .home [1]⟩
    m.phones.active.size < 2 ∧ 0 ≤ (Act.poll.inForce e).availabilityThreshold ∧
      (e.poll m).2 = 2 ∧ (∀ d ∈ (e.act m .poll).directives, ¬ d.Moves) ∧
      (e.act m .poll).engine.Idle := by
  intro e m
  have few : m.phones.active.size < 2 := by decide
  have on : 0 ≤ (Act.poll.inForce e).availabilityThreshold := by decide +kernel
  have retries : ((e.beatsOf m .poll)[1]?).map (·.evaluation?.isSome) = some true := by
    decide +kernel
  obtain ⟨b, hb, evaluates⟩ := Option.map_eq_some_iff.mp retries
  obtain ⟨unmoved, idle⟩ := gate_closed (e := e) ⟨Run.renewed, rfl⟩ m .poll
  exact ⟨few, on, by decide +kernel, unmoved (Or.inl few),
    (idle few on b (List.mem_of_getElem? hb) (Option.isSome_iff_ne_none.mp evaluates)).2⟩

end ModemSelect
