import ModemSelect.Proofs.Run
import ModemSelect.Schedule.TimerView

namespace ModemSelect

/-- The part of the engine in which a switch under way is kept. -/
structure Course where
  timers : Timers
  retry : Retry
  target : Option Nat
  validating : Bool

def Course.cleared (c : Course) : Course where
  timers := ((c.timers.cancel .stabilityCheck).1.cancel .evaluate).1
  retry := c.retry.reset.1
  target := none
  validating := false

/-- What the policy is asked with, the handset apart. -/
structure Basis where
  settings : Settings
  scorer : Option Scorer
  slots : SlotTable
  bypassed : Bool

namespace Engine

def course (e : Engine) : Course := ⟨e.timers, e.retry, e.target, e.validating⟩

def basis (e : Engine) : Basis := ⟨e.settings, e.scorer, e.slots, e.bypassed⟩

theorem timers_of_course {e : Engine} {c : Course} (h : e.course = c) : e.timers = c.timers :=
  congrArg Course.timers h

theorem validating_of_course {e : Engine} {c : Course} (h : e.course = c) :
    e.validating = c.validating :=
  congrArg Course.validating h

theorem hasPending_of_course {e e' : Engine} (h : e'.course = e.course) :
    e'.hasPending = e.hasPending := by
  obtain ⟨ht, hr, hg, -⟩ := Course.mk.inj h
  simp only [hasPending, ht, hr, hg]

theorem hasPending_of_cleared {e : Engine} {c : Course} (h : e.course = c.cleared) :
    e.hasPending = false := by
  obtain ⟨ht, hr, hg, -⟩ := Course.mk.inj h
  simp [hasPending, ht, hr, hg, Timers.isScheduled_cancel, Retry.reset]

theorem course_rereadRoaming (e : Engine) (phones : Readings) (id : Nat) :
    (e.rereadRoaming phones id).course = e.course := by
  unfold rereadRoaming
  split
  · split
    · rfl
    · split <;> rfl
  · rfl

theorem course_hear (e : Engine) (m : Moment) (id : Nat) (update : Update) :
    (e.hear m id update).done.engine.course = e.course ∧
      (e.hear m id update).done.directives = [] := by
  unfold hear
  split
  next => exact ⟨rfl, rfl⟩
  next => exact ⟨rfl, rfl⟩
  next =>
    dsimp only
    split
    · exact ⟨rfl, rfl⟩
    · split <;> exact ⟨rfl, rfl⟩

theorem course_setDefaultNetwork (e : Engine) (m : Moment) (network : Option DefaultNetwork) :
    (e.setDefaultNetwork m network).done.engine.course = e.course ∧
      (e.setDefaultNetwork m network).done.directives = [] := by
  unfold setDefaultNetwork
  dsimp only
  split <;> exact ⟨rfl, rfl⟩

theorem course_followActive (e : Engine) (m : Moment) :
    (e.followActive m).done.engine.course = e.course := by
  unfold followActive
  dsimp only
  split <;> rfl

theorem dropPending_cases (e : Engine) (clock : Clock) :
    (e.dropPending clock).engine.course = e.course ∧ (e.dropPending clock).directives = [] ∨
      e.hasPending = true ∧ (e.dropPending clock).engine.course = e.course.cleared ∧
        (e.dropPending clock).directives = [.cancelPendingValidation] := by
  unfold dropPending
  split
  next h => exact Or.inr ⟨h, rfl, rfl⟩
  next => exact Or.inl ⟨rfl, rfl⟩

theorem decide_of_basis {e e' : Engine} (h : e.basis = e'.basis) (phones : Readings) :
    e.decide phones = e'.decide phones := by
  cases e
  cases e'
  cases h
  rfl

theorem settings_of_basis {e e' : Engine} (h : e.basis = e'.basis) : e.settings = e'.settings :=
  congrArg Basis.settings h

theorem decision?_of_basis {e e' : Engine} (h : e.basis = e'.basis) (phones : Readings) :
    e.decision? phones = e'.decision? phones := by
  rw [decision?, decision?, settings_of_basis h, decide_of_basis h]

theorem basis_awaitStability (e : Engine) (clock : Clock) (reason : Reason) (p : Pending) :
    (e.awaitStability clock reason p).basis = e.basis := by
  unfold awaitStability
  split
  · rfl
  · dsimp only
    split <;> rfl

theorem basis_dropPending (e : Engine) (clock : Clock) :
    (e.dropPending clock).engine.basis = e.basis := by
  unfold dropPending
  split <;> rfl

theorem basis_evaluate (e : Engine) (m : Moment) (reason : Reason) :
    (e.evaluate m reason).engine.basis = e.basis := by
  unfold evaluate
  split
  · rfl
  · split
    · exact basis_dropPending ..
    · cases e.decide m.phones with
      | error error => exact basis_dropPending ..
      | ok decision =>
        cases decision with
        | pending p => exact basis_awaitStability ..
        | immediate target why => rfl
        | noAction => exact basis_dropPending ..

theorem basis_failValidation (e : Engine) (clock : Clock) :
    (e.failValidation clock).basis = e.basis := by
  unfold failValidation
  dsimp only
  split <;> rfl

theorem basis_passStability (e : Engine) (m : Moment) (p : Pending) :
    (e.passStability m p).engine.basis = e.basis := by
  unfold passStability
  split <;> rfl

theorem basis_deliver (e : Engine) (m : Moment) (note : TimerNote) :
    (e.deliver m note).engine.basis = e.basis := by
  cases note with
  | evaluate reason => exact basis_evaluate e m reason
  | stability p => exact basis_passStability e m p

theorem basis_poll (e : Engine) (m : Moment) : (e.poll m).1.engine.basis = e.basis := by
  have deliveries : ∀ (tray : List (TimerKey × TimerNote)) (e : Engine),
      (tray.foldl (fun e note => (e.deliver m note.2).engine) e).basis = e.basis := by
    intro tray
    induction tray with
    | nil => exact fun _ => rfl
    | cons note rest ih => exact fun e => (ih _).trans (basis_deliver e m note.2)
  rw [poll_engine]
  exact deliveries _ _

theorem settings_evaluate (e : Engine) (m : Moment) (reason : Reason) :
    (e.evaluate m reason).engine.settings = e.settings :=
  settings_of_basis (basis_evaluate e m reason)

theorem awaitStability_of_busy {e : Engine} {p : Pending}
    (h : e.validating = true ∧ e.target = some p.target) (clock : Clock) (reason : Reason) :
    e.awaitStability clock reason p = e := by
  rw [awaitStability, if_pos h]

theorem course_awaitStability {e : Engine} {p : Pending}
    (h : ¬ (e.validating = true ∧ e.target = some p.target)) (clock : Clock) (reason : Reason) :
    (e.awaitStability clock reason p).course = { e.course with
      target := some p.target
      timers := (e.timers.schedule .stabilityCheck (.stability p)
        (e.settings.stabilityDelay p.performance) clock).1 } := by
  rw [awaitStability, if_neg h]
  dsimp only
  split <;> rfl

theorem decision?_eq_some_iff {e : Engine} {phones : Readings} {d : Decision} :
    e.decision? phones = some d ↔
      e.settings.enabled = true ∧ phones.leavesChoice = true ∧ e.decide phones = .ok d := by
  rw [decision?, ← and_assoc, ← Bool.and_eq_true_iff]
  split
  next gate => cases e.decide phones <;> simp [gate, Except.toOption]
  next gate => simp [gate]

theorem evaluate_of_decision? {e : Engine} {m : Moment} {d : Decision}
    (h : e.decision? m.phones = some d) (reason : Reason) :
    e.evaluate m reason = e.apply m.clock reason d := by
  obtain ⟨enabled, choice, decided⟩ := decision?_eq_some_iff.mp h
  simp [evaluate, enabled, choice, decided]

theorem evaluate_of_pending {e : Engine} {m : Moment} {p : Pending}
    (h : e.decision? m.phones = some (.pending p)) (reason : Reason) :
    e.evaluate m reason = { engine := e.awaitStability m.clock reason p } :=
  evaluate_of_decision? h reason

theorem evaluate_of_immediate {e : Engine} {m : Moment} {target : Nat} {why : Urgency}
    (h : e.decision? m.phones = some (.immediate target why)) (reason : Reason) :
    (e.evaluate m reason).engine.course = e.course.cleared ∧
      (e.evaluate m reason).directives = [.immediateSwitch target why reason] := by
  rw [evaluate_of_decision? h]
  exact ⟨rfl, rfl⟩

/-- An evaluation that decides on no switch does no more than drop what is pending. -/
theorem evaluate_of_unmoved {e : Engine} {m : Moment} (enabled : e.settings.enabled = true)
    (hp : ∀ p, e.decision? m.phones ≠ some (.pending p))
    (hi : ∀ target why, e.decision? m.phones ≠ some (.immediate target why)) (reason : Reason) :
    ∃ e' : Engine, e'.course = e.course ∧ e.evaluate m reason = e'.dropPending m.clock := by
  rw [evaluate, if_neg (by simp [enabled])]
  split
  next => exact ⟨e, rfl, rfl⟩
  next choice =>
    rw [Bool.not_eq_true, Bool.not_eq_false'] at choice
    cases hd : e.decide m.phones with
    | error error => exact ⟨e.note m.clock (Message.aborted reason error), rfl, rfl⟩
    | ok decision =>
      have decided := decision?_eq_some_iff.mpr ⟨enabled, choice, hd⟩
      cases decision with
      | pending p => exact absurd decided (hp p)
      | immediate target why => exact absurd decided (hi target why)
      | noAction => exact ⟨e, rfl, rfl⟩

theorem evaluate_of_undecided {e : Engine} {m : Moment}
    (hp : ∀ p, e.decision? m.phones ≠ some (.pending p))
    (hi : ∀ target why, e.decision? m.phones ≠ some (.immediate target why)) (reason : Reason) :
    (e.evaluate m reason).engine.course = e.course ∧ (e.evaluate m reason).directives = [] ∨
      e.hasPending = true ∧ (e.evaluate m reason).engine.course = e.course.cleared ∧
        (e.evaluate m reason).directives = [.cancelPendingValidation] := by
  cases enabled : e.settings.enabled with
  | false => exact Or.inl (by simp [evaluate, enabled])
  | true =>
    obtain ⟨e', same, drops⟩ := evaluate_of_unmoved enabled hp hi reason
    rw [drops, ← same, ← hasPending_of_course same]
    exact dropPending_cases e' m.clock

/-- An evaluation that decides on no switch cancels the one that is pending. -/
theorem evaluate_of_dropped {e : Engine} {m : Moment} (enabled : e.settings.enabled = true)
    (pending : e.hasPending = true) (hp : ∀ p, e.decision? m.phones ≠ some (.pending p))
    (hi : ∀ target why, e.decision? m.phones ≠ some (.immediate target why)) (reason : Reason) :
    (e.evaluate m reason).directives = [.cancelPendingValidation] := by
  obtain ⟨e', same, drops⟩ := evaluate_of_unmoved enabled hp hi reason
  rw [drops, dropPending, if_pos ((hasPending_of_course same).trans pending)]
  rfl

theorem course_failValidation_of_lt {e : Engine}
    (room : e.retry.failures < e.settings.maxRetries) (clock : Clock) :
    (e.failValidation clock).course = { e.course with
      validating := false
      retry := ⟨e.retry.failures + 1⟩
      timers := (e.timers.schedule .evaluate (.evaluate .retryValidation)
        (backoff (e.settings.stabilityDelay false) e.retry.failures) clock).1 } := by
  simp only [failValidation, Retry.fail, if_pos room]
  rfl

theorem course_failValidation_of_not_lt {e : Engine}
    (full : ¬ e.retry.failures < e.settings.maxRetries) (clock : Clock) :
    (e.failValidation clock).course = { e.course with
      validating := false
      retry := ⟨0⟩
      target := none
      timers := (e.timers.cancel .evaluate).1 } := by
  simp only [failValidation, Retry.fail, if_neg full]
  rfl

theorem takeUp_of_reason {e : Engine} {m : Moment} {event : Event} {reason : Reason}
    (h : (e.takeUp m event).reason = some reason) :
    (e.takeUp m event).done.engine.course = e.course ∧
      (e.takeUp m event).done.directives = [] := by
  cases event with
  | news id update => exact course_hear e m id update
  | dataSettingsChanged id => exact ⟨course_rereadRoaming e m.phones id, rfl⟩
  | evaluationRequested reason => exact ⟨rfl, rfl⟩
  | defaultNetworkChanged network => exact course_setDefaultNetwork e m network
  | subscriptionsChanged => exact ⟨course_followActive e m, rfl⟩
  | modemCountChanged count => exact ⟨rfl, rfl⟩
  | settingsChanged settings =>
    change (e.setSettings m settings).reason = _ at h
    change (e.setSettings m settings).done.engine.course = _ ∧
      (e.setSettings m settings).done.directives = _
    unfold setSettings at h ⊢
    split at h
    next he =>
      rw [if_pos he]
      exact ⟨rfl, rfl⟩
    next => cases h
  | validationFailed => cases h
  | validationSucceeded => cases h
  | cancelPendingSwitch => cases h

end Engine

end ModemSelect
