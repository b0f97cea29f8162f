import Mathlib.Data.Nat.ModEq
import ModemSelect.Proofs.Gate

namespace ModemSelect

/-- How many failed validations count after the act, by how many counted before it. A success, a
cancellation and new settings start the count again. -/
def Act.countFailures (count : Nat) : Act → Nat
  | .tell .validationFailed => count + 1
  | .tell .validationSucceeded | .tell .cancelPendingSwitch | .tell (.settingsChanged _) => 0
  | .tell _ | .poll => count

/-- How many validations have failed since the last success, cancellation or change of settings. -/
def Run.failuresHeard (r : Run) : Nat := r.acts.foldl (fun count a => a.2.countFailures count) 0

namespace Engine

/-- Nothing of a switch is held but what so many failed validations leave behind: the retries count
up to their limit and then start again. -/
structure Dormant (e : Engine) (heard : Nat) : Prop where
  untargeted : e.target = none
  unvalidated : e.validating = false
  unchecked : e.timers.record? .stabilityCheck = none
  failures : e.retry.failures = heard % (e.settings.maxRetries + 1)

theorem Idle.dormant {e : Engine} (idle : e.Idle) : e.Dormant 0 where
  untargeted := idle.untargeted
  unvalidated := idle.unvalidated
  unchecked := idle.unrecorded _
  failures := idle.unfailed

namespace Dormant

variable {e : Engine} {heard : Nat} (h : e.Dormant heard)
include h

theorem of_course {e' : Engine} (course : e'.course = e.course)
    (settings : e'.settings = e.settings) : e'.Dormant heard := by
  obtain ⟨timers, retry, target, validating⟩ := Course.mk.inj course
  exact ⟨target.trans h.untargeted, validating.trans h.unvalidated, timers ▸ h.unchecked,
    settings ▸ retry ▸ h.failures⟩

theorem failValidation (clock : Clock) : (e.failValidation clock).Dormant (heard + 1) := by
  have settings := settings_of_basis (e.basis_failValidation clock)
  have failures := h.failures
  by_cases room : e.retry.failures < e.settings.maxRetries
  · obtain ⟨timers, retry, target, validating⟩ :=
      Course.mk.inj (course_failValidation_of_lt room clock)
    refine ⟨target.trans h.untargeted, validating, ?_, ?_⟩
    · rw [timers, Timers.record?_schedule_of_ne (by decide)]
      exact h.unchecked
    · have one : 1 % (e.settings.maxRetries + 1) = 1 := Nat.mod_eq_of_lt (by omega)
      rw [settings, retry, Nat.add_mod_of_add_mod_lt (by omega), one, ← failures]
  · obtain ⟨timers, retry, target, validating⟩ :=
      Course.mk.inj (course_failValidation_of_not_lt room clock)
    refine ⟨target, validating, ?_, ?_⟩
    · rw [timers, Timers.record?_cancel, if_neg (by decide)]
      exact h.unchecked
    · have below : heard % (e.settings.maxRetries + 1) < e.settings.maxRetries + 1 :=
        Nat.mod_lt _ (Nat.succ_pos _)
      rw [settings, retry]
      exact (Nat.succ_mod_succ_eq_zero_iff.mpr (by omega)).symm

/-- Such an engine is idle just when the failures have come to a full count. -/
theorem idle_iff (sound : e.course.Sound) : e.Idle ↔ e.settings.maxRetries + 1 ∣ heard := by
  rw [Nat.dvd_iff_mod_eq_zero, ← h.failures]
  refine ⟨Idle.unfailed, fun unfailed => idle_of_not_hasPending sound ?_⟩
  have unscheduled : e.timers.record? .evaluate = none := by
    by_contra scheduled
    have failed : 0 < e.retry.failures := sound.failed scheduled
    omega
  simp [hasPending, Timers.isScheduled, h.untargeted, h.unchecked, unscheduled, unfailed]

end Dormant

theorem evaluate_of_disabled {e : Engine} (off : e.settings.enabled = false) (m : Moment)
    (reason : Reason) : e.evaluate m reason = { engine := e } := by
  simp [evaluate, off]

theorem handle_of_disabled {e : Engine} {m : Moment} {event : Event}
    (off : ((Act.tell event).inForce e).enabled = false) :
    (e.handle m event).engine = (e.takeUp m event).done.engine := by
  rw [← settings_takeUp e m event] at off
  rw [handle, Uptake.complete]
  split
  · rfl
  · rw [Outcome.andThen, evaluate_of_disabled off]

theorem deliveries_of_disabled {e : Engine} (off : e.settings.enabled = false) (m : Moment)
    {tray : List (TimerKey × TimerNote)} (retries : ∀ x ∈ tray, ∃ reason, x.2 = .evaluate reason) :
    tray.foldl (fun e x => (e.deliver m x.2).engine) e = e := by
  induction tray with
  | nil => rfl
  | cons x rest ih =>
    obtain ⟨reason, note⟩ := retries x List.mem_cons_self
    have unmoved : (e.deliver m x.2).engine = e := by
      rw [note, deliver, evaluate_of_disabled off]
    rw [List.foldl_cons, unmoved]
    exact ih fun y hy => retries y (List.mem_cons_of_mem x hy)

/-- Without a check on record all that can fire is the retry. -/
theorem poll_of_disabled {e : Engine} (sound : e.course.Sound) (off : e.settings.enabled = false)
    (unchecked : e.timers.record? .stabilityCheck = none) (m : Moment) :
    (e.poll m).1.engine = { e with timers := (e.timers.fireDue m.clock).1 } := by
  rw [poll_engine]
  refine deliveries_of_disabled (e := { e with timers := (e.timers.fireDue m.clock).1 }) off m
    fun x hx => ?_
  obtain ⟨s, recorded, note, -⟩ := (Timers.mem_fireDue sound.timers).mp hx
  have fits := sound.fitting _ _ recorded
  cases key : x.1 with
  | evaluate =>
    rw [key, note] at fits
    cases kind : x.2 with
    | evaluate reason => exact ⟨reason, rfl⟩
    | stability p =>
      rw [kind] at fits
      exact fits.elim
  | stabilityCheck =>
    rw [key] at recorded
    cases unchecked.symm.trans recorded

theorem settings_act (e : Engine) (m : Moment) (a : Act) :
    (e.act m a).engine.settings = a.inForce e := by
  cases a with
  | poll => exact settings_of_basis (basis_poll e m)
  | tell event =>
    change (e.handle m event).engine.settings = _
    rw [← settings_takeUp e m event, handle, Uptake.complete]
    split
    · rfl
    · exact settings_evaluate ..

section Off

variable {e : Engine} {heard : Nat} (sound : e.course.Sound)
  (h : e.settings.enabled = false → e.Dormant heard)
include sound h

theorem dormant_handle (m : Moment) {event : Event}
    (off : ((Act.tell event).inForce e).enabled = false) :
    (e.handle m event).engine.Dormant ((Act.tell event).countFailures heard) := by
  have settings : (e.handle m event).engine.settings = (Act.tell event).inForce e :=
    settings_act e m (.tell event)
  have same := handle_of_disabled (m := m) off
  have unmoved : (e.takeUp m event).done.engine.course = e.course →
      (Act.tell event).inForce e = e.settings → (e.handle m event).engine.Dormant heard := by
    intro kept inForce
    rw [inForce] at off settings
    exact (h off).of_course (same ▸ kept) settings
  cases event with
  | news id update => exact unmoved (course_hear e m id update).1 rfl
  | dataSettingsChanged id => exact unmoved (course_rereadRoaming e m.phones id) rfl
  | evaluationRequested reason => exact unmoved rfl rfl
  | defaultNetworkChanged network => exact unmoved (course_setDefaultNetwork e m network).1 rfl
  | subscriptionsChanged => exact unmoved (course_followActive e m) rfl
  | modemCountChanged count => exact unmoved rfl rfl
  | settingsChanged next =>
    let updated := { e with settings := next }.note m.clock Message.settingsUpdated
    have drops : (e.takeUp m (.settingsChanged next)).done = updated.dropPending m.clock :=
      congrArg Uptake.done (if_neg (Bool.not_eq_true _ ▸ off))
    rw [same, drops]
    exact (idle_dropPending (e := updated) sound m.clock).dormant
  | validationFailed => exact (h off).failValidation m.clock
  | validationSucceeded =>
    have unchecked := Timers.record?_cancel e.timers .evaluate .stabilityCheck
    exact ⟨rfl, rfl, unchecked.trans (h off).unchecked, rfl⟩
  | cancelPendingSwitch => exact (idle_of_cleared sound rfl).dormant

theorem dormant_poll (m : Moment) (off : e.settings.enabled = false) :
    (e.poll m).1.engine.Dormant heard := by
  obtain ⟨untargeted, unvalidated, unchecked, failures⟩ := h off
  rw [poll_of_disabled sound off unchecked]
  have left := Timers.record?_fireDue (t := e.timers) sound.timers m.clock .stabilityCheck
  rw [unchecked] at left
  exact ⟨untargeted, unvalidated, left, failures⟩

end Off

theorem dormant_afterActs {e : Engine} (reachable : e.Reachable) {heard : Nat}
    (h : e.settings.enabled = false → e.Dormant heard) (acts : List (Moment × Act))
    (off : (e.afterActs acts).settings.enabled = false) :
    (e.afterActs acts).Dormant (acts.foldl (fun count a => a.2.countFailures count) heard) := by
  induction acts generalizing e heard with
  | nil => exact h off
  | cons first rest ih =>
    obtain ⟨m, a⟩ := first
    refine ih (reachable.act m a) (fun off => ?_) off
    rw [settings_act] at off
    cases a with
    | tell event => exact dormant_handle reachable.sound h m off
    | poll => exact dormant_poll reachable.sound h m off

end Engine

/-- With switching off there is no target, no validation and no stability check, and nothing at all
just as long as every failed validation since the last success, cancellation or change of settings
belongs to a full count of retries. -/
theorem idle_iff_of_disabled (r : Run) (off : r.engine.settings.availabilityThreshold < 0) :
    r.engine.target = none ∧ r.engine.validating = false ∧
      r.engine.timers.record? .stabilityCheck = none ∧
      (∀ backend, r.engine.timers.isArmedOn backend .stabilityCheck = false) ∧
      r.engine.retry.failures = r.failuresHeard % (r.engine.settings.maxRetries + 1) ∧
      (r.engine.Idle ↔ r.engine.settings.maxRetries + 1 ∣ r.failuresHeard) := by
  have reachable : r.engine.Reachable := ⟨r, rfl⟩
  have fresh : r.fresh.Idle :=
    Engine.idle_of_not_hasPending (Engine.Reachable.sound ⟨{ r with acts := [] }, rfl⟩) rfl
  have disabled : r.engine.settings.enabled = false := by simpa [Settings.enabled] using off
  have dormant : r.engine.Dormant r.failuresHeard :=
    Engine.dormant_afterActs ⟨{ r with acts := [] }, rfl⟩ (fun _ => fresh.dormant) r.acts disabled
  exact ⟨dormant.untargeted, dormant.unvalidated, dormant.unchecked,
    Timers.isArmedOn_of_bare reachable.sound.timers dormant.unchecked, dormant.failures,
    dormant.idle_iff reachable.sound⟩

/-- Switching is turned off while a validation runs, which is then reported as failed more than
once. -/
def Run.late (failures : Nat) : Run where
  settings := {}
  count := 2
  phones := .sample .outOfService [0, 1]
  acts := Run.debounced.acts ++
    (⟨⟨10000, 10000⟩, .sample .outOfService [0, 1]⟩,
      .tell (.settingsChanged { availabilityThreshold := -1, maxRetries := 1 })) ::
    List.replicate failures
      (⟨⟨10000, 10000⟩, .sample .outOfService [0, 1]⟩, .tell .validationFailed)

/-- The second failure uses up the retry of the first. -/
theorem idle_iff_of_disabled_exhausted :
    let r := Run.late 2
    r.engine.settings.availabilityThreshold < 0 ∧ r.failuresHeard = 2 ∧ r.engine.Idle := by
  intro r
  have off : r.engine.settings.availabilityThreshold < 0 := by decide +kernel
  have limit : r.engine.settings.maxRetries = 1 := by decide +kernel
  obtain ⟨-, -, -, -, -, idle⟩ := idle_iff_of_disabled r off
  exact ⟨off, rfl, idle.mpr (by rw [limit]; decide)⟩

/-- The retry of the first failure is recorded and the failure counted. -/
theorem late_failure_held :
    ¬ ∀ e : Engine, e.Reachable → e.settings.availabilityThreshold < 0 → e.Idle := by
  intro always
  let e := (Run.late 1).engine
  have off : e.settings.availabilityThreshold < 0 := by decide +kernel
  have failed : e.retry.failures = 1 := by decide +kernel
  have idle := always e ⟨Run.late 1, rfl⟩ off
  rw [idle.unfailed] at failed
  cases failed

end ModemSelect
