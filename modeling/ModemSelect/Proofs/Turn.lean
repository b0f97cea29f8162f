import ModemSelect.Proofs.Course

namespace ModemSelect

/-- The directive ends whatever switch is under way. -/
def Directive.Stops : Directive → Prop
  | .cancelPendingValidation | .immediateSwitch .. => True
  | .validationRequired .. => False

namespace Beat

/-- The engine is told how a validation went. -/
def Answers (b : Beat) : Prop :=
  b.task = .event .validationFailed ∨ b.task = .event .validationSucceeded

def course (b : Beat) : Course := b.engine.course

/-- All the ways in which a beat turns the switch under way. -/
inductive Turn (b : Beat) : Prop where
  | still (course : b.after.course = b.course) (directives : b.directives = [])
      (undecided : ∀ p, ¬ b.Decides p) (unanswered : ¬ b.Answers)
  | stopped (d : Directive) (course : b.after.course = b.course.cleared)
      (directives : b.directives = [d]) (stops : d.Stops) (undecided : ∀ p, ¬ b.Decides p)
      (asked : d = .cancelPendingValidation → b.engine.hasPending = true ∨
        b.task = .event .cancelPendingSwitch ∨ ∃ p, b.task = .deliver (.stability p))
  | disregarded (p : Pending) (decides : b.Decides p)
      (busy : b.engine.validating = true ∧ b.engine.target = some p.target)
      (course : b.after.course = b.course) (directives : b.directives = [])
  | kept (p : Pending) (decides : b.Decides p)
      (free : ¬ (b.engine.validating = true ∧ b.engine.target = some p.target))
      (carries : b.engine.timers.carries .stabilityCheck (.stability p) = true)
      (course : b.after.course = { b.course with target := some p.target })
      (directives : b.directives = [])
  | armed (p : Pending) (decides : b.Decides p)
      (free : ¬ (b.engine.validating = true ∧ b.engine.target = some p.target))
      (fresh : b.engine.timers.carries .stabilityCheck (.stability p) = false)
      (course : b.after.course = { b.course with
        target := some p.target
        timers := b.engine.timers.arm .stabilityCheck (.stability p)
          (b.after.settings.stabilityDelay p.performance) b.moment.clock })
      (directives : b.directives = [])
  | retried (delay : Nat) (task : b.task = .event .validationFailed)
      (course : b.after.course = { b.course with
        validating := false
        retry := ⟨b.engine.retry.failures + 1⟩
        timers := (b.engine.timers.schedule .evaluate (.evaluate .retryValidation) delay
          b.moment.clock).1 })
      (directives : b.directives = [])
  | exhausted (task : b.task = .event .validationFailed)
      (course : b.after.course = { b.course with
        validating := false
        retry := ⟨0⟩
        target := none
        timers := (b.engine.timers.cancel .evaluate).1 })
      (directives : b.directives = [])
  | completed (task : b.task = .event .validationSucceeded)
      (course : b.after.course = { b.course with
        validating := false
        retry := ⟨0⟩
        target := none
        timers := (b.engine.timers.cancel .evaluate).1 })
      (directives : b.directives = [])
  | passed (p : Pending) (task : b.task = .deliver (.stability p))
      (course : b.after.course = { b.course with target := some p.target, validating := true })
      (directives : b.directives = [.validationRequired p.target p.needsValidation])
  | collected (task : b.task = .collect)
      (course : b.after.course = { b.course with
        timers := (b.engine.timers.fireDue b.moment.clock).1 })
      (directives : b.directives = [])

theorem decides_iff {b : Beat} {e : Engine} {reason : Reason}
    (h : b.evaluation? = some (e, reason)) {p : Pending} :
    b.Decides p ↔ e.decision? b.moment.phones = some (.pending p) := by
  constructor
  · intro hd
    obtain ⟨e', reason', he, hd⟩ := hd
    rw [h] at he
    cases he
    exact hd
  · intro hd
    exact ⟨e, reason, h, hd⟩

theorem not_decides {b : Beat} (h : b.evaluation? = none) (p : Pending) : ¬ b.Decides p := by
  intro hd
  obtain ⟨e, reason, he, -⟩ := hd
  rw [h] at he
  cases he

theorem evaluation?_of_answers {b : Beat} (h : b.Answers) : b.evaluation? = none := by
  rcases h with task | task <;> simp [evaluation?, task, Engine.takeUp]

theorem unanswered_of_decides {b : Beat} {p : Pending} (h : b.Decides p) : ¬ b.Answers :=
  fun answers => not_decides (evaluation?_of_answers answers) p h

theorem evaluation_spec {b : Beat} {e : Engine} {reason : Reason}
    (h : b.evaluation? = some (e, reason)) :
    e.course = b.course ∧ b.after = (e.evaluate b.moment reason).engine ∧
      b.directives = (e.evaluate b.moment reason).directives := by
  obtain ⟨before, m, task⟩ := b
  cases task with
  | event event =>
    obtain ⟨reason, asked, he⟩ := Option.map_eq_some_iff.mp h
    cases he
    obtain ⟨course, directives⟩ := Engine.takeUp_of_reason asked
    have done : before.handle m event =
        (before.takeUp m event).done.andThen fun e => e.evaluate m reason := by
      rw [Engine.handle, Uptake.complete, asked]
    refine ⟨course, ?_, ?_⟩
    · change (before.handle m event).engine = _
      rw [done]
      rfl
    · change (before.handle m event).directives = _
      rw [done, Outcome.andThen, directives]
      rfl
  | collect => cases h
  | deliver note =>
    cases note with
    | evaluate r =>
      cases h
      exact ⟨rfl, rfl, rfl⟩
    | stability p => cases h

theorem turn_of_evaluation {b : Beat} {e : Engine} {reason : Reason}
    (evaluation : b.evaluation? = some (e, reason)) : b.Turn := by
  obtain ⟨course, outcome, directives⟩ := evaluation_spec evaluation
  have unanswered : ¬ b.Answers := by
    intro answers
    rw [evaluation?_of_answers answers] at evaluation
    cases evaluation
  have decides : ∀ p, b.Decides p ↔ e.decision? b.moment.phones = some (.pending p) :=
    fun p => decides_iff evaluation
  obtain ⟨timers, -, target, validating⟩ := Course.mk.inj course
  by_cases hp : ∃ p, e.decision? b.moment.phones = some (.pending p)
  · obtain ⟨p, hp⟩ := hp
    have hv := Engine.evaluate_of_pending hp reason
    have quiet : b.directives = [] := by rw [directives, hv]
    have after : b.after = e.awaitStability b.moment.clock reason p := by rw [outcome, hv]
    have settings : b.after.settings = e.settings :=
      Engine.settings_of_basis (after ▸ Engine.basis_awaitStability ..)
    by_cases busy : e.validating = true ∧ e.target = some p.target
    · rw [Engine.awaitStability_of_busy busy] at after
      exact .disregarded p ((decides p).mpr hp) (by rwa [← validating, ← target])
        (by rw [after, course]) quiet
    · have turned := Engine.course_awaitStability busy b.moment.clock reason
      rw [← after, course, timers, ← settings] at turned
      have free : ¬ (b.engine.validating = true ∧ b.engine.target = some p.target) := by
        rwa [← validating, ← target]
      cases carries : b.engine.timers.carries .stabilityCheck (.stability p) with
      | true =>
        rw [Timers.schedule_of_carries carries] at turned
        exact .kept p ((decides p).mpr hp) free carries turned quiet
      | false =>
        rw [Timers.schedule, carries] at turned
        exact .armed p ((decides p).mpr hp) free carries turned quiet
  · have undecided : ∀ p, ¬ b.Decides p := fun p h => hp ⟨p, (decides p).mp h⟩
    by_cases hi : ∃ target why, e.decision? b.moment.phones = some (.immediate target why)
    · obtain ⟨t, why, hi⟩ := hi
      obtain ⟨hc, hds⟩ := Engine.evaluate_of_immediate hi reason
      exact .stopped _ (by rw [outcome, hc, course]) (directives.trans hds) trivial undecided
        fun h => by cases h
    · rcases Engine.evaluate_of_undecided (fun p h => hp ⟨p, h⟩) (fun t why h => hi ⟨t, why, h⟩)
        reason with ⟨hc, hds⟩ | ⟨pending, hc, hds⟩
      · exact .still (by rw [outcome, hc, course]) (directives.trans hds) undecided unanswered
      · exact .stopped _ (by rw [outcome, hc, course]) (directives.trans hds) trivial undecided
          fun _ => Or.inl ((Engine.hasPending_of_course course).symm.trans pending)

theorem turn_of_failure (e : Engine) (m : Moment) :
    Turn ⟨e, m, .event .validationFailed⟩ := by
  by_cases room : e.retry.failures < e.settings.maxRetries
  · exact .retried _ rfl (Engine.course_failValidation_of_lt room m.clock) rfl
  · exact .exhausted rfl (Engine.course_failValidation_of_not_lt room m.clock) rfl

/-- An event without an evaluation that is no word about the switch itself changes nothing of the
switch, unless it turns switching off. -/
theorem turn_of_event {e : Engine} {m : Moment} {event : Event}
    (h : (e.takeUp m event).reason = none) : Turn ⟨e, m, .event event⟩ := by
  have done : e.handle m event = (e.takeUp m event).done := by
    rw [Engine.handle, Uptake.complete, h]
  have undecided : ∀ p, ¬ Decides ⟨e, m, .event event⟩ p :=
    not_decides (by simp [evaluation?, h])
  have quiet : (e.takeUp m event).done.engine.course = e.course →
      (e.takeUp m event).done.directives = [] →
      event ≠ .validationFailed → event ≠ .validationSucceeded →
      Turn ⟨e, m, .event event⟩ := by
    intro course directives failed succeeded
    refine .still ?_ ?_ undecided ?_
    · change (e.handle m event).engine.course = _
      rw [done]
      exact course
    · change (e.handle m event).directives = _
      rw [done]
      exact directives
    · intro ha
      rcases ha with ha | ha <;> cases ha <;> contradiction
  cases event with
  | news id update =>
    obtain ⟨course, directives⟩ := Engine.course_hear e m id update
    exact quiet course directives (by simp) (by simp)
  | dataSettingsChanged id => cases h
  | evaluationRequested reason => cases h
  | defaultNetworkChanged network =>
    obtain ⟨course, directives⟩ := Engine.course_setDefaultNetwork e m network
    exact quiet course directives (by simp) (by simp)
  | subscriptionsChanged => cases h
  | modemCountChanged count => cases h
  | settingsChanged settings =>
    change (e.setSettings m settings).reason = _ at h
    have off : settings.enabled = false := by
      unfold Engine.setSettings at h
      split at h
      next => cases h
      next hs => simpa using hs
    have dropped : (e.takeUp m (.settingsChanged settings)).done =
        ({ e with settings }.note m.clock Message.settingsUpdated).dropPending m.clock := by
      simp [Engine.takeUp, Engine.setSettings, off]
    rcases Engine.dropPending_cases ({ e with settings }.note m.clock Message.settingsUpdated)
      m.clock with ⟨course, directives⟩ | ⟨pending, course, directives⟩
    · exact quiet (by rw [dropped, course]; rfl) (by rw [dropped, directives]) (by simp) (by simp)
    · refine .stopped .cancelPendingValidation ?_ ?_ trivial undecided fun _ => Or.inl pending
      · change (e.handle m (.settingsChanged settings)).engine.course = _
        rw [done, dropped, course]
        rfl
      · change (e.handle m (.settingsChanged settings)).directives = _
        rw [done, dropped, directives]
  | validationFailed => exact turn_of_failure e m
  | validationSucceeded => exact .completed rfl rfl rfl
  | cancelPendingSwitch =>
    exact .stopped .cancelPendingValidation rfl rfl trivial undecided
      fun _ => Or.inr (Or.inl rfl)

theorem turn (b : Beat) : b.Turn := by
  obtain ⟨e, m, task⟩ := b
  cases task with
  | event event =>
    cases h : (e.takeUp m event).reason with
    | none => exact turn_of_event h
    | some reason =>
      have evaluation : evaluation? ⟨e, m, .event event⟩ =
          some ((e.takeUp m event).done.engine, reason) := by
        simp [evaluation?, h]
      exact turn_of_evaluation evaluation
  | collect => exact .collected rfl rfl rfl
  | deliver note =>
    cases note with
    | evaluate reason =>
      have evaluation : evaluation? ⟨e, m, .deliver (.evaluate reason)⟩ = some (e, reason) := rfl
      exact turn_of_evaluation evaluation
    | stability p =>
      by_cases h : (e.settings.enabled && m.phones.leavesChoice) = true
      · have passes : e.passStability m p = {
            engine := { e with target := some p.target, validating := true }.note m.clock
              (Message.requireValidation p)
            directives := [.validationRequired p.target p.needsValidation] } := by
          rw [Engine.passStability, if_pos h]
        refine .passed p rfl ?_ ?_
        · change (e.passStability m p).engine.course = _
          rw [passes]
          rfl
        · change (e.passStability m p).directives = _
          rw [passes]
      · have cancels : e.passStability m p = e.cancelPending m.clock := by
          rw [Engine.passStability, if_neg h]
        refine .stopped .cancelPendingValidation ?_ ?_ trivial (not_decides rfl)
          fun _ => Or.inr (Or.inr ⟨p, rfl⟩)
        · change (e.passStability m p).engine.course = _
          rw [cancels]
          rfl
        · change (e.passStability m p).directives = _
          rw [cancels]
          rfl

/-- A validation is only ever asked for by a stability check that is delivered. -/
theorem asks_spec {b : Beat} {target : Nat} {needsValidation : Bool}
    (asks : .validationRequired target needsValidation ∈ b.directives) :
    ∃ p, b.task = .deliver (.stability p) ∧ p.target = target ∧
      p.needsValidation = needsValidation ∧
      b.directives = [.validationRequired target needsValidation] := by
  have silent : b.directives ≠ [] := List.ne_nil_of_mem asks
  cases b.turn with
  | still _ directives => exact absurd directives silent
  | stopped d _ directives stops =>
    rw [directives, List.mem_singleton] at asks
    rw [← asks] at stops
    exact stops.elim
  | disregarded _ _ _ _ directives => exact absurd directives silent
  | kept _ _ _ _ _ directives => exact absurd directives silent
  | armed _ _ _ _ _ directives => exact absurd directives silent
  | retried _ _ _ directives => exact absurd directives silent
  | exhausted _ _ directives => exact absurd directives silent
  | completed _ _ directives => exact absurd directives silent
  | passed p task course directives =>
    rw [directives, List.mem_singleton] at asks
    cases asks
    exact ⟨p, task, rfl, rfl, directives⟩
  | collected _ _ directives => exact absurd directives silent

end Beat

end ModemSelect
