import ModemSelect.Proofs.Gate

namespace ModemSelect.Engine

/-- An evaluation leaves the engine just as it is and gives no directive, whenever and for whatever
reason it is made. -/
def Settled (e : Engine) (phones : Readings) : Prop :=
  ∀ clock reason, e.evaluate ⟨clock, phones⟩ reason = { engine := e }

/-- Wherever the policy is asked it answers, and with no switch to be made at once. -/
def Unhurried (e : Engine) (phones : Readings) : Prop :=
  e.settings.enabled = true → phones.leavesChoice = true →
    ∃ d, e.decide phones = .ok d ∧ ∀ target why, d ≠ .immediate target why

/-- An evaluation does no more than drop what is pending. -/
def Drops (e : Engine) (phones : Readings) : Prop :=
  e.settings.enabled = true ∧ (phones.leavesChoice = true → e.decide phones = .ok .noAction)

/-- Evaluations one after the other, each at its own time and for its own reason, while the handset
stays as it is. -/
def evaluateAll (e : Engine) (phones : Readings) : List (Clock × Reason) → Outcome
  | [] => { engine := e }
  | (clock, reason) :: rest =>
    (e.evaluate ⟨clock, phones⟩ reason).andThen fun e => e.evaluateAll phones rest

theorem Settled.evaluateAll {e : Engine} {phones : Readings} (h : e.Settled phones)
    (times : List (Clock × Reason)) : e.evaluateAll phones times = { engine := e } := by
  induction times with
  | nil => rfl
  | cons first rest ih =>
    rw [Engine.evaluateAll, h, Outcome.andThen, ih]
    rfl

/-- A target that its check already waits for is nothing to turn to. -/
theorem awaitStability_of_carries {e : Engine} {p : Pending} (aimed : e.target = some p.target)
    (carries : e.timers.carries .stabilityCheck (.stability p) = true) (clock : Clock)
    (reason : Reason) : e.awaitStability clock reason p = e := by
  have kept := Timers.schedule_of_carries carries (e.settings.stabilityDelay p.performance) clock
  unfold awaitStability
  split
  next => rfl
  next =>
    dsimp only
    rw [kept, ← aimed]

/-- Turning to a switch twice is turning to it once. -/
theorem awaitStability_awaitStability (e : Engine) (clock clock' : Clock)
    (reason reason' : Reason) (p : Pending) :
    (e.awaitStability clock reason p).awaitStability clock' reason' p =
      e.awaitStability clock reason p := by
  by_cases busy : e.validating = true ∧ e.target = some p.target
  · rw [awaitStability_of_busy busy, awaitStability_of_busy busy]
  · have course := course_awaitStability busy clock reason
    apply awaitStability_of_carries
    · exact congrArg Course.target course
    · rw [timers_of_course course]
      exact Timers.carries_schedule ..

theorem dropPending_of_not_hasPending {e : Engine} (h : e.hasPending = false) (clock : Clock) :
    e.dropPending clock = { engine := e } := by
  simp [dropPending, h]

theorem hasPending_dropPending (e : Engine) (clock : Clock) :
    (e.dropPending clock).engine.hasPending = false := by
  unfold dropPending
  split
  next => exact hasPending_of_cleared (c := e.course) rfl
  next none => exact eq_false_of_ne_true none

/-- Dropping a switch twice is dropping it once. -/
theorem dropPending_dropPending (e : Engine) (clock clock' : Clock) :
    (e.dropPending clock).engine.dropPending clock' = { engine := (e.dropPending clock).engine } :=
  dropPending_of_not_hasPending (hasPending_dropPending e clock) clock'

section

variable {e : Engine} {phones : Readings}

theorem Drops.of_basis {e' : Engine} (h : e.Drops phones) (same : e'.basis = e.basis) :
    e'.Drops phones := by
  rw [Drops, settings_of_basis same, decide_of_basis same]
  exact h

theorem Drops.evaluate (h : e.Drops phones) (clock : Clock) (reason : Reason) :
    e.evaluate ⟨clock, phones⟩ reason = e.dropPending clock := by
  obtain ⟨enabled, unmoved⟩ := h
  cases choice : phones.leavesChoice with
  | false => exact evaluate_of_closed enabled choice reason
  | true =>
    have decided := decision?_eq_some_iff.mpr ⟨enabled, choice, unmoved choice⟩
    exact evaluate_of_decision? (m := ⟨clock, phones⟩) decided reason

theorem settled_of_disabled (h : e.settings.enabled = false) : e.Settled phones := by
  intro clock reason
  simp [evaluate, h]

theorem settled_awaitStability {p : Pending} (decided : e.decision? phones = some (.pending p))
    (clock : Clock) (reason : Reason) : (e.awaitStability clock reason p).Settled phones := by
  intro clock' reason'
  have again := (decision?_of_basis (basis_awaitStability e clock reason p) phones).trans decided
  rw [evaluate_of_pending (m := ⟨clock', phones⟩) again, awaitStability_awaitStability]

theorem settled_dropPending (h : e.Drops phones) (clock : Clock) :
    (e.dropPending clock).engine.Settled phones := by
  intro clock' reason'
  rw [(h.of_basis (basis_dropPending e clock)).evaluate, dropPending_dropPending]

theorem Unhurried.cases (h : e.Unhurried phones) :
    e.settings.enabled = false ∨ (∃ p, e.decision? phones = some (.pending p)) ∨
      e.Drops phones := by
  cases enabled : e.settings.enabled with
  | false => exact Or.inl rfl
  | true =>
    refine Or.inr ?_
    cases choice : phones.leavesChoice with
    | false => exact Or.inr ⟨enabled, by simp [choice]⟩
    | true =>
      obtain ⟨d, decided, unhurried⟩ := h enabled choice
      cases d with
      | pending p => exact Or.inl ⟨p, decision?_eq_some_iff.mpr ⟨enabled, choice, decided⟩⟩
      | immediate target why => exact absurd rfl (unhurried target why)
      | noAction => exact Or.inr ⟨enabled, fun _ => decided⟩

theorem settled_evaluate (h : e.Unhurried phones) (clock : Clock) (reason : Reason) :
    (e.evaluate ⟨clock, phones⟩ reason).engine.Settled phones := by
  rcases h.cases with disabled | ⟨p, decided⟩ | drops
  · rw [settled_of_disabled disabled]
    exact settled_of_disabled disabled
  · rw [evaluate_of_pending (m := ⟨clock, phones⟩) decided]
    exact settled_awaitStability decided clock reason
  · rw [drops.evaluate]
    exact settled_dropPending drops clock

/-- An evaluation that neither switches at once nor meets an error does all there is to do: until
something else happens further ones change nothing and say nothing, however late they come. -/
theorem evaluate_idempotent (h : e.Unhurried phones) (clock : Clock) (reason : Reason)
    (later : List (Clock × Reason)) :
    let after := (e.evaluate ⟨clock, phones⟩ reason).engine
    after.evaluateAll phones later = { engine := after } :=
  (settled_evaluate h clock reason).evaluateAll later

end

/-- A retry and a check are on their way when the other slot is restricted. The first evaluation
cancels both. -/
theorem evaluate_idempotent_restricted :
    let phones : Readings := .sample .home [0, 1] true
    let first := Run.renewed.engine.evaluate ⟨⟨125000, 125000⟩, phones⟩ .dataSettingsChanged
    let after := first.engine
    Run.renewed.engine.Unhurried phones ∧ first.directives = [.cancelPendingValidation] ∧
      after.evaluateAll phones [(⟨125000, 125000⟩, .external), (⟨900000, 990000⟩, .external)] =
        { engine := after } := by
  intro phones first after
  have decision : Run.renewed.engine.decision? phones = some .noAction := by decide +kernel
  have directives : first.directives = [.cancelPendingValidation] := by decide +kernel
  have unhurried : Run.renewed.engine.Unhurried phones := fun _ _ =>
    ⟨.noAction, (decision?_eq_some_iff.mp decision).2.2, fun _ _ => Decision.noConfusion⟩
  exact ⟨unhurried, directives, evaluate_idempotent unhurried _ _ _⟩

end ModemSelect.Engine
