import ModemSelect.Proofs.Sound

namespace ModemSelect

namespace Engine

/-- The engine holds no trace of a switch. -/
structure Idle (e : Engine) : Prop where
  unrecorded : ∀ key, e.timers.record? key = none
  unarmed : ∀ backend key, e.timers.isArmedOn backend key = false
  asleep : ∀ clock, e.nextWakeup clock = none
  unfailed : e.retry.failures = 0
  untargeted : e.target = none
  unvalidated : e.validating = false

theorem idle_of_not_hasPending {e : Engine} (sound : e.course.Sound)
    (h : e.hasPending = false) : e.Idle := by
  simp only [hasPending, Bool.or_eq_false_iff, Timers.isScheduled, Option.isSome_eq_false_iff,
    Option.isNone_iff_eq_none, decide_eq_false_iff_not, Nat.not_lt, Nat.le_zero] at h
  obtain ⟨⟨⟨untargeted, stability⟩, evaluate⟩, unfailed⟩ := h
  have unrecorded : ∀ key, e.timers.record? key = none := by
    intro key
    cases key with
    | evaluate => exact evaluate
    | stabilityCheck => exact stability
  refine ⟨unrecorded, ?_, ?_, unfailed, untargeted, ?_⟩
  · intro backend key
    exact Timers.isArmedOn_of_bare sound.timers (unrecorded key) backend
  · intro clock
    exact Timers.nextWakeup_of_bare sound.timers unrecorded clock
  · cases hv : e.validating with
    | false => rfl
    | true => exact absurd untargeted (sound.aimed hv)

theorem idle_of_cleared {e : Engine} {c : Course} (sound : c.Sound)
    (h : e.course = c.cleared) : e.Idle :=
  idle_of_not_hasPending (h ▸ Course.sound_cleared sound) (hasPending_of_cleared h)

/-- A switch is pending or the engine holds nothing of one. An event gives one directive at most;
it cancels only what is pending, unless it is the request to cancel, which always does; and once
it has cancelled or switched at once nothing of a switch is left. -/
theorem cancellation_exact {e : Engine} (h : e.Reachable) :
    (e.hasPending = false → e.Idle) ∧ ∀ m event,
      (e.handle m event).directives.length ≤ 1 ∧
      (event ≠ .cancelPendingSwitch →
        .cancelPendingValidation ∈ (e.handle m event).directives → e.hasPending = true) ∧
      (e.handle m .cancelPendingSwitch).directives = [.cancelPendingValidation] ∧
      ∀ d ∈ (e.handle m event).directives, d.Stops → (e.handle m event).engine.Idle := by
  refine ⟨idle_of_not_hasPending h.sound, fun m event => ?_⟩
  let b : Beat := ⟨e, m, .event event⟩
  have quiet : b.directives = [] →
      (e.handle m event).directives.length ≤ 1 ∧
      (event ≠ .cancelPendingSwitch →
        .cancelPendingValidation ∈ (e.handle m event).directives → e.hasPending = true) ∧
      (e.handle m .cancelPendingSwitch).directives = [.cancelPendingValidation] ∧
      ∀ d ∈ (e.handle m event).directives, d.Stops → (e.handle m event).engine.Idle := by
    intro hd
    change (e.handle m event).directives = [] at hd
    simp [hd]
    rfl
  cases b.turn with
  | still _ directives => exact quiet directives
  | stopped d course directives stops undecided asked =>
    change (e.handle m event).directives = [d] at directives
    refine ⟨by simp [directives], ?_, rfl, fun _ _ _ => idle_of_cleared h.sound course⟩
    intro hne hm
    rw [directives, List.mem_singleton] at hm
    rcases asked hm.symm with pending | task | ⟨p, task⟩
    · exact pending
    · cases task
      exact absurd rfl hne
    · cases task
  | disregarded _ _ _ _ directives => exact quiet directives
  | kept _ _ _ _ _ directives => exact quiet directives
  | armed _ _ _ _ _ directives => exact quiet directives
  | retried _ _ _ directives => exact quiet directives
  | exhausted _ _ directives => exact quiet directives
  | completed _ _ directives => exact quiet directives
  | passed p task => cases task
  | collected task => cases task

/-- A debounce that ends because the other slot may no longer carry data. -/
theorem cancellation_exact_debouncing :
    let e := { Run.debounced with acts := Run.debounced.acts.take 1 }.engine
    let o := e.handle ⟨⟨5000, 5000⟩, .sample .outOfService [0, 1] true⟩
      (.evaluationRequested .external)
    e.hasPending = true ∧ o.directives = [.cancelPendingValidation] ∧ o.engine.Idle := by
  intro e o
  have cancels : o.directives = [.cancelPendingValidation] := by decide +kernel
  obtain ⟨-, handled⟩ := cancellation_exact (e := e) ⟨_, rfl⟩
  obtain ⟨-, exact, -, idle⟩ :=
    handled ⟨⟨5000, 5000⟩, .sample .outOfService [0, 1] true⟩ (.evaluationRequested .external)
  have emitted : Directive.cancelPendingValidation ∈ o.directives := by simp [cancels]
  exact ⟨exact (by simp) emitted, cancels, idle _ emitted trivial⟩

end Engine

end ModemSelect
