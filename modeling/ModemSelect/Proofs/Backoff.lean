import Mathlib.Algebra.Group.Nat.Defs
import ModemSelect.Proofs.Sound

namespace ModemSelect

/-- An evaluation that a beat leaves on record was there before, or is the retry of a validation
that has just failed. -/
theorem Beat.evaluate_after {b : Beat} (sound : b.course.Sound) {s : Scheduled}
    (hs : b.after.timers.record? .evaluate = some s) :
    b.engine.timers.record? .evaluate = some s ∨
      b.task = .event .validationFailed ∧
        ∃ delay, s = .start (.evaluate .retryValidation) delay b.moment.clock := by
  cases b.turn with
  | still course =>
    rw [Engine.timers_of_course course] at hs
    exact Or.inl hs
  | stopped d course =>
    rw [Engine.timers_of_course course] at hs
    simp [Course.cleared, Timers.record?_cancel] at hs
  | disregarded p decides busy course =>
    rw [Engine.timers_of_course course] at hs
    exact Or.inl hs
  | kept p decides free carries course =>
    rw [Engine.timers_of_course course] at hs
    exact Or.inl hs
  | armed p decides free fresh course =>
    rw [Engine.timers_of_course course, Timers.record?_arm, if_neg (by decide)] at hs
    exact Or.inl hs
  | retried delay task course =>
    rw [Engine.timers_of_course course, Timers.schedule] at hs
    split at hs
    next => exact Or.inl hs
    next =>
      rw [Timers.record?_arm, if_pos rfl] at hs
      exact Or.inr ⟨task, delay, (Option.some.inj hs).symm⟩
  | exhausted task course =>
    rw [Engine.timers_of_course course, Timers.record?_cancel, if_pos rfl] at hs
    cases hs
  | completed task course =>
    rw [Engine.timers_of_course course, Timers.record?_cancel, if_pos rfl] at hs
    cases hs
  | passed p task course =>
    rw [Engine.timers_of_course course] at hs
    exact Or.inl hs
  | collected task course =>
    rw [Engine.timers_of_course course] at hs
    have left := Timers.record?_fireDue sound.timers b.moment.clock .evaluate
    have held := Option.filter_eq_some_iff.mp (left.symm.trans hs)
    exact Or.inl held.1

theorem Underway.retries {h : List Beat} {e : Engine} {m : Moment}
    {tray : List (TimerKey × TimerNote)} (u : Underway h e m tray) {s : Scheduled}
    (hs : e.timers.record? .evaluate = some s) : s.note = .evaluate .retryValidation := by
  induction u with
  | start => cases hs
  | beat u takes ih =>
    rcases Beat.evaluate_after u.sound hs with before | ⟨-, delay, rfl⟩
    · exact ih before
    · rfl

theorem Engine.Reachable.retries {e : Engine} (h : e.Reachable) {s : Scheduled}
    (hs : e.timers.record? .evaluate = some s) : s.note = .evaluate .retryValidation := by
  obtain ⟨r, rfl⟩ := h
  obtain ⟨m, u⟩ := r.underway
  exact u.retries hs

theorem Retry.fail_eq_retry {r : Retry} {limit base attempt delay : Nat} :
    (r.fail limit base).2 = .retry attempt delay ↔
      r.failures < limit ∧ attempt = r.failures + 1 ∧ delay = backoff base r.failures := by
  unfold fail
  split
  next room => simp [room, eq_comm]
  next full => simp [full]

/-- A retry is on record with the whole delay still before it. -/
def Timers.AwaitsRetry (t : Timers) (clock : Clock) (delay : Nat) : Prop :=
  ∃ s, t.record? .evaluate = some s ∧ s.note = .evaluate .retryValidation ∧ s.delay = delay ∧
    s.deadline = clock.now s.backend.timeBase + delay

namespace Engine

/-- A failed validation that is retried leaves the wait in full just where no earlier retry is on
record, or one that has as long before it. An earlier retry keeps its time. -/
theorem full_wait_iff {e : Engine} (h : e.Reachable) (m : Moment) {attempt delay : Nat}
    (retries : (e.retry.fail e.settings.maxRetries (e.settings.stabilityDelay false)).2 =
      .retry attempt delay)
    (room : m.clock.now (Backend.forDelay delay).timeBase + delay ≤ wordMax) :
    let after := (e.handle m .validationFailed).engine
    after.retry.failures = attempt ∧
      delay = min (e.settings.stabilityDelay false * 2 ^ (attempt - 1)) wordMax ∧
      (∀ s, e.timers.record? .evaluate = some s → after.timers.record? .evaluate = some s) ∧
      (after.timers.AwaitsRetry m.clock delay ↔
        e.timers.record? .evaluate = none ∨ e.timers.AwaitsRetry m.clock delay) := by
  intro after
  obtain ⟨lt, rfl, rfl⟩ := Retry.fail_eq_retry.mp retries
  have course : after.course = _ := course_failValidation_of_lt lt m.clock
  obtain ⟨timers, retry, -, -⟩ := Course.mk.inj course
  have kept : ∀ s, e.timers.record? .evaluate = some s →
      after.timers.record? .evaluate = some s := by
    intro s hs
    have carries := Timers.carries_iff.mpr ⟨s, hs, h.retries hs⟩
    rw [timers, Timers.schedule_of_carries carries]
    exact hs
  refine ⟨congrArg Retry.failures retry, ?_, kept, ?_⟩
  · rw [backoff_eq, Nat.shiftLeft_eq, Nat.add_sub_cancel]
  · constructor
    · intro awaits
      cases before : e.timers.record? .evaluate with
      | none => exact Or.inl rfl
      | some s =>
        obtain ⟨s', hs', awaits⟩ := awaits
        rw [kept s before] at hs'
        cases hs'
        exact Or.inr ⟨s, before, awaits⟩
    · intro cases
      rcases cases with bare | ⟨s, hs, awaits⟩
      · have armed := Timers.record?_schedule_of_bare bare (.evaluate .retryValidation)
          (backoff (e.settings.stabilityDelay false) e.retry.failures) m.clock
        rw [← timers] at armed
        exact ⟨_, armed, rfl, rfl, Nat.min_eq_left room⟩
      · exact ⟨s, kept s hs, awaits⟩

end Engine

/-- The retry has been delivered, and so has the check that was due with it. -/
def Run.revalidated : Run where
  settings := {}
  count := 2
  phones := .sample .home [0, 1]
  acts := Run.renewed.acts ++ [(⟨⟨130000, 240000⟩, .sample .home [0, 1]⟩, .poll)]

/-- The handset sleeps until the check is due, while the retry is still on its way. -/
def Run.overtaken : Run where
  settings := {}
  count := 2
  phones := .sample .home [0, 1]
  acts := Run.renewed.acts ++ [(⟨⟨120000, 240000⟩, .sample .home [0, 1]⟩, .poll)]

namespace Engine

/-- The second failure in a row comes after the first retry. -/
theorem full_wait_iff_revalidated :
    let e := Run.revalidated.engine
    let m : Moment := ⟨⟨130000, 240000⟩, .sample .home [0, 1]⟩
    (e.retry.fail e.settings.maxRetries (e.settings.stabilityDelay false)).2 = .retry 2 20000 ∧
      e.timers.record? .evaluate = none ∧
      (e.handle m .validationFailed).engine.timers.AwaitsRetry m.clock 20000 := by
  intro e m
  have retries : (e.retry.fail e.settings.maxRetries (e.settings.stabilityDelay false)).2 =
      .retry 2 20000 := by decide +kernel
  have bare : e.timers.record? .evaluate = none := by decide +kernel
  obtain ⟨-, -, -, full⟩ := full_wait_iff (e := e) ⟨_, rfl⟩ m retries (by decide +kernel)
  exact ⟨retries, bare, full.mpr (Or.inl bare)⟩

/-- The second failure in a row comes before the first retry. -/
theorem full_wait_cut_short :
    ¬ ∀ (e : Engine) (m : Moment) (attempt delay : Nat), e.Reachable →
      (e.retry.fail e.settings.maxRetries (e.settings.stabilityDelay false)).2 =
        .retry attempt delay →
      m.clock.now (Backend.forDelay delay).timeBase + delay ≤ wordMax →
      (e.handle m .validationFailed).engine.timers.AwaitsRetry m.clock delay := by
  intro always
  let e := Run.overtaken.engine
  let m : Moment := ⟨⟨120000, 240000⟩, .sample .home [0, 1]⟩
  have retries : (e.retry.fail e.settings.maxRetries (e.settings.stabilityDelay false)).2 =
      .retry 2 20000 := by decide +kernel
  obtain ⟨s, hs, -, delay, -⟩ := always e m 2 20000 ⟨_, rfl⟩ retries (by decide +kernel)
  have first : ((e.handle m .validationFailed).engine.timers.record? .evaluate).map (·.delay) =
      some 10000 := by decide +kernel
  rw [hs, Option.map_some, delay] at first
  cases first

end Engine

end ModemSelect
