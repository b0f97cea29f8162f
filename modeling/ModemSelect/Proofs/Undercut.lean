import ModemSelect.Proofs.Gate
import ModemSelect.Proofs.Progress

namespace ModemSelect

namespace Beat

/-- The beat counts the failures anew: a validation is answered or the switch is stopped. -/
def Recounts (b : Beat) : Prop := b.Answers ∨ ∃ d ∈ b.directives, d.Stops

/-- The engine is told of new settings. -/
def Brings (b : Beat) (settings : Settings) : Prop := b.task = .event (.settingsChanged settings)

/-- The beat sets the limit below the count of failures and leaves the count as it is. -/
def Undercuts (b : Beat) : Prop :=
  ∃ settings, b.Brings settings ∧ settings.maxRetries < b.engine.retry.failures ∧ ¬ b.Recounts

/-- The beat counts the failures anew or sets the limit. -/
def Renews (b : Beat) : Prop := b.Recounts ∨ ∃ settings, b.Brings settings

variable {b : Beat}

theorem not_recounts (unanswered : ¬ b.Answers) (directives : b.directives = []) :
    ¬ b.Recounts := by
  intro recounts
  rcases recounts with answers | ⟨d, hd, -⟩
  · exact unanswered answers
  · simp [directives] at hd

theorem retry_of_course {c : Course} (h : b.after.course = c) : b.after.retry = c.retry :=
  congrArg Course.retry h

theorem settings_of_brings {settings : Settings} (brings : b.Brings settings) :
    b.after.settings = settings := by
  obtain ⟨e, m, task⟩ := b
  cases brings
  exact congrArg Basis.settings (Engine.basis_handle e m (.settingsChanged settings)).1

theorem settings_of_not_brings (kept : ∀ settings, ¬ b.Brings settings) :
    b.after.settings = b.engine.settings := by
  obtain ⟨e, m, task⟩ := b
  cases task with
  | collect => rfl
  | deliver note => exact Engine.settings_of_basis (Engine.basis_deliver e m note)
  | event event =>
    have after : (e.handle m event).engine.settings = (event.rebase e.basis m.phones).settings :=
      congrArg Basis.settings (Engine.basis_handle e m event).1
    refine after.trans ?_
    cases event with
    | settingsChanged settings => exact absurd rfl (kept settings)
    | _ => rfl

/-- A failed validation raises the count by one where there is room for it below the limit. -/
theorem failures_le_of_failed (failed : b.task = .event .validationFailed) :
    b.after.retry.failures ≤ b.after.settings.maxRetries := by
  obtain ⟨e, m, task⟩ := b
  cases failed
  have settings := Engine.settings_of_basis (Engine.basis_failValidation e m.clock)
  change (e.failValidation m.clock).retry.failures ≤ (e.failValidation m.clock).settings.maxRetries
  rw [settings]
  by_cases room : e.retry.failures < e.settings.maxRetries
  · have retry : (e.failValidation m.clock).retry = _ :=
      congrArg Course.retry (Engine.course_failValidation_of_lt room m.clock)
    rw [retry]
    exact room
  · have retry : (e.failValidation m.clock).retry = _ :=
      congrArg Course.retry (Engine.course_failValidation_of_not_lt room m.clock)
    rw [retry]
    exact Nat.zero_le _

/-- All else that counts the failures anew starts from none. -/
theorem retry_of_recounts (recounts : b.Recounts) (unfailed : b.task ≠ .event .validationFailed) :
    b.after.retry = ⟨0⟩ := by
  cases b.turn with
  | still course directives undecided unanswered =>
    exact absurd recounts (not_recounts unanswered directives)
  | stopped d course => exact retry_of_course course
  | disregarded p decides busy course directives =>
    exact absurd recounts (not_recounts (unanswered_of_decides decides) directives)
  | kept p decides free carries course directives =>
    exact absurd recounts (not_recounts (unanswered_of_decides decides) directives)
  | armed p decides free fresh course directives =>
    exact absurd recounts (not_recounts (unanswered_of_decides decides) directives)
  | retried delay task => exact absurd task unfailed
  | exhausted task => exact absurd task unfailed
  | completed task course => exact retry_of_course course
  | passed p task course directives =>
    rcases recounts with answers | ⟨d, hd, stops⟩
    · rcases answers with event | event <;> rw [task] at event <;> cases event
    · rw [directives, List.mem_singleton] at hd
      subst hd
      exact stops.elim
  | collected task course directives =>
    refine absurd recounts (not_recounts (fun answers => ?_) directives)
    rcases answers with event | event <;> rw [task] at event <;> cases event

theorem failures_le_of_recounts (recounts : b.Recounts) :
    b.after.retry.failures ≤ b.after.settings.maxRetries := by
  by_cases failed : b.task = .event .validationFailed
  · exact failures_le_of_failed failed
  · rw [retry_of_recounts recounts failed]
    exact Nat.zero_le _

theorem retry_of_not_recounts (h : ¬ b.Recounts) : b.after.retry = b.engine.retry := by
  cases b.turn with
  | still course => exact retry_of_course course
  | stopped d course directives stops =>
    exact absurd (Or.inr ⟨d, directives ▸ List.mem_singleton_self d, stops⟩) h
  | disregarded p decides busy course => exact retry_of_course course
  | kept p decides free carries course => exact retry_of_course course
  | armed p decides free fresh course => exact retry_of_course course
  | retried delay task => exact absurd (Or.inl (Or.inl task)) h
  | exhausted task => exact absurd (Or.inl (Or.inl task)) h
  | completed task => exact absurd (Or.inl (Or.inr task)) h
  | passed p task course => exact retry_of_course course
  | collected task course => exact retry_of_course course

/-- The count is over the limit after a beat that undercuts it, and after any other beat that finds
it so and renews neither. -/
theorem over_after_iff :
    b.after.settings.maxRetries < b.after.retry.failures ↔
      b.Undercuts ∨ b.engine.settings.maxRetries < b.engine.retry.failures ∧ ¬ b.Renews := by
  by_cases recounts : b.Recounts
  · have within := failures_le_of_recounts recounts
    have uncut : ¬ b.Undercuts := fun ⟨_, _, _, keeps⟩ => keeps recounts
    have renews : b.Renews := Or.inl recounts
    simp only [uncut, renews, not_true, and_false, or_false, iff_false]
    omega
  · rw [retry_of_not_recounts recounts]
    by_cases brought : ∃ settings, b.Brings settings
    · obtain ⟨settings, brings⟩ := brought
      have renews : b.Renews := Or.inr ⟨settings, brings⟩
      rw [settings_of_brings brings]
      simp only [renews, not_true, and_false, or_false]
      constructor
      · exact fun exceeds => ⟨settings, brings, exceeds, recounts⟩
      · intro undercuts
        obtain ⟨settings', brings', exceeds, -⟩ := undercuts
        have same : settings = settings' := by
          rw [← settings_of_brings brings, settings_of_brings brings']
        rwa [same]
    · have uncut : ¬ b.Undercuts := fun ⟨settings, brings, _⟩ => brought ⟨settings, brings⟩
      have kept : ¬ b.Renews := fun renews => renews.elim recounts brought
      rw [settings_of_not_brings fun settings brings => brought ⟨settings, brings⟩]
      simp [uncut, kept]

end Beat

/-- Some beat undercut the count of failures, and since then neither the count nor the limit has
been renewed. -/
def Undercut (h : List Beat) : Prop :=
  ∃ i b, h[i]? = some b ∧ b.Undercuts ∧ Throughout h i h.length fun c => ¬ c.Renews

theorem undercut_concat {h : List Beat} {b : Beat} :
    Undercut (h ++ [b]) ↔ b.Undercuts ∨ Undercut h ∧ ¬ b.Renews := by
  have last : (h ++ [b])[h.length]? = some b := List.getElem?_concat_length
  have length : (h ++ [b]).length = h.length + 1 := by simp
  constructor
  · intro undercut
    obtain ⟨i, c, hi, undercuts, since⟩ := undercut
    rcases getElem?_concat_cases hi with hi | ⟨-, rfl⟩
    · obtain ⟨hlt, -⟩ := List.getElem?_eq_some_iff.mp hi
      have before : Throughout h i h.length fun c => ¬ c.Renews := by
        intro k d hik hk hd
        exact since k d hik (by omega) (by rwa [List.getElem?_append_left hk])
      exact Or.inr ⟨⟨i, c, hi, undercuts, before⟩, since h.length b hlt (by omega) last⟩
    · exact Or.inl undercuts
  · intro cases
    rcases cases with undercuts | ⟨⟨i, c, hi, undercuts, since⟩, keeps⟩
    · refine ⟨h.length, b, last, undercuts, ?_⟩
      rw [length]
      exact Throughout.adjacent
    · obtain ⟨hlt, -⟩ := List.getElem?_eq_some_iff.mp hi
      exact ⟨i, c, by rwa [List.getElem?_append_left hlt], undercuts, since.concat keeps⟩

theorem Underway.over_iff {h : List Beat} {e : Engine} {m : Moment}
    {tray : List (TimerKey × TimerNote)} (u : Underway h e m tray) :
    e.settings.maxRetries < e.retry.failures ↔ Undercut h := by
  induction u with
  | start settings scorer count phones m =>
    refine iff_of_false (Nat.not_lt_zero _) fun undercut => ?_
    obtain ⟨i, b, hi, -⟩ := undercut
    cases hi
  | beat u takes ih => rw [Beat.over_after_iff, undercut_concat, ih]

/-- The failures in a row are no more than the limit on retries, just as long as no change of
settings has undercut them without the count or the limit being renewed since. -/
theorem failures_le_iff (r : Run) :
    r.engine.retry.failures ≤ r.engine.settings.maxRetries ↔ ¬ Undercut r.beats := by
  obtain ⟨m, u⟩ := r.underway
  rw [← u.over_iff, Nat.not_lt]

/-- A validation has failed once when the settings come to allow no retries. -/
def Run.curtailed : Run where
  settings := {}
  count := 2
  phones := .sample .outOfService [0, 1]
  acts := Run.debounced.acts ++ [
    (⟨⟨10000, 10000⟩, .sample .outOfService [0, 1]⟩, .tell .validationFailed),
    (⟨⟨10000, 10000⟩, .sample .outOfService [0, 1]⟩, .tell (.settingsChanged { maxRetries := 0 }))]

/-- The switch is decided on again under the new settings, so that the failure goes on counting. -/
theorem curtailed_over : ¬ ∀ e : Engine, e.Reachable → e.retry.failures ≤ e.settings.maxRetries := by
  intro always
  have within := always _ ⟨Run.curtailed, rfl⟩
  have limit : Run.curtailed.engine.settings.maxRetries = 0 := by decide +kernel
  have failures : Run.curtailed.engine.retry.failures = 1 := by decide +kernel
  omega

end ModemSelect
