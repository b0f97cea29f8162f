import ModemSelect.Proofs.Origin

namespace ModemSelect

namespace Beat

/-- The beat lets go of the target of a pending switch: a switch is done, the retries are used up,
or a check for another target is delivered. -/
def Strays (b : Beat) (p : Pending) : Prop :=
  b.task = .event .validationSucceeded ∨
    b.task = .event .validationFailed ∧ b.engine.settings.maxRetries ≤ b.engine.retry.failures ∨
    ∃ q, b.task = .deliver (.stability q) ∧ q.target ≠ p.target

theorem not_decides_of_strays {b : Beat} {p : Pending} (strays : b.Strays p) (q : Pending) :
    ¬ b.Decides q := by
  refine not_decides ?_ q
  rcases strays with task | ⟨task, -⟩ | ⟨q', task, -⟩
  · exact evaluation?_of_answers (Or.inr task)
  · exact evaluation?_of_answers (Or.inl task)
  · simp [evaluation?, task]

theorem target_of_decides {b : Beat} {p : Pending} (decides : b.Decides p) :
    b.after.target = some p.target := by
  obtain ⟨e, reason, evaluation, decision⟩ := decides
  obtain ⟨-, after, -⟩ := evaluation_spec evaluation
  rw [Engine.evaluate_of_pending decision reason] at after
  by_cases busy : e.validating = true ∧ e.target = some p.target
  · rw [after, Engine.awaitStability_of_busy busy]
    exact busy.2
  · have course := Engine.course_awaitStability busy b.moment.clock reason
    rw [after]
    exact congrArg Course.target course

theorem directives_of_delivers {b : Beat} {q : Pending}
    (task : b.task = .deliver (.stability q)) : b.directives ≠ [] := by
  have passes : b.directives = (b.engine.passStability b.moment q).directives := by
    simp [directives, outcome, task, Engine.deliver]
  rw [passes, Engine.passStability]
  split <;> simp [Engine.cancelPending]

/-- While a check stays on record the target is that of its switch after a beat that decides on the
switch, and after any other beat that finds it so and does not let go of it. -/
theorem target_after_iff {b : Beat} {s : Scheduled} {p : Pending} (note : s.note = .stability p)
    (before : b.engine.timers.record? .stabilityCheck = some s)
    (after : b.after.timers.record? .stabilityCheck = some s)
    (settled : ∀ q, b.task = .deliver (.stability q) → b.engine.target = some p.target) :
    b.after.target = some p.target ↔
      b.Decides p ∨ b.engine.target = some p.target ∧ ¬ b.Strays p := by
  by_cases decides : b.Decides p
  · simp [decides, target_of_decides decides]
  have same : b.after.target = b.engine.target → ¬ b.Strays p →
      (b.after.target = some p.target ↔
        b.Decides p ∨ b.engine.target = some p.target ∧ ¬ b.Strays p) := by
    intro unmoved keeps
    simp [decides, unmoved, keeps]
  have lost : b.after.target = none → b.Strays p →
      (b.after.target = some p.target ↔
        b.Decides p ∨ b.engine.target = some p.target ∧ ¬ b.Strays p) := by
    intro gone strays
    simp [decides, gone, strays]
  -- Failures are taken apart first, since `turn` does not tell whether a retry was left.
  by_cases failed : b.task = .event .validationFailed
  · have after : b.after = b.engine.failValidation b.moment.clock := by
      simp [Beat.after, outcome, failed, Engine.handle, Engine.takeUp, Uptake.complete]
    by_cases room : b.engine.retry.failures < b.engine.settings.maxRetries
    · have course := Engine.course_failValidation_of_lt room b.moment.clock
      rw [← after] at course
      refine same (congrArg Course.target course) fun strays => ?_
      rcases strays with task | ⟨-, full⟩ | ⟨q, task, -⟩
      · rw [failed] at task
        cases task
      · omega
      · rw [failed] at task
        cases task
    · have course := Engine.course_failValidation_of_not_lt room b.moment.clock
      rw [← after] at course
      exact lost (congrArg Course.target course) (Or.inr (Or.inl ⟨failed, Nat.le_of_not_lt room⟩))
  cases b.turn with
  | still course directives undecided unanswered =>
    refine same (congrArg Course.target course) fun strays => ?_
    rcases strays with task | ⟨task, -⟩ | ⟨q, task, -⟩
    · exact unanswered (Or.inr task)
    · exact failed task
    · exact directives_of_delivers task directives
  | stopped d course =>
    rw [Engine.timers_of_course course] at after
    simp [Course.cleared, Timers.record?_cancel] at after
  | disregarded q decides' busy course =>
    exact same (congrArg Course.target course) fun strays => not_decides_of_strays strays q decides'
  | kept q decides' free carries =>
    obtain ⟨s', hs', note'⟩ := Timers.carries_iff.mp carries
    rw [before] at hs'
    cases hs'
    rw [note] at note'
    cases note'
    exact absurd decides' decides
  | armed q decides' free fresh course =>
    rw [Engine.timers_of_course course, Timers.record?_arm, if_pos rfl] at after
    cases after
    cases note
    exact absurd decides' decides
  | retried delay task => exact absurd task failed
  | exhausted task => exact absurd task failed
  | completed task course => exact lost (congrArg Course.target course) (Or.inl task)
  | passed q task course =>
    have target : b.after.target = some q.target := congrArg Course.target course
    have strays : b.Strays p ↔ q.target ≠ p.target := by simp [Strays, task]
    simp [decides, target, settled q task, strays]
  | collected task course =>
    refine same (congrArg Course.target course) fun strays => ?_
    rcases strays with task' | ⟨task', -⟩ | ⟨q, task', -⟩ <;> rw [task] at task' <;> cases task'

end Beat

/-- Each beat since the given one that let go of the target was followed by one that decided on the
switch again. -/
def Recovered (h : List Beat) (j : Nat) (p : Pending) : Prop :=
  ∀ k b, j < k → h[k]? = some b → b.Strays p →
    ∃ l b', k < l ∧ h[l]? = some b' ∧ b'.Decides p

theorem recovered_last {h : List Beat} {j : Nat} (hj : h.length ≤ j + 1) (p : Pending) :
    Recovered h j p := by
  intro k b hk hb
  obtain ⟨hlt, -⟩ := List.getElem?_eq_some_iff.mp hb
  omega

theorem recovered_concat {h : List Beat} {b : Beat} {j : Nat} {p : Pending} (hj : j < h.length) :
    Recovered (h ++ [b]) j p ↔ b.Decides p ∨ Recovered h j p ∧ ¬ b.Strays p := by
  have last : (h ++ [b])[h.length]? = some b := List.getElem?_concat_length
  have old : ∀ {l : Nat} {d : Beat}, h[l]? = some d → (h ++ [b])[l]? = some d := by
    intro l d hd
    obtain ⟨hlt, -⟩ := List.getElem?_eq_some_iff.mp hd
    rwa [List.getElem?_append_left hlt]
  constructor
  · intro recovered
    by_cases decides : b.Decides p
    · exact Or.inl decides
    · refine Or.inr ⟨?_, ?_⟩
      · intro k d hk hd strays
        obtain ⟨l, d', hl, hd', again⟩ := recovered k d hk (old hd) strays
        rcases getElem?_concat_cases hd' with hd' | ⟨-, rfl⟩
        · exact ⟨l, d', hl, hd', again⟩
        · exact absurd again decides
      · intro strays
        obtain ⟨l, d', hl, hd', -⟩ := recovered h.length b hj last strays
        obtain ⟨hlt, -⟩ := List.getElem?_eq_some_iff.mp hd'
        rw [List.length_append, List.length_singleton] at hlt
        omega
  · intro cases k d hk hd strays
    rcases getElem?_concat_cases hd with hd | ⟨rfl, rfl⟩
    · rcases cases with decides | ⟨recovered, -⟩
      · obtain ⟨hlt, -⟩ := List.getElem?_eq_some_iff.mp hd
        exact ⟨h.length, b, hlt, last, decides⟩
      · obtain ⟨l, d', hl, hd', again⟩ := recovered k d hk hd strays
        exact ⟨l, d', hl, old hd', again⟩
    · rcases cases with decides | ⟨-, keeps⟩
      · exact absurd decides (Beat.not_decides_of_strays strays p)
      · exact absurd strays keeps

namespace Underway

variable {h : List Beat} {e : Engine} {m : Moment} {tray : List (TimerKey × TimerNote)}

/-- A check delivered while another one is on record comes right after the arming of that one. -/
theorem delivered_behind (u : Underway h e m tray) {key : TimerKey} {q : Pending}
    {rest : List (TimerKey × TimerNote)} (first : tray = (key, .stability q) :: rest) {j : Nat}
    {a : Beat} {s : Scheduled} (ha : h[j]? = some a) (arms : a.Arms s)
    (held : Throughout h j h.length fun b => b.after.timers.record? .stabilityCheck = some s) :
    h.length = j + 1 := by
  subst first
  have fit := u.tray_fits.2 _ List.mem_cons_self
  cases key with
  | evaluate => cases fit
  | stabilityCheck =>
    obtain ⟨j', c, s', o, -⟩ := u.inTray List.mem_cons_self
    obtain ⟨hlt, -⟩ := List.getElem?_eq_some_iff.mp ha
    exact o.behind ha arms hlt held

theorem aimed_iff (u : Underway h e m tray) {s : Scheduled} {p : Pending}
    (hs : e.timers.record? .stabilityCheck = some s) (note : s.note = .stability p) :
    ∃ j b, h[j]? = some b ∧ b.Arms s ∧
      Throughout h j h.length (fun b => b.after.timers.record? .stabilityCheck = some s) ∧
      (e.target = some p.target ↔ Recovered h j p) := by
  induction u with
  | start => cases hs
  | @beat h b m tray tray' u takes ih =>
    by_cases before : b.engine.timers.record? .stabilityCheck = some s
    · obtain ⟨j, a, ha, arms, held, aimed⟩ := ih before
      obtain ⟨hlt, -⟩ := List.getElem?_eq_some_iff.mp ha
      -- A check can be delivered beside this one only right after its arming, and until then
      -- nothing has let go of the target.
      have settled : ∀ q, b.task = .deliver (.stability q) → b.engine.target = some p.target := by
        intro q task
        cases takes with
        | event => cases task
        | collect => cases task
        | deliver e key note rest =>
          cases task
          have next := u.delivered_behind rfl ha arms held
          exact aimed.mpr (recovered_last (by omega) p)
      refine ⟨j, a, by rwa [List.getElem?_append_left hlt], arms, held.concat hs, ?_⟩
      rw [Beat.target_after_iff note before hs settled, recovered_concat hlt, aimed]
    · have arms : b.Arms s := ⟨hs, before⟩
      obtain ⟨q, decides, -, -, note', -⟩ := Beat.arms_spec u.sound arms
      rw [note] at note'
      cases note'
      have length : (h ++ [b]).length = h.length + 1 := by simp
      refine ⟨h.length, b, List.getElem?_concat_length, arms, ?_, ?_⟩
      · intro k d hk hk' _
        omega
      · exact iff_of_true (Beat.target_of_decides decides) (recovered_last (by omega) p)

end Underway

/-- The target is that of the check on record just where each beat since its arming that let go of
the target was followed by one that decided on the switch again. -/
theorem aimed_iff_recovered (r : Run) {s : Scheduled}
    (hs : r.engine.timers.record? .stabilityCheck = some s) :
    ∃ p j b, s.note = .stability p ∧ r.beats[j]? = some b ∧ b.Arms s ∧
      Throughout r.beats j r.beats.length
        (fun b => b.after.timers.record? .stabilityCheck = some s) ∧
      (r.engine.target = some p.target ↔ Recovered r.beats j p) := by
  obtain ⟨m, u⟩ := r.underway
  have fits := u.sound.fitting _ s hs
  cases note : s.note with
  | evaluate reason =>
    rw [note] at fits
    cases fits
  | stability p =>
    obtain ⟨j, b, hj, arms, held, aimed⟩ := u.aimed_iff hs note
    exact ⟨p, j, b, rfl, hj, arms, held, aimed⟩

/-- Slot 1 passes its validation when the check for slot 2 is already on record. -/
def Run.succeeded : Run where
  settings := {}
  count := 3
  phones := .sample .outOfService [0, 1]
  acts := [
    (⟨⟨0, 0⟩, .sample .outOfService [0, 1]⟩, .tell (.evaluationRequested .external)),
    (⟨⟨10000, 10000⟩, .sample .outOfService [0, 1]⟩, .poll),
    (⟨⟨10000, 10000⟩, .sample .outOfService [0, 2]⟩, .tell .subscriptionsChanged),
    (⟨⟨10000, 10000⟩, .sample .outOfService [0, 2]⟩, .tell .validationSucceeded)]

/-- The next evaluation turns to slot 2 again. -/
def Run.resumed : Run where
  settings := {}
  count := 3
  phones := .sample .outOfService [0, 1]
  acts := Run.succeeded.acts ++ [
    (⟨⟨15000, 15000⟩, .sample .outOfService [0, 2]⟩, .tell (.evaluationRequested .external))]

theorem aimed_iff_recovered_resumed :
    let r := Run.resumed
    ∃ s p j b, r.engine.timers.record? .stabilityCheck = some s ∧ s.note = .stability p ∧
      r.engine.target = some p.target ∧ r.beats[j]? = some b ∧ b.Arms s ∧
      Recovered r.beats j p := by
  intro r
  have recorded : (r.engine.timers.record? .stabilityCheck).map (·.note) =
      some (.stability ⟨2, false, true⟩) := by decide +kernel
  have target : r.engine.target = some 2 := by decide +kernel
  obtain ⟨s, hs, note⟩ := Option.map_eq_some_iff.mp recorded
  obtain ⟨p, j, b, note', hj, arms, -, aimed⟩ := aimed_iff_recovered r hs
  rw [note] at note'
  cases note'
  exact ⟨s, _, j, b, hs, note, target, hj, arms, aimed.mp target⟩

theorem aim_lost :
    ¬ ∀ (e : Engine) (s : Scheduled) (p : Pending), e.Reachable →
      e.timers.record? .stabilityCheck = some s → s.note = .stability p →
      e.target = some p.target := by
  intro always
  have recorded : (Run.succeeded.engine.timers.record? .stabilityCheck).map (·.note) =
      some (.stability ⟨2, false, true⟩) := by decide +kernel
  have target : Run.succeeded.engine.target = none := by decide +kernel
  obtain ⟨s, hs, note⟩ := Option.map_eq_some_iff.mp recorded
  have aimed := always _ s _ ⟨Run.succeeded, rfl⟩ hs note
  rw [target] at aimed
  cases aimed

end ModemSelect
