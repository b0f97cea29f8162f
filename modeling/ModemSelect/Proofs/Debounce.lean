import ModemSelect.Proofs.Origin

namespace ModemSelect

namespace Beat

/-- The beat says that the given switch is off, or decides on another one. -/
def Upsets (b : Beat) (p : Pending) : Prop :=
  (∃ d ∈ b.directives, d.Stops) ∨ ∃ q, b.Decides q ∧ q ≠ p

/-- The beat decides on another switch and lets it pass, since its target is held to be under
validation already. -/
def Disregards (b : Beat) (p : Pending) : Prop :=
  ∃ q, b.Decides q ∧ q ≠ p ∧ b.engine.validating = true ∧ b.engine.target = some q.target

theorem upsets_of_disregards {b : Beat} {p : Pending} (h : b.Disregards p) : b.Upsets p := by
  obtain ⟨q, decides, hne, -⟩ := h
  exact Or.inr ⟨q, decides, hne⟩

theorem not_upsets {b : Beat} {p : Pending} (calm : ∀ d ∈ b.directives, ¬ d.Stops)
    (settled : ∀ q, b.Decides q → q = p) : ¬ b.Upsets p := by
  intro h
  rcases h with ⟨d, hd, stops⟩ | ⟨q, decides, hne⟩
  · exact calm d hd stops
  · exact hne (settled q decides)

theorem not_upsets_collect {b : Beat} (task : b.task = .collect) (p : Pending) :
    ¬ b.Upsets p := by
  have undecided := not_decides (b := b) (by simp [evaluation?, task])
  refine not_upsets ?_ fun q decides => absurd decides (undecided q)
  simp [directives, outcome, task]

/-- A check that is still on record after a beat has been upset by no more than a decision that
was let pass. -/
theorem upsets_iff {b : Beat} {s : Scheduled} {p : Pending}
    (after : b.after.timers.record? .stabilityCheck = some s) (note : s.note = .stability p) :
    b.Upsets p ↔ b.Disregards p := by
  refine ⟨fun upsets => ?_, upsets_of_disregards⟩
  have quiet : b.directives = [] → ∀ d ∈ b.directives, ¬ d.Stops := by
    intro directives
    simp [directives]
  have mute : b.evaluation? = none → ∀ q, b.Decides q → q = p :=
    fun evaluation q decides => absurd decides (not_decides evaluation q)
  cases b.turn with
  | still _ directives undecided =>
    have settled : ∀ q, b.Decides q → q = p := fun q decides => absurd decides (undecided q)
    exact absurd upsets (not_upsets (quiet directives) settled)
  | stopped d course =>
    rw [Engine.timers_of_course course] at after
    simp [Course.cleared, Timers.record?_cancel] at after
  | disregarded q decides busy _ directives =>
    refine ⟨q, decides, ?_, busy⟩
    intro he
    exact not_upsets (quiet directives) (fun q' hq' => (decides_unique hq' decides).trans he) upsets
  | kept q decides free carries course directives =>
    obtain ⟨s', hs', note'⟩ := Timers.carries_iff.mp carries
    rw [Engine.timers_of_course course] at after
    have hs := after.symm.trans hs'
    cases hs
    rw [note] at note'
    cases note'
    exact absurd upsets (not_upsets (quiet directives) fun q hq => decides_unique hq decides)
  | armed q decides free fresh course directives =>
    rw [Engine.timers_of_course course, Timers.record?_arm, if_pos rfl] at after
    cases after
    cases note
    exact absurd upsets (not_upsets (quiet directives) fun q hq => decides_unique hq decides)
  | retried delay task _ directives =>
    have evaluation := evaluation?_of_answers (Or.inl task)
    exact absurd upsets (not_upsets (quiet directives) (mute evaluation))
  | exhausted task _ directives =>
    have evaluation := evaluation?_of_answers (Or.inl task)
    exact absurd upsets (not_upsets (quiet directives) (mute evaluation))
  | completed task _ directives =>
    have evaluation := evaluation?_of_answers (Or.inr task)
    exact absurd upsets (not_upsets (quiet directives) (mute evaluation))
  | passed q task _ directives =>
    have evaluation : b.evaluation? = none := by simp [evaluation?, task]
    exact absurd upsets (not_upsets (by simp [directives, Directive.Stops]) (mute evaluation))
  | collected task => exact absurd upsets (not_upsets_collect task p)

end Beat

/-- While switching is on a retry upsets every switch but the one it decides on. -/
theorem Beat.Retries.upsets_iff {b : Beat} {m : Moment} (retries : b.Retries m)
    (enabled : b.engine.settings.enabled = true) {p : Pending} :
    b.Upsets p ↔ ¬ b.Decides p := by
  obtain ⟨reason, task⟩ := retries.task
  have evaluation : b.evaluation? = some (b.engine, reason) := by simp [evaluation?, task]
  have directives : b.directives = (b.engine.evaluate b.moment reason).directives := by
    simp [Beat.directives, outcome, task, Engine.deliver]
  have pending : b.engine.hasPending = true := by simp [Engine.hasPending, retries.failed]
  constructor
  · intro upsets decides
    have hv := Engine.evaluate_of_pending ((decides_iff evaluation).mp decides) reason
    refine not_upsets ?_ (fun q hq => decides_unique hq decides) upsets
    simp [directives, hv]
  · intro undecided
    by_cases hp : ∃ q, b.Decides q
    · obtain ⟨q, hq⟩ := hp
      exact Or.inr ⟨q, hq, fun he => undecided (he ▸ hq)⟩
    · have asked : ∀ q, b.engine.decision? b.moment.phones ≠ some (.pending q) :=
        fun q hq => hp ⟨q, (decides_iff evaluation).mpr hq⟩
      by_cases hi : ∃ t why, b.engine.decision? b.moment.phones = some (.immediate t why)
      · obtain ⟨t, why, hi⟩ := hi
        have switched := (Engine.evaluate_of_immediate hi reason).2
        exact Or.inl ⟨.immediateSwitch t why reason, by simp [directives, switched], trivial⟩
      · have dropped := Engine.evaluate_of_dropped enabled pending asked
          (fun t why h => hi ⟨t, why, h⟩) reason
        exact Or.inl ⟨.cancelPendingValidation, by simp [directives, dropped], trivial⟩

theorem Beat.enabled_of_asks {b : Beat} {p : Pending} (task : b.task = .deliver (.stability p))
    {target : Nat} {needs : Bool} (asks : .validationRequired target needs ∈ b.directives) :
    b.engine.settings.enabled = true := by
  have passes : b.directives = (b.engine.passStability b.moment p).directives := by
    simp [directives, outcome, task, Engine.deliver]
  rw [passes, Engine.passStability] at asks
  split at asks
  next on => exact (Bool.and_eq_true_iff.mp on).1
  next => simp [Engine.cancelPending] at asks

/-- Up to the poll that collects it a check is upset only by decisions that are let pass, and from
then on by a retry that decides otherwise. -/
theorem Origin.intact_iff {r : Run} {i : Nat} {b : Beat} {p : Pending} {j c : Nat} {s : Scheduled}
    (o : Origin r.beats i b.moment p j c s) (hb : r.beats[i]? = some b)
    (task : b.task = .deliver (.stability p)) {target : Nat} {needs : Bool}
    (asks : .validationRequired target needs ∈ b.directives) :
    Throughout r.beats j i (fun a => ¬ a.Upsets p) ↔
      Throughout r.beats j c (fun a => ¬ a.Disregards p) ∧
        Throughout r.beats c i fun a => a.Decides p := by
  obtain ⟨hjc, hci⟩ := o.order
  have near := o.near
  have retried : ∀ k a, c < k → k < i → r.beats[k]? = some a → (a.Upsets p ↔ ¬ a.Decides p) := by
    intro k a hk hki ha
    have retries := o.ahead k a hk hki ha
    obtain ⟨reason, delivers⟩ := retries.task
    -- The retry is the beat just before the delivery, so it finds the same settings.
    have next : i = k + 1 := by omega
    subst next
    obtain ⟨m, u⟩ := r.underway
    have enabled := Beat.enabled_of_asks task asks
    have after : a.after = (a.engine.evaluate a.moment reason).engine := by
      simp [Beat.after, Beat.outcome, delivers, Engine.deliver]
    rw [u.chain ha hb, after, Engine.settings_evaluate] at enabled
    exact retries.upsets_iff enabled
  constructor
  · intro intact
    refine ⟨?_, ?_⟩
    · intro k a hj hk ha disregards
      exact intact k a hj (by omega) ha (Beat.upsets_of_disregards disregards)
    · intro k a hk hki ha
      by_contra undecided
      exact intact k a (by omega) hki ha ((retried k a hk hki ha).mpr undecided)
  · intro halves
    obtain ⟨before, since⟩ := halves
    obtain ⟨d, hd, collects, -⟩ := o.collected
    have early : Throughout r.beats j c fun a => ¬ a.Upsets p := by
      intro k a hj hk ha
      rw [Beat.upsets_iff (o.kept k a hj hk ha) o.note]
      exact before k a hj hk ha
    have late : Throughout r.beats c i fun a => ¬ a.Upsets p := by
      intro k a hk hki ha upsets
      exact (retried k a hk hki ha).mp upsets (since k a hk hki ha)
    exact early.join hd (Beat.not_upsets_collect collects p) late

/-- Each validation that is asked for goes back to a check that was armed for its switch. Nothing
has upset that check since, just when no decision for another switch was let pass before the poll
that collected it, and a retry that this poll delivered ahead of it decided on its switch again. -/
theorem debounce_intact_iff (r : Run) {i : Nat} {b : Beat} {target : Nat} {needs : Bool}
    (hb : r.beats[i]? = some b) (asks : .validationRequired target needs ∈ b.directives) :
    ∃ p, b.task = .deliver (.stability p) ∧ p.target = target ∧ p.needsValidation = needs ∧
      (∃ j c s, Origin r.beats i b.moment p j c s) ∧
      ∀ j c s, Origin r.beats i b.moment p j c s →
        (Throughout r.beats j i (fun a => ¬ a.Upsets p) ↔
          Throughout r.beats j c (fun a => ¬ a.Disregards p) ∧
            Throughout r.beats c i fun a => a.Decides p) := by
  obtain ⟨p, task, htarget, hneeds, -⟩ := Beat.asks_spec asks
  exact ⟨p, task, htarget, hneeds, r.origin hb task, fun j c s o => o.intact_iff hb task asks⟩

theorem debounce_intact_iff_debounced :
    ∃ b p j c s, Run.debounced.beats[2]? = some b ∧
      Directive.validationRequired 1 true ∈ b.directives ∧
      Origin Run.debounced.beats 2 b.moment p j c s ∧
      Throughout Run.debounced.beats j 2 fun b => ¬ b.Upsets p := by
  obtain ⟨b, hb, asked⟩ := Run.debounced_asks
  obtain ⟨p, -, -, -, ⟨j, c, s, o⟩, intact⟩ := debounce_intact_iff Run.debounced hb asked
  have order := o.order
  refine ⟨b, p, j, c, s, hb, asked, o, (intact j c s o).mpr ⟨?_, ?_⟩⟩
  · intro k b' hj hk _
    omega
  · intro k b' hj hk _
    omega

/-- After a sleep a retry and a debounce for performance come to be due at once, and no slot may
carry data any more: the retry cancels the switch, and the check asks for its validation. -/
def Run.stale : Run where
  settings := {}
  count := 2
  phones := .sample .home [0, 1]
  acts := [
    (⟨⟨0, 0⟩, .sample .home [0, 1]⟩, .tell (.evaluationRequested .external)),
    (⟨⟨120000, 120000⟩, .sample .home [0, 1]⟩, .poll),
    (⟨⟨120000, 120000⟩, .sample .home [0, 1]⟩, .tell .validationFailed),
    (⟨⟨120000, 120000⟩, .sample .home [0, 1]⟩, .tell (.evaluationRequested .external)),
    (⟨⟨130000, 240000⟩, .sample .home [0, 1] true⟩, .poll)]

theorem debounce_upset :
    ¬ ∀ (r : Run) i b target needs, r.beats[i]? = some b →
      .validationRequired target needs ∈ b.directives →
      ∃ p j c s, b.task = .deliver (.stability p) ∧ Origin r.beats i b.moment p j c s ∧
        Throughout r.beats j i fun b => ¬ b.Upsets p := by
  intro always
  have at6 : (Run.stale.beats[6]?).map (·.directives) = some [.cancelPendingValidation] := by
    decide +kernel
  have at7 : (Run.stale.beats[7]?).map (·.directives) = some [.validationRequired 1 true] := by
    decide +kernel
  obtain ⟨b, hb, cancels⟩ := Option.map_eq_some_iff.mp at6
  obtain ⟨b', hb', asks⟩ := Option.map_eq_some_iff.mp at7
  obtain ⟨p, j, c, s, -, o, intact⟩ := always Run.stale 7 b' 1 true hb' (by simp [asks])
  have order := o.order
  refine intact 6 b (by omega) (by omega) hb (Or.inl ⟨.cancelPendingValidation, ?_, trivial⟩)
  simp [cancels]

end ModemSelect
