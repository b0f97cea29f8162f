import ModemSelect.Choice.Returning

namespace ModemSelect.Situation

/-- Data stays on the alternate just where that ranks higher or, on a par, scores higher than the
default; where roaming slots are not compared, just at home, with a higher score or, where scores
are not compared, while the default is not at home. -/
theorem weighReturn_eq_noAction_iff {s : Situation} {default current : Standing} :
    s.weighReturn default current = .noAction ↔
      if s.settings.comparesRoaming then
        default.usable.rank < current.usable.rank ∨
          default.usable.rank = current.usable.rank ∧ current.usable.isUsable = true ∧
            s.settings.comparesScores = true ∧ defaultRegains default current = false
      else current.state = .home ∧
        if s.settings.comparesScores then
          default.state.isInService = true → defaultRegains default current = false
        else default.state ≠ .home := by
  unfold weighReturn back
  grind

/-- A return is always to the default. -/
theorem weighReturn_cases (s : Situation) (default current : Standing) :
    s.weighReturn default current = .noAction ∨
      ∃ performance needs, s.weighReturn default current = s.back performance needs := by
  unfold weighReturn back
  repeat' split
  all_goals simp

theorem returnToDefault_cases (s : Situation) (userData : Bool) (verdict : Verdict)
    (bypassed : Bool) :
    s.returnToDefault userData verdict bypassed = .noAction ∨
      (∃ why, s.returnToDefault userData verdict bypassed = .immediate s.default why) ∨
      ∃ performance needs,
        s.returnToDefault userData verdict bypassed = s.back performance needs := by
  unfold returnToDefault
  split
  next => exact Or.inr (Or.inl ⟨_, rfl⟩)
  next =>
    split
    next => exact Or.inr (Or.inl ⟨_, rfl⟩)
    next =>
      split
      next default current _ _ =>
        split
        next => exact Or.inr (Or.inr ⟨_, _, rfl⟩)
        next => exact (weighReturn_cases s default current).imp_right Or.inr
      next => exact Or.inl rfl

theorem weighReturn_performance {s : Situation} {default current : Standing} {p : Pending}
    (h : s.weighReturn default current = .pending p) (performance : p.performance = true) :
    s.settings.comparesScores = true := by
  unfold weighReturn back at h
  grind

theorem weighReturn_needsValidation {s : Situation} {default current : Standing} {p : Pending}
    (h : s.weighReturn default current = .pending p) (needs : p.needsValidation = true) :
    s.settings.requirePing = true := by
  unfold weighReturn back at h
  grind

/-- A return that waits comes of the comparison of the two slots, unless another network is up. -/
theorem returnToDefault_pending_cases {s : Situation} {userData bypassed : Bool}
    {verdict : Verdict} {p : Pending}
    (h : s.returnToDefault userData verdict bypassed = .pending p) :
    s.back false false = .pending p ∨
      ∃ default current, s.weighReturn default current = .pending p := by
  unfold returnToDefault at h
  split at h
  next => cases h
  next =>
    split at h
    next => cases h
    next =>
      split at h
      next default current _ _ =>
        split at h
        next => exact Or.inl h
        next => exact Or.inr ⟨default, current, h⟩
      next => cases h

/-- Data goes back to the default for performance only where scores are compared. -/
theorem returnToDefault_performance {s : Situation} {userData bypassed : Bool}
    {verdict : Verdict} {p : Pending}
    (h : s.returnToDefault userData verdict bypassed = .pending p)
    (performance : p.performance = true) : s.settings.comparesScores = true := by
  rcases returnToDefault_pending_cases h with back | ⟨default, current, weighs⟩
  · cases back
    cases performance
  · exact weighReturn_performance weighs performance

theorem returnToDefault_needsValidation {s : Situation} {userData bypassed : Bool}
    {verdict : Verdict} {p : Pending}
    (h : s.returnToDefault userData verdict bypassed = .pending p)
    (needs : p.needsValidation = true) : s.settings.requirePing = true := by
  rcases returnToDefault_pending_cases h with back | ⟨default, current, weighs⟩
  · cases back
    cases needs
  · exact weighReturn_needsValidation weighs needs

/-- Data goes back at once just where user data is off on the default or the alternate is refused
internet for more than missing service, however the slots stand. -/
theorem returnToDefault_immediate_iff {s : Situation} {userData bypassed : Bool}
    {verdict : Verdict} :
    (∃ target why, s.returnToDefault userData verdict bypassed = .immediate target why) ↔
      userData = false ∨ s.settings.features.immediateFallbackOnDisallowed = true ∧
        verdict.onlyFor .notInService = false := by
  unfold returnToDefault
  cases userData with
  | false => simp
  | true =>
    cases refused : (s.settings.features.immediateFallbackOnDisallowed
        && !verdict.onlyFor .notInService) with
    | true => simpa using refused
    | false =>
      have unhurried : ∀ default current target why,
          s.weighReturn default current ≠ .immediate target why := by
        intro default current target why
        rcases weighReturn_cases s default current with quiet | ⟨performance, needs, back⟩
        · simp [quiet]
        · simp [back, Situation.back]
      have kept : s.settings.features.immediateFallbackOnDisallowed = true →
          verdict.onlyFor .notInService = true := by simpa using refused
      refine iff_of_false (fun urgent => ?_) (by simpa using kept)
      obtain ⟨target, why, urgent⟩ := urgent
      simp only [Bool.not_true, Bool.false_eq_true, if_false] at urgent
      split at urgent
      next default current _ _ =>
        split at urgent
        next => cases urgent
        next => exact unhurried default current target why urgent
      next => cases urgent

/-- Data that goes back at once goes to the default, on account of the default only where user data
is off there. -/
theorem returnToDefault_immediate {s : Situation} {userData bypassed : Bool} {verdict : Verdict}
    {target : Nat} {why : Urgency}
    (h : s.returnToDefault userData verdict bypassed = .immediate target why) :
    target = s.default ∧ (why = .defaultDataDisabled ↔ userData = false) := by
  have cause := returnToDefault_immediate_iff.mp ⟨target, why, h⟩
  cases userData with
  | false =>
    cases h
    simp
  | true =>
    obtain ⟨fallback, refused⟩ := cause.resolve_left (by simp)
    have urgent : s.returnToDefault true verdict bypassed =
        .immediate s.default .alternateDisallowed := by
      simp [returnToDefault, fallback, refused]
    rw [urgent] at h
    cases h
    simp

/-- Data stays on the alternate just where nothing sends it back at once and, if both slots are
there, no other network is up and their comparison leaves it there. -/
theorem returnToDefault_eq_noAction_iff {s : Situation} {userData bypassed : Bool}
    {verdict : Verdict} :
    s.returnToDefault userData verdict bypassed = .noAction ↔
      userData = true ∧
      (s.settings.features.immediateFallbackOnDisallowed = true →
        verdict.onlyFor .notInService = true) ∧
      ∀ default current, s.standing? s.default = some default →
        s.standing? s.preferred = some current →
          bypassed = false ∧ s.weighReturn default current = .noAction := by
  unfold returnToDefault
  cases userData with
  | false => simp
  | true =>
    cases refused : (s.settings.features.immediateFallbackOnDisallowed
        && !verdict.onlyFor .notInService) with
    | true =>
      simp only [Bool.and_eq_true, Bool.not_eq_true'] at refused
      simp [refused]
    | false =>
      have kept : s.settings.features.immediateFallbackOnDisallowed = true →
          verdict.onlyFor .notInService = true := by simpa using refused
      cases s.standing? s.default with
      | none => simpa using kept
      | some default =>
        cases s.standing? s.preferred with
        | none => simpa using kept
        | some current =>
          cases bypassed with
          | true => simp [back]
          | false => simpa using fun _ => kept

/-- Of a decision to return only the comparison hangs on how the slots stand. -/
theorem returnToDefault_of_weighReturn {s s' : Situation} (settings : s'.settings = s.settings)
    (weighs : ∀ default' current', s'.standing? s'.default = some default' →
      s'.standing? s'.preferred = some current' →
        ∃ default current, s.standing? s.default = some default ∧
          s.standing? s.preferred = some current ∧
          (s.weighReturn default current = .noAction →
            s'.weighReturn default' current' = .noAction))
    {userData bypassed : Bool} {verdict : Verdict}
    (h : s.returnToDefault userData verdict bypassed = .noAction) :
    s'.returnToDefault userData verdict bypassed = .noAction := by
  rw [returnToDefault_eq_noAction_iff] at h ⊢
  obtain ⟨user, unrefused, stays⟩ := h
  refine ⟨user, settings ▸ unrefused, fun default' current' hd' hc' => ?_⟩
  obtain ⟨default, current, hd, hc, kept⟩ := weighs default' current' hd' hc'
  obtain ⟨cellular, idle⟩ := stays default current hd hc
  exact ⟨cellular, kept idle⟩

/-- With user data on, on an alternate that is refused nothing else, and with no other network up,
the two slots are compared. -/
theorem returnToDefault_of_undisturbed {s : Situation} {verdict : Verdict}
    (unrefused : verdict.onlyFor .notInService = true) {default current : Standing}
    (hd : s.standing? s.default = some default) (hc : s.standing? s.preferred = some current) :
    s.returnToDefault true verdict false = s.weighReturn default current := by
  simp [returnToDefault, unrefused, hd, hc]

end ModemSelect.Situation
