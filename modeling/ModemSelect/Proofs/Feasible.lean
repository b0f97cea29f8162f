import ModemSelect.Proofs.Decided
import ModemSelect.Proofs.Origin
import ModemSelect.Proofs.Settling
import ModemSelect.Proofs.StandingsView

namespace ModemSelect

/-- Home service is usable, be it from a satellite. -/
theorem Snapshot.isUsable_of_home {s : Snapshot} (home : s.registration.state = .home)
    (features : Features) : (s.usability features).isUsable = true := by
  simp only [usability, home]
  split <;> rfl

/-- Where being at home is enough to be usable, a challenger is usable. -/
theorem Standing.isUsable_of_challenge {candidate current : Standing} {settings : Settings}
    (home : candidate.state = .home → candidate.usable.isUsable = true)
    (challenge : candidate.challenge settings current ≠ none) :
    candidate.usable.isUsable = true := by
  by_contra unusable
  rw [Bool.not_eq_true] at unusable
  have lowest : candidate.usable.rank = 0 := by simpa [Usability.isUsable] using unusable
  apply challenge
  rw [challenge_eq_none_iff]
  split
  next =>
    refine ⟨by omega, fun _ _ usable => ?_⟩
    rw [unusable] at usable
    cases usable
  next =>
    intro there
    rw [home there] at unusable
    cases unusable

namespace Settings

/-- The debounce as it is written in the settings, negative where its kind of switch is off. -/
def threshold (s : Settings) (performance : Bool) : Int :=
  if performance then s.performanceThreshold else s.availabilityThreshold

theorem stabilityDelay_eq_toNat (s : Settings) (performance : Bool) :
    s.stabilityDelay performance = (s.threshold performance).toNat := by
  unfold stabilityDelay threshold
  split <;> rfl

/-- The debounce of a switch is just what is written where its kind of switch is on. -/
theorem stabilityDelay_eq_threshold {s : Settings} (enabled : s.enabled = true)
    {performance : Bool} (compares : performance = true → s.comparesScores = true) :
    (s.stabilityDelay performance : Int) = s.threshold performance := by
  have written : 0 ≤ s.threshold performance := by
    cases performance with
    | false => simpa [threshold, Settings.enabled] using enabled
    | true =>
      have on := compares rfl
      simp only [comparesScores, Bool.and_eq_true, decide_eq_true_eq] at on
      exact on.1
  rw [stabilityDelay_eq_toNat, Int.toNat_of_nonneg written]

end Settings

namespace Engine

/-- The switch can be made from what the engine follows and the handset reads, under the settings in
force. -/
structure Feasible (e : Engine) (phones : Readings) (default : Nat) (p : Pending) : Prop where
  followed : e.slots.isTracked p.target = true
  moves : p.target ≠ phones.carrier default
  probed : p.needsValidation = true → e.settings.requirePing = true
  compared : p.performance = true → e.settings.comparesScores = true
  leaving : phones.carrier default = default → phones.allows p.target = true ∧
    ∃ m, e.slots.modem? p.target = some m ∧
      (m.known.usability e.settings.features).isUsable = true
  returning : phones.carrier default ≠ default → p.target = default

section Decides

variable {e : Engine} {phones : Readings} {default : Nat} {p : Pending}

theorem feasible_of_leaving (carries : phones.carrier default = default)
    (leaves : ((e.situation default default).leaveDefault phones.allows).decision = .pending p) :
    e.Feasible phones default p := by
  obtain ⟨current, candidate, -, hm, away, challenge, allowed, target, needs⟩ :=
    Situation.leaveDefault_pending leaves
  obtain ⟨m, known, stands⟩ := SlotTable.mem_standings.mp hm
  rw [← target] at known allowed away
  have challenges : candidate.challenge e.settings current ≠ none :=
    Option.ne_none_iff_exists'.mpr ⟨p.performance, challenge⟩
  have usable : candidate.usable.isUsable = true := by
    refine Standing.isUsable_of_challenge (fun home => ?_) challenges
    rw [← stands] at home ⊢
    exact Snapshot.isUsable_of_home home e.settings.features
  exact {
    followed := SlotTable.isTracked_iff.mpr ⟨m, known⟩
    moves := carries.symm ▸ away
    probed := fun probes => needs ▸ probes
    compared := Situation.leaveDefault_performance leaves
    leaving := fun _ => ⟨allowed, m, known, (congrArg (·.usable.isUsable) stands).trans usable⟩
    returning := fun other => absurd carries other }

theorem feasible_of_returning {carrier : Nat} {userData : Bool} {verdict : Verdict}
    (carries : phones.carrier default = carrier) (away : carrier ≠ default)
    (followed : e.slots.isTracked default = true)
    (back : (e.situation default carrier).returnToDefault userData verdict e.bypassed =
      .pending p) : e.Feasible phones default p := by
  have target : p.target = default := by
    have goes : (e.situation default carrier).returnToDefault userData verdict e.bypassed ≠
        .noAction := by simp [back]
    have moved := (e.situation default carrier).target?_returnToDefault goes
    rw [back] at moved
    exact Option.some.inj moved
  have other : phones.carrier default ≠ default := carries.symm ▸ away
  exact {
    followed := target.symm ▸ followed
    moves := target.symm ▸ other.symm
    probed := Situation.returnToDefault_needsValidation back
    compared := Situation.returnToDefault_performance back
    leaving := fun here => absurd here other
    returning := fun _ => target }

theorem feasible_of_decide (decides : e.decide phones = .ok (.pending p)) :
    ∃ default, phones.defaultSlot = some default ∧ e.Feasible phones default p := by
  have decided := decide_eq_ok.mp decides
  generalize waits : Decision.pending p = d at decided
  cases decided with
  | @leaving default designated followed carries =>
    exact ⟨default, designated, feasible_of_leaving carries waits.symm⟩
  | @returning default carrier _ _ designated followed carries away =>
    exact ⟨default, designated, feasible_of_returning carries away followed waits.symm⟩

end Decides

end Engine

/-- The debounce of a switch decided on is just what is written in the settings in force. -/
theorem Beat.stabilityDelay_of_decides {b : Beat} {p : Pending} (h : b.Decides p) :
    (b.after.settings.stabilityDelay p.performance : Int) =
      b.after.settings.threshold p.performance := by
  obtain ⟨e, reason, evaluation, decision⟩ := h
  obtain ⟨-, after, -⟩ := evaluation_spec evaluation
  obtain ⟨enabled, -, decides⟩ := Engine.decision?_eq_some_iff.mp decision
  obtain ⟨default, -, feasible⟩ := Engine.feasible_of_decide decides
  rw [after, Engine.settings_evaluate]
  exact Settings.stabilityDelay_eq_threshold enabled feasible.compared

namespace Run

/-- The policy only ever decides to wait for a switch that can be made, and along a run a check is
only ever armed with the debounce that is written for its kind. -/
theorem pending_feasible (r : Run) :
    (∀ (e : Engine) phones p, e.decide phones = .ok (.pending p) →
      ∃ default, phones.defaultSlot = some default ∧ e.Feasible phones default p) ∧
    ∀ b ∈ r.beats, ∀ s, b.Arms s → ∃ p, b.Decides p ∧ s.note = .stability p ∧
      (s.delay : Int) = b.after.settings.threshold p.performance := by
  refine ⟨fun e phones p => Engine.feasible_of_decide, fun b hb s arms => ?_⟩
  obtain ⟨i, hi⟩ := List.mem_iff_getElem?.mp hb
  obtain ⟨p, decides, -, -, note, delay, -⟩ := Beat.arms_spec (r.sound_at hi) arms
  refine ⟨p, decides, note, ?_⟩
  rw [delay]
  exact Beat.stabilityDelay_of_decides decides

/-- The switch waits for its score, two minutes. -/
theorem pending_feasible_renewed :
    let r := Run.renewed
    let phones : Readings := .sample .home [0, 1]
    r.engine.decide phones = .ok (.pending ⟨1, true, true⟩) ∧
      r.engine.Feasible phones 0 ⟨1, true, true⟩ ∧
      ∃ b s, r.beats[0]? = some b ∧ b.Arms s ∧ s.delay = 120000 ∧
        (s.delay : Int) = b.after.settings.performanceThreshold := by
  intro r phones
  have decision : r.engine.decision? phones = some (.pending ⟨1, true, true⟩) := by decide +kernel
  have checks : (r.beats[0]?).map (fun b => (b.after.timers.record? .stabilityCheck,
      b.engine.timers.record? .stabilityCheck)) =
        some (some ⟨.stability ⟨1, true, true⟩, .alarm, 120000, 120000⟩, none) := by
    decide +kernel
  obtain ⟨-, -, decides⟩ := Engine.decision?_eq_some_iff.mp decision
  obtain ⟨b, hb, records⟩ := Option.map_eq_some_iff.mp checks
  obtain ⟨after, before⟩ := Prod.mk.inj records
  have arms : b.Arms ⟨.stability ⟨1, true, true⟩, .alarm, 120000, 120000⟩ :=
    ⟨after, by simp [before]⟩
  obtain ⟨feasible, written⟩ := pending_feasible r
  obtain ⟨default, designated, made⟩ := feasible r.engine phones _ decides
  cases designated
  obtain ⟨p, -, note, delay⟩ := written b (List.mem_of_getElem? hb) _ arms
  cases note
  exact ⟨decides, made, b, _, hb, arms, rfl, delay⟩

end Run

end ModemSelect
