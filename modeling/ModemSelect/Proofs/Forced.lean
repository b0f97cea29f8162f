import ModemSelect.Proofs.Course
import ModemSelect.Proofs.Decided
import ModemSelect.Proofs.Settling

namespace ModemSelect

theorem Verdict.onlyFor_eq_false_iff {verdict : Verdict} {reason : Refusal} :
    verdict.onlyFor reason = false ↔ ∃ refusal ∈ verdict.refusals, refusal ≠ reason := by
  simp [onlyFor]

theorem Readings.carrier_of_ne {phones : Readings} {default carrier : Nat}
    (away : carrier ≠ default) :
    phones.carrier default = carrier ↔ phones.preferredSlot = some carrier := by
  unfold Readings.carrier
  cases phones.preferredSlot with
  | none => simpa using away.symm
  | some preferred => simp

namespace Engine

/-- An alternate carries data and has to give it back to the default without waiting: user data is
off on the default, or the alternate is refused internet for more than missing service. All that
has to be known for this can be read. -/
structure Forced (e : Engine) (phones : Readings) (default carrier : Nat) (userData : Bool)
    (verdict : Verdict) : Prop where
  enabled : 0 ≤ e.settings.availabilityThreshold
  choice : 2 ≤ phones.active.size
  designated : phones.defaultSlot = some default
  followed : e.slots.isTracked default = true
  carries : phones.preferredSlot = some carrier
  away : carrier ≠ default
  carrierFollowed : e.slots.isTracked carrier = true
  userData_eq : phones.userData default = some userData
  verdict_eq : phones.internet carrier false = some verdict
  cause : userData = false ∨ e.settings.features.immediateFallbackOnDisallowed = true ∧
    ∃ refusal ∈ verdict.refusals, refusal ≠ .notInService

variable {e : Engine} {m : Moment} {phones : Readings} {reason trigger : Reason} {target : Nat}
  {why : Urgency}

theorem forced_of_decision? (h : e.decision? phones = some (.immediate target why)) :
    ∃ carrier userData verdict, e.Forced phones target carrier userData verdict ∧
      (why = .defaultDataDisabled ↔ userData = false) := by
  obtain ⟨enabled, choice, decides⟩ := decision?_eq_some_iff.mp h
  have decided := decide_eq_ok.mp decides
  generalize urgent : Decision.immediate target why = d at decided
  cases decided with
  | leaving => exact absurd urgent.symm (Situation.leaveDefault_ne_immediate _ _ target why)
  | @returning default carrier userData verdict designated followed carries away carrierFollowed
      userData_eq verdict_eq =>
    obtain ⟨rfl, blames⟩ := Situation.returnToDefault_immediate urgent.symm
    have cause := Situation.returnToDefault_immediate_iff.mp ⟨_, _, urgent.symm⟩
    rw [Verdict.onlyFor_eq_false_iff] at cause
    exact ⟨carrier, userData, verdict, {
      enabled := of_decide_eq_true enabled
      choice := of_decide_eq_true choice
      designated
      followed
      carries := (Readings.carrier_of_ne away).mp carries
      away
      carrierFollowed
      userData_eq
      verdict_eq
      cause }, blames⟩

theorem Forced.decision? {carrier : Nat} {userData : Bool} {verdict : Verdict}
    (h : e.Forced phones target carrier userData verdict)
    (blames : why = .defaultDataDisabled ↔ userData = false) :
    e.decision? phones = some (.immediate target why) := by
  have cause := h.cause
  rw [← Verdict.onlyFor_eq_false_iff] at cause
  have goes : ∃ target' why', (e.situation target carrier).returnToDefault userData verdict
      e.bypassed = .immediate target' why' := Situation.returnToDefault_immediate_iff.mpr cause
  obtain ⟨target', why', urgent⟩ := goes
  obtain ⟨rfl, blames'⟩ := Situation.returnToDefault_immediate urgent
  have same : why' = why := by
    cases why <;> cases why' <;> simp_all
  subst same
  refine decision?_eq_some_iff.mpr ⟨decide_eq_true h.enabled, decide_eq_true h.choice, ?_⟩
  refine decide_eq_ok.mpr (urgent ▸ ?_)
  exact .returning h.designated h.followed ((Readings.carrier_of_ne h.away).mpr h.carries) h.away
    h.carrierFollowed h.userData_eq h.verdict_eq

/-- An evaluation switches at once just where it decides to. -/
theorem immediateSwitch_mem_evaluate_iff :
    .immediateSwitch target why trigger ∈ (e.evaluate m reason).directives ↔
      trigger = reason ∧ e.decision? m.phones = some (.immediate target why) := by
  constructor
  · intro switches
    by_cases urgent : ∃ target why, e.decision? m.phones = some (.immediate target why)
    · obtain ⟨target', why', urgent⟩ := urgent
      rw [(evaluate_of_immediate urgent reason).2, List.mem_singleton] at switches
      cases switches
      exact ⟨rfl, urgent⟩
    · by_cases waits : ∃ p, e.decision? m.phones = some (.pending p)
      · obtain ⟨p, waits⟩ := waits
        rw [evaluate_of_pending waits] at switches
        cases switches
      · rcases evaluate_of_undecided (fun p h => waits ⟨p, h⟩)
          (fun target why h => urgent ⟨target, why, h⟩) reason with
            ⟨-, quiet⟩ | ⟨-, -, cancels⟩
        · rw [quiet] at switches
          cases switches
        · rw [cancels, List.mem_singleton] at switches
          cases switches
  · intro h
    obtain ⟨rfl, urgent⟩ := h
    rw [(evaluate_of_immediate urgent trigger).2]
    exact List.mem_cons_self

theorem immediateSwitch_iff_forced :
    .immediateSwitch target why trigger ∈ (e.evaluate m reason).directives ↔
      trigger = reason ∧ ∃ carrier userData verdict,
        e.Forced m.phones target carrier userData verdict ∧
          (why = .defaultDataDisabled ↔ userData = false) := by
  rw [immediateSwitch_mem_evaluate_iff]
  refine and_congr_right fun _ => ⟨forced_of_decision?, fun h => ?_⟩
  obtain ⟨carrier, userData, verdict, forced, blames⟩ := h
  exact forced.decision? blames

/-- Data is switched at once exactly where it is forced back to the default, which is the target and
is to blame just where user data is off there. That the alternate has lost service does not do. -/
theorem switches_at_once_iff (e : Engine) (m : Moment) (reason : Reason) (target : Nat)
    (why : Urgency) (trigger : Reason) :
    (.immediateSwitch target why trigger ∈ (e.evaluate m reason).directives ↔
      trigger = reason ∧ ∃ carrier userData verdict,
        e.Forced m.phones target carrier userData verdict ∧
          (why = .defaultDataDisabled ↔ userData = false)) ∧
    ∀ carrier verdict, m.phones.preferredSlot = some carrier →
      m.phones.internet carrier false = some verdict →
      (∀ refusal ∈ verdict.refusals, refusal = .notInService) →
      m.phones.userData target ≠ some false →
        .immediateSwitch target why trigger ∉ (e.evaluate m reason).directives := by
  refine ⟨immediateSwitch_iff_forced,
    fun carrier verdict carries verdict_eq coverage on switches => ?_⟩
  obtain ⟨-, carrier', userData, verdict', forced, -⟩ := immediateSwitch_iff_forced.mp switches
  have same : carrier' = carrier := Option.some.inj (forced.carries.symm.trans carries)
  subst same
  have read : verdict' = verdict := Option.some.inj (forced.verdict_eq.symm.trans verdict_eq)
  subst read
  rcases forced.cause with off | ⟨-, refusal, hm, other⟩
  · exact on (off ▸ forced.userData_eq)
  · exact other (coverage refusal hm)

/-- A validation of slot 1 runs when that comes to carry data. A restriction there sends data back,
and a loss of service does not. -/
theorem switches_at_once_iff_restricted :
    let e := Run.debounced.engine
    let restricted : Readings :=
      { Readings.sample .home [0, 1] true with preferredSlot := some 1 }
    let unserved : Readings := { restricted with internet := fun _ _ => some ⟨[.notInService]⟩ }
    .immediateSwitch 0 .alternateDisallowed .external ∈
        (e.evaluate ⟨⟨12000, 12000⟩, restricted⟩ .external).directives ∧
      .immediateSwitch 0 .alternateDisallowed .external ∉
        (e.evaluate ⟨⟨12000, 12000⟩, unserved⟩ .external).directives := by
  intro e restricted unserved
  have forced : e.Forced restricted 0 1 true ⟨[.restrictedByNetwork]⟩ := {
    enabled := by decide +kernel
    choice := by decide
    designated := rfl
    followed := by decide +kernel
    carries := rfl
    away := by decide
    carrierFollowed := by decide +kernel
    userData_eq := rfl
    verdict_eq := rfl
    cause := Or.inr ⟨by decide +kernel, .restrictedByNetwork, by simp, by simp⟩ }
  have back := switches_at_once_iff e ⟨⟨12000, 12000⟩, restricted⟩ .external 0
    .alternateDisallowed .external
  have stays := switches_at_once_iff e ⟨⟨12000, 12000⟩, unserved⟩ .external 0
    .alternateDisallowed .external
  have on : unserved.userData 0 ≠ some false := by decide
  exact ⟨back.1.mpr ⟨rfl, 1, true, _, forced, by simp⟩,
    stays.2 1 ⟨[.notInService]⟩ rfl rfl (by simp) on⟩

end Engine

end ModemSelect
