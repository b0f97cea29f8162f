import ModemSelect.Proofs.Course
import ModemSelect.Proofs.Decided
import ModemSelect.Proofs.Rescoring

namespace ModemSelect.Engine

/-- The policy decides on no switch, or it cannot be asked. -/
def Declines (e : Engine) (phones : Readings) : Prop :=
  ∀ d, e.decide phones = .ok d → d = .noAction

/-- While nothing is pending and scores are compared, a change of scores that does not matter leaves
no slot ahead of the carrier by more than the tolerance, and the default behind it. -/
theorem outscored_of_not_scoreMatters {e : Engine} {phones : Readings}
    (idle : e.hasPending = false) (compares : e.settings.comparesScores = true)
    (quiet : e.scoreMatters phones = false) {default : Nat}
    (designated : phones.defaultSlot = some default) :
    ∃ current, e.standings.find? (·.id == phones.carrier default) = some current ∧
      ∀ other ∈ e.standings, other.id ≠ current.id →
        other.outscores e.settings current = false ∧
          (other.id = default → Situation.defaultRegains other current = false) := by
  simp only [scoreMatters, compares, idle, designated] at quiet
  cases hc : e.standings.find? (·.id == phones.carrier default) with
  | none => simp [hc] at quiet
  | some current =>
    refine ⟨current, rfl, fun other hm hne => ?_⟩
    simp only [hc, Bool.not_true, Bool.false_eq_true, ↓reduceIte, List.any_eq_false,
      List.mem_filter, bne_iff_ne, ne_eq, Bool.or_eq_true, Bool.and_eq_true, beq_iff_eq,
      not_or, not_and] at quiet
    obtain ⟨behind, defaultBehind⟩ := quiet other ⟨hm, hne⟩
    exact ⟨by simpa [Standing.outscores] using behind,
      fun he => by simpa [Situation.defaultRegains] using defaultBehind he⟩

/-- A change of scores leaves the engine in the same situation but for the scores. -/
theorem situation_rescored {e : Engine} {slots : SlotTable} (h : e.slots.Rescored slots)
    (default preferred : Nat) :
    (e.situation default preferred).Rescored
      (({ e with slots } : Engine).situation default preferred) where
  settings := rfl
  default := rfl
  preferred := rfl
  standing? hx := h.find?_standings hx
  mem_standings hx := h.mem_standings hx

/-- Where an idle engine declines it goes on declining after a change of scores that does not
matter. -/
theorem Declines.of_rescored {e : Engine} {phones : Readings} (declines : e.Declines phones)
    {slots : SlotTable} (rescored : e.slots.Rescored slots) (idle : e.hasPending = false)
    (quiet : ({ e with slots } : Engine).scoreMatters phones = false) :
    ({ e with slots } : Engine).Declines phones := by
  let e' : Engine := { e with slots }
  intro d hd
  cases decide_eq_ok.mp hd with
  | @leaving default designated followed carries =>
    rw [← rescored.isTracked] at followed
    have before := declines _ (decide_eq_ok.mpr (.leaving designated followed carries))
    refine (situation_rescored rescored default default).leaveDefault ?_ before
    -- The carrier that the check compares with is the default itself.
    intro compares current hc other hm hne
    obtain ⟨carrier, hcarrier, behind⟩ :=
      outscored_of_not_scoreMatters (e := e') idle compares quiet designated
    rw [carries] at hcarrier
    cases hc.symm.trans hcarrier
    exact (behind other hm ((Situation.standing?_eq_some hc).2 ▸ hne)).1
  | @returning default carrier _ _ designated followed carries away carrierFollowed hu hv =>
    rw [← rescored.isTracked] at followed carrierFollowed
    have before := declines _
      (decide_eq_ok.mpr (.returning designated followed carries away carrierFollowed hu hv))
    refine (situation_rescored rescored default carrier).returnToDefault ?_ before
    -- The default is one of the slots that the check compares with the carrier.
    intro compares d c hd hc
    obtain ⟨current, hcurrent, behind⟩ :=
      outscored_of_not_scoreMatters (e := e') idle compares quiet designated
    rw [carries] at hcurrent
    cases hc.symm.trans hcurrent
    obtain ⟨hm, hid⟩ := Situation.standing?_eq_some hd
    obtain ⟨-, hid'⟩ := Situation.standing?_eq_some hc
    have other : d.id ≠ c.id := by
      rw [hid, hid']
      exact away.symm
    exact (behind d hm other).2 hid

theorem Declines.decision? {e : Engine} {phones : Readings} (declines : e.Declines phones)
    {d : Decision} (h : e.decision? phones = some d) : d = .noAction :=
  declines d (decision?_eq_some_iff.mp h).2.2

/-- An evaluation by an idle engine that declines does nothing that matters to a switch. -/
theorem Declines.evaluate {e : Engine} {m : Moment} (declines : e.Declines m.phones)
    (idle : e.hasPending = false) (reason : Reason) :
    (e.evaluate m reason).directives = [] ∧ (e.evaluate m reason).engine.course = e.course := by
  have undecided := evaluate_of_undecided (e := e) (m := m)
    (fun p hp => by cases declines.decision? hp) (fun _ _ hi => by cases declines.decision? hi)
    reason
  rcases undecided with ⟨course, directives⟩ | ⟨pending, -, -⟩
  · exact ⟨directives, course⟩
  · rw [idle] at pending
    cases pending

/-- The check of the scores hides no decision. Where an idle engine declines and hears of a change
of scores that does not matter, it takes the change in without an evaluation; it would decline
again, and the evaluation would have given no directive and left nothing under way. -/
theorem precheck_hides_nothing {e : Engine} {phones : Readings} (idle : e.hasPending = false)
    (declines : e.Declines phones) {id : Nat} {update : Update} (score : update.onlyScore = true)
    {slots : SlotTable} (news : e.slots.learn id update = .ok (slots, true))
    (quiet : ({ e with slots } : Engine).scoreMatters phones = false) :
    ({ e with slots } : Engine).Declines phones ∧ ∀ clock,
      e.handle ⟨clock, phones⟩ (.news id update) = { engine := { e with slots } } ∧
      ∀ reason,
        (({ e with slots } : Engine).evaluate ⟨clock, phones⟩ reason).directives = [] ∧
        (({ e with slots } : Engine).evaluate ⟨clock, phones⟩ reason).engine.course = e.course := by
  have again := declines.of_rescored (SlotTable.rescored_learn news score) idle quiet
  refine ⟨again, fun clock => ⟨?_, again.evaluate (m := ⟨clock, phones⟩) idle⟩⟩
  simp only [handle, takeUp, hear, news, score, quiet]
  rfl

/-- Two slots at home are heard alike until the other one gets better, by no more than the
tolerance. -/
theorem precheck_hides_nothing_tolerated :
    let phones : Readings :=
      { Readings.sample .home [0, 1] with signal := fun _ => some (Signal.ofLevel 2) }
    let e := (Engine.start {} none 2 phones).engine
    ∃ slots, e.slots.learn 1 (.signal (Signal.ofLevel 3)) = .ok (slots, true) ∧
      ({ e with slots } : Engine).standings.map (·.score) = [200, 300] ∧
      ({ e with slots } : Engine).Declines phones := by
  intro phones e
  have keeps : (e.decide phones).toOption = some .noAction := by decide +kernel
  have declines : e.Declines phones := by
    intro d hd
    rw [hd] at keeps
    exact Option.some.inj keeps
  have news : e.slots.learn 1 (.signal (Signal.ofLevel 3)) = .ok (_, true) := rfl
  exact ⟨_, news, by decide +kernel,
    (precheck_hides_nothing (by decide +kernel) declines rfl news (by decide +kernel)).1⟩

end ModemSelect.Engine
