import ModemSelect.Proofs.Challengers
import ModemSelect.Proofs.Decided
import ModemSelect.Proofs.Following
import ModemSelect.Proofs.Returns

namespace ModemSelect

namespace Engine

/-- The stability check on record is for just the switch that the policy decides to wait for, and
there is none where it decides on no such switch. A decision to switch at once needs no check. -/
def UpToDate (e : Engine) (phones : Readings) : Prop :=
  (e.timers.record? .stabilityCheck = none ∧ ∀ p, e.decide phones ≠ .ok (.pending p)) ∨
    (∃ s p, e.timers.record? .stabilityCheck = some s ∧ s.note = .stability p ∧
      e.decide phones = .ok (.pending p)) ∨
    ∃ target why, e.decide phones = .ok (.immediate target why)

/-- A validation runs for the target of the switch. -/
def Validates (e : Engine) (p : Pending) : Prop :=
  e.validating = true ∧ e.target = some p.target

theorem hasPending_of_record {e : Engine} {s : Scheduled}
    (hs : e.timers.record? .stabilityCheck = some s) : e.hasPending = true := by
  simp [hasPending, Timers.isScheduled, hs]

/-- The news that a pending switch does not lead the engine to evaluate either leaves the decision
as it is or is of a score that is not compared. -/
theorem hear_spec {e : Engine} {m : Moment} (pending : e.hasPending = true) (id : Nat)
    (update : Update) :
    if update.onlyScore = true ∧ e.settings.comparesScores = false then
      (e.hear m id update).reason = none
    else (e.hear m id update).reason = none →
      (e.hear m id update).done.engine.basis = e.basis := by
  unfold hear
  cases learnt : e.slots.learn id update with
  | error error =>
    cases error <;> simp [basis, note]
  | ok result =>
    obtain ⟨slots, isNews⟩ := result
    cases isNews with
    | false =>
      have same := SlotTable.learn_of_known learnt
      simp [basis, same]
    | true =>
      have matters : ({ e with slots } : Engine).scoreMatters m.phones =
          e.settings.comparesScores := by
        have still : ({ e with slots } : Engine).hasPending = true := pending
        cases compares : e.settings.comparesScores with
        | false => simp [scoreMatters, compares]
        | true => simp [scoreMatters, compares, still]
      simp only [Bool.not_true, Bool.false_eq_true, if_false, matters]
      cases update.onlyScore <;> cases e.settings.comparesScores <;> simp

/-- Where the policy decides to wait for a switch, no change of the slots makes it urgent. -/
theorem decide_ne_immediate {e e' : Engine} {phones : Readings} {p : Pending}
    (settings : e'.settings = e.settings) (decides : e.decide phones = .ok (.pending p))
    (target : Nat) (why : Urgency) : e'.decide phones ≠ .ok (.immediate target why) := by
  intro urgent
  have before := decide_eq_ok.mp decides
  have after := decide_eq_ok.mp urgent
  generalize waits : Decision.pending p = waiting at before
  generalize hurries : Decision.immediate target why = hurrying at after
  cases after with
  | leaving => exact Situation.leaveDefault_ne_immediate _ _ target why hurries.symm
  | @returning default carrier userData verdict designated _ carries away _ hu hv =>
    have refused := Situation.returnToDefault_immediate_iff.mp ⟨target, why, hurries.symm⟩
    cases before with
    | leaving designated' _ carries' =>
      rw [designated] at designated'
      cases designated'
      exact away (carries.symm.trans carries')
    | returning designated' _ carries' _ _ hu' hv' =>
      rw [designated] at designated'
      cases designated'
      rw [carries] at carries'
      cases carries'
      rw [hu] at hu'
      cases hu'
      rw [hv] at hv'
      cases hv'
      have same : (e.situation default carrier).settings = (e'.situation default carrier).settings :=
        settings.symm
      rw [← same] at refused
      obtain ⟨target', why', urgent'⟩ := Situation.returnToDefault_immediate_iff.mpr refused
      rw [urgent'] at waits
      cases waits

/-- While the default carries data, the switch is for the best challenger with internet. -/
theorem decide_of_best {e : Engine} {phones : Readings} {default : Nat}
    {current candidate : Standing} {performance : Bool}
    (designated : phones.defaultSlot = some default) (followed : e.slots.isTracked default = true)
    (carries : phones.carrier default = default)
    (hc : (e.situation default default).standing? default = some current)
    (hm : candidate ∈ e.standings) (hne : candidate.id ≠ default)
    (challenge : candidate.challenge e.settings current = some performance)
    (allowed : phones.allows candidate.id = true)
    (best : ∀ other ∈ e.standings, other.id ≠ default → other ≠ candidate →
      other.challenge e.settings current ≠ none → phones.allows other.id = true →
        other.precedes candidate = false) :
    e.decide phones = .ok (.pending ⟨candidate.id, performance, e.settings.requirePing⟩) := by
  have leaves := Situation.leaveDefault_of_best (s := e.situation default default) hc hm hne
    challenge allowed best
  exact decide_eq_ok.mpr (leaves ▸ .leaving designated followed carries)

section Recorded

variable {e : Engine} {m : Moment} {s : Scheduled} {p : Pending}
  (hs : e.timers.record? .stabilityCheck = some s) (note : s.note = .stability p)
  (unhurried : ∀ target why, e.decide m.phones ≠ .ok (.immediate target why))
include hs note unhurried

theorem upToDate_iff_of_record :
    e.UpToDate m.phones ↔ e.decide m.phones = .ok (.pending p) := by
  constructor
  · intro current
    rcases current with ⟨bare, -⟩ | ⟨s', q, hs', note', decides⟩ | ⟨target, why, urgent⟩
    · rw [hs] at bare
      cases bare
    · rw [hs] at hs'
      cases hs'
      rw [note] at note'
      cases note'
      exact decides
    · exact absurd urgent (unhurried target why)
  · exact fun decides => Or.inr (Or.inl ⟨s, p, hs, note, decides⟩)

/-- An evaluation brings the check up to date, unless it disregards a decision for the slot under
validation. -/
theorem upToDate_evaluate_iff (enabled : e.settings.enabled = true)
    (choice : m.phones.leavesChoice = true) (reason : Reason) :
    (e.evaluate m reason).engine.UpToDate m.phones ↔
      e.decide m.phones = .ok (.pending p) ∨
        ∀ q, e.decide m.phones = .ok (.pending q) → ¬ e.Validates q := by
  have same : (e.evaluate m reason).engine.decide m.phones = e.decide m.phones :=
    decide_of_basis (basis_evaluate e m reason) m.phones
  have decision : ∀ d, e.decision? m.phones = some d ↔ e.decide m.phones = .ok d := by
    intro d
    rw [decision?_eq_some_iff]
    exact ⟨fun h => h.2.2, fun h => ⟨enabled, choice, h⟩⟩
  by_cases waits : ∃ q, e.decide m.phones = .ok (.pending q)
  · obtain ⟨q, decides⟩ := waits
    have waiting := evaluate_of_pending ((decision _).mpr decides) reason
    by_cases busy : e.Validates q
    · have kept : (e.evaluate m reason).engine = e := by
        rw [waiting]
        exact awaitStability_of_busy busy m.clock reason
      rw [kept, upToDate_iff_of_record hs note unhurried]
      constructor
      · exact Or.inl
      · intro cases
        rcases cases with still | free
        · exact still
        · exact absurd busy (free q decides)
    · have carries : (e.evaluate m reason).engine.timers.carries .stabilityCheck (.stability q) =
          true := by
        have course := course_awaitStability busy m.clock reason
        rw [waiting, timers_of_course course]
        exact Timers.carries_schedule ..
      obtain ⟨s', hs', note'⟩ := Timers.carries_iff.mp carries
      refine iff_of_true (Or.inr (Or.inl ⟨s', q, hs', note', same.trans decides⟩)) (Or.inr ?_)
      intro q' decides'
      rw [decides] at decides'
      cases decides'
      exact busy
  · have unmoved : ∀ q, e.decision? m.phones ≠ some (.pending q) :=
      fun q h => waits ⟨q, (decision _).mp h⟩
    obtain ⟨e', course, drops⟩ := evaluate_of_unmoved enabled unmoved
      (fun target why h => unhurried target why ((decision _).mp h)) reason
    have pending : e'.hasPending = true :=
      (hasPending_of_course course).trans (hasPending_of_record hs)
    have bare : (e.evaluate m reason).engine.timers.record? .stabilityCheck = none := by
      rw [drops, dropPending, if_pos pending]
      change ((e'.timers.cancel .stabilityCheck).1.cancel .evaluate).1.record? .stabilityCheck = none
      simp [Timers.record?_cancel]
    refine iff_of_true (Or.inl ⟨bare, fun q h => waits ⟨q, same.symm.trans h⟩⟩) (Or.inr ?_)
    exact fun q decides => absurd ⟨q, decides⟩ waits

end Recorded

/-- After news of a slot the check on record is up to date just where the policy decides as it did
before, or where the news is not of a score while scores are not compared and the policy now decides
on no switch to the slot under validation. -/
theorem news_upToDate_iff {e : Engine} {m : Moment} {s : Scheduled} {p : Pending}
    (enabled : e.settings.enabled = true) (choice : m.phones.leavesChoice = true)
    (hs : e.timers.record? .stabilityCheck = some s) (note : s.note = .stability p)
    (decides : e.decide m.phones = .ok (.pending p)) (id : Nat) (update : Update) :
    let after := (e.handle m (.news id update)).engine
    after.UpToDate m.phones ↔
      after.decide m.phones = .ok (.pending p) ∨
        ¬ (update.onlyScore = true ∧ e.settings.comparesScores = false) ∧
          ∀ q, after.decide m.phones = .ok (.pending q) → ¬ e.Validates q := by
  intro after
  let heard := (e.hear m id update).done.engine
  have course : heard.course = e.course := (course_hear e m id update).1
  have settings : heard.settings = e.settings :=
    congrArg Basis.settings (basis_hear e m id update).1
  obtain ⟨timers, -, target, validating⟩ := Course.mk.inj course
  have recorded : heard.timers.record? .stabilityCheck = some s := timers ▸ hs
  have unhurried : ∀ target why, heard.decide m.phones ≠ .ok (.immediate target why) :=
    decide_ne_immediate settings decides
  have spec := hear_spec (m := m) (hasPending_of_record hs) id update
  cases asks : (e.hear m id update).reason with
  | none =>
    have handled : after = heard := by
      simp only [after, handle, takeUp, Uptake.complete, asks]
      rfl
    rw [handled, upToDate_iff_of_record recorded note unhurried]
    constructor
    · exact Or.inl
    · intro cases
      rcases cases with still | ⟨compared, -⟩
      · exact still
      · rw [if_neg compared] at spec
        rw [decide_of_basis (spec asks)]
        exact decides
  | some reason =>
    have handled : after = (heard.evaluate m reason).engine := by
      simp only [after, handle, takeUp, Uptake.complete, asks]
      rfl
    have same : after.decide m.phones = heard.decide m.phones := by
      rw [handled]
      exact decide_of_basis (basis_evaluate heard m reason) m.phones
    have compared : ¬ (update.onlyScore = true ∧ e.settings.comparesScores = false) := by
      intro uncompared
      rw [if_pos uncompared, asks] at spec
      cases spec
    have validates : ∀ q, heard.Validates q ↔ e.Validates q := by
      intro q
      rw [Validates, Validates, validating, target]
    rw [same, handled, upToDate_evaluate_iff recorded note unhurried (settings ▸ enabled) choice]
    simp only [compared, not_false_eq_true, true_and, validates]

/-- A check of two minutes is replaced by one of ten seconds once the default loses service. -/
theorem news_upToDate_iff_renewed :
    let e := Run.renewed.engine
    let m : Moment := ⟨⟨125000, 125000⟩, .sample .home [0, 1]⟩
    let after := (e.handle m (.news 0 (.registration { state := .outOfService }))).engine
    e.settings.enabled = true ∧ m.phones.leavesChoice = true ∧
      (e.timers.record? .stabilityCheck).map (·.note) = some (.stability ⟨1, true, true⟩) ∧
      e.decide m.phones = .ok (.pending ⟨1, true, true⟩) ∧
      after.decide m.phones = .ok (.pending ⟨1, false, true⟩) ∧ after.UpToDate m.phones := by
  intro e m after
  have recorded : (e.timers.record? .stabilityCheck).map (·.note) =
      some (.stability ⟨1, true, true⟩) := by decide +kernel
  have decision : e.decision? m.phones = some (.pending ⟨1, true, true⟩) := by decide +kernel
  have turns : after.decision? m.phones = some (.pending ⟨1, false, true⟩) := by decide +kernel
  have unvalidated : e.validating = false := by decide +kernel
  obtain ⟨s, hs, note⟩ := Option.map_eq_some_iff.mp recorded
  obtain ⟨enabled, choice, decides⟩ := decision?_eq_some_iff.mp decision
  obtain ⟨-, -, decides'⟩ := decision?_eq_some_iff.mp turns
  refine ⟨enabled, choice, recorded, decides, decides', ?_⟩
  refine (news_upToDate_iff enabled choice hs note decides 0 _).mpr (Or.inr ⟨?_, fun q _ busy => ?_⟩)
  · exact fun uncompared => Bool.false_ne_true uncompared.1
  · exact Bool.false_ne_true (unvalidated.symm.trans busy.1)

end Engine

/-- The default slot is out of service, scores are not compared and two other slots are heard alike,
so that the switch waits for the first of them. -/
def Run.vying : Run where
  settings := { tolerance := -1 }
  count := 3
  phones := .sample .outOfService [0, 1, 2]
  acts := [
    (⟨⟨0, 0⟩, .sample .outOfService [0, 1, 2]⟩, .tell (.evaluationRequested .external))]

theorem Run.vying_decides : Run.vying.fresh.decide (.sample .outOfService [0, 1, 2]) =
    .ok (.pending ⟨1, false, true⟩) := by
  have current : (Run.vying.fresh.situation 0 0).standing? 0 =
      some ⟨0, .outOfService, .notUsable, 0⟩ := by decide +kernel
  have first : ⟨1, .home, .home, 400⟩ ∈ Run.vying.fresh.standings := by decide +kernel
  exact Engine.decide_of_best rfl rfl rfl current first (by decide) (by decide +kernel) rfl
    (by decide +kernel)

theorem Run.vying_engine : Run.vying.engine =
    Run.vying.fresh.awaitStability ⟨0, 0⟩ .external ⟨1, false, true⟩ := by
  have decision := Engine.decision?_eq_some_iff.mpr ⟨rfl, rfl, Run.vying_decides⟩
  exact congrArg Outcome.engine
    (Engine.evaluate_of_pending (m := ⟨⟨0, 0⟩, .sample .outOfService [0, 1, 2]⟩) decision .external)

namespace Engine

/-- The first slot is then heard worse. The check goes on for it though the policy turns to the
second one. -/
theorem check_outdated :
    ¬ ∀ (e : Engine) (m : Moment) (s : Scheduled) (p : Pending) (id : Nat) (update : Update),
      e.Reachable → e.settings.enabled = true → m.phones.leavesChoice = true →
      e.timers.record? .stabilityCheck = some s → s.note = .stability p →
      e.decide m.phones = .ok (.pending p) →
      (e.handle m (.news id update)).engine.UpToDate m.phones := by
  intro always
  let fresh := Run.vying.fresh
  let waiting := fresh.awaitStability ⟨0, 0⟩ .external ⟨1, false, true⟩
  let m : Moment := ⟨⟨5000, 5000⟩, .sample .outOfService [0, 1, 2]⟩
  let news : Event := .news 1 (.signal (Signal.ofLevel 0))
  let after := (waiting.handle m news).engine
  have basis : waiting.basis = fresh.basis := basis_awaitStability ..
  have turns : after.decide m.phones = .ok (.pending ⟨2, false, true⟩) := by
    let heard : Engine := { fresh with slots := fresh.slots.learned 1 (.signal (Signal.ofLevel 0)) }
    have same : after.basis = heard.basis := (basis_handle waiting m news).1.trans (by rw [basis]; rfl)
    have current : (heard.situation 0 0).standing? 0 = some ⟨0, .outOfService, .notUsable, 0⟩ := by
      decide +kernel
    have second : ⟨2, .home, .home, 400⟩ ∈ heard.standings := by decide +kernel
    have decides : heard.decide m.phones = .ok (.pending ⟨2, false, true⟩) :=
      decide_of_best rfl rfl rfl current second (by decide) (by decide +kernel) rfl
        (by decide +kernel)
    exact (decide_of_basis same m.phones).trans decides
  have recorded : (waiting.timers.record? .stabilityCheck).map (·.note) =
      some (.stability ⟨1, false, true⟩) := by decide +kernel
  have kept : (after.timers.record? .stabilityCheck).map (·.note) =
      some (.stability ⟨1, false, true⟩) := by decide +kernel
  obtain ⟨s, hs, note⟩ := Option.map_eq_some_iff.mp recorded
  have current := always waiting m s _ 1 (.signal (Signal.ofLevel 0))
    ⟨Run.vying, Run.vying_engine⟩ rfl rfl hs note ((decide_of_basis basis m.phones).trans Run.vying_decides)
  rcases current with ⟨bare, -⟩ | ⟨s', q, hs', note', decides⟩ | ⟨target, why, urgent⟩
  · rw [bare] at kept
    cases kept
  · rw [hs', Option.map_some, note'] at kept
    cases kept
    rw [turns] at decides
    cases decides
  · rw [turns] at urgent
    cases urgent

end Engine

end ModemSelect
