import Mathlib.Data.List.Forall2
import ModemSelect.Proofs.Rescoring

namespace ModemSelect

theorem Settings.comparesScores_eq_false_iff {settings : Settings} :
    settings.comparesScores = false ↔
      settings.performanceThreshold < 0 ∨ settings.tolerance < 0 := by
  rw [comparesScores, Bool.and_eq_false_iff, decide_eq_false_iff_not, decide_eq_false_iff_not,
    Int.not_le, Int.not_le]

namespace Standing

theorem Alike.symm {a b : Standing} (h : a.Alike b) : b.Alike a :=
  ⟨h.id.symm, h.state.symm, h.usable.symm⟩

variable {xs ys : List Standing} (h : List.Forall₂ Alike xs ys)
include h

/-- Lists that agree but for the scores show a slot at the same place, or both do not show it. -/
theorem find?_alike (id : Nat) :
    Option.Rel Alike (xs.find? (·.id == id)) (ys.find? (·.id == id)) := by
  induction h with
  | nil => exact .none
  | @cons x y xs ys same rest ih =>
    rw [List.find?_cons, List.find?_cons, same.id]
    cases y.id == id with
    | true => exact .some same
    | false => exact ih

theorem exists_alike {y : Standing} (hy : y ∈ ys) : ∃ x ∈ xs, x.Alike y := by
  induction h with
  | nil => cases hy
  | @cons x _ xs _ same rest ih =>
    rcases List.mem_cons.mp hy with rfl | hy
    · exact ⟨x, List.mem_cons_self, same⟩
    · obtain ⟨x', hx', alike⟩ := ih hy
      exact ⟨x', List.mem_cons_of_mem x hx', alike⟩

end Standing

namespace Situation

variable {s : Situation} {standings : List Standing}

/-- Where scores are not compared a return is weighed without them. -/
theorem weighReturn_of_uncompared (uncompared : s.settings.comparesScores = false)
    {default default' current current' : Standing} (hd : default.Alike default')
    (hc : current.Alike current') :
    ({ s with standings } : Situation).weighReturn default' current' =
      s.weighReturn default current := by
  simp only [weighReturn, uncompared, hd.state, hd.usable, hc.state, hc.usable]
  rfl

section Alike

variable (alike : List.Forall₂ Standing.Alike s.standings standings)
include alike

theorem standing?_alike (id : Nat) :
    Option.Rel Standing.Alike (s.standing? id)
      (({ s with standings } : Situation).standing? id) :=
  Standing.find?_alike alike id

theorem rescored_of_alike : s.Rescored { s with standings } where
  settings := rfl
  default := rfl
  preferred := rfl
  standing? {id x'} hx' := by
    have found := standing?_alike alike id
    rw [hx'] at found
    cases hx : s.standing? id with
    | none =>
      rw [hx] at found
      cases found
    | some x =>
      rw [hx] at found
      cases found with
      | some same => exact ⟨x, rfl, same⟩
  mem_standings hx' := Standing.exists_alike alike hx'

theorem returnToDefault_of_uncompared (uncompared : s.settings.comparesScores = false)
    (userData : Bool) (verdict : Verdict) (bypassed : Bool) :
    ({ s with standings } : Situation).returnToDefault userData verdict bypassed =
      s.returnToDefault userData verdict bypassed := by
  have default := standing?_alike alike s.default
  have current := standing?_alike alike s.preferred
  unfold returnToDefault
  -- The two runs look up the same slots, each in its own list.
  revert default current
  generalize s.standing? s.default = d, s.standing? s.preferred = c
  generalize ({ s with standings } : Situation).standing? s.default = d',
    ({ s with standings } : Situation).standing? s.preferred = c'
  intro default current
  cases default with
  | none => rfl
  | some hd =>
    cases current with
    | none => rfl
    | some hc =>
      simp only [weighReturn_of_uncompared uncompared hd hc]
      rfl

/-- Which slot data leaves the default for may hang on the scores, but not whether it leaves. -/
theorem leaves_iff_of_uncompared (uncompared : s.settings.comparesScores = false)
    (allows : Nat → Bool) :
    (∃ p, (s.leaveDefault allows).decision = .pending p) ↔
      ∃ p, (({ s with standings } : Situation).leaveDefault allows).decision = .pending p := by
  let s' : Situation := { s with standings }
  have there : s.Rescored s' := rescored_of_alike alike
  have back : s'.Rescored s := by
    have flipped : List.Forall₂ Standing.Alike standings s.standings :=
      (alike.imp fun _ _ same => same.symm).flip
    exact rescored_of_alike (s := s') flipped
  have unequal : ¬ s.settings.comparesScores = true := by simp [uncompared]
  rw [exists_pending_iff, exists_pending_iff]
  constructor
  · intro leaves stays
    exact leaves (back.leaveDefault (fun compares => absurd compares unequal) stays)
  · intro leaves stays
    exact leaves (there.leaveDefault (fun compares => absurd compares unequal) stays)

/-- With scores out of the comparison they do not matter: in two lists that agree slot by slot but
for them data goes back alike, and it leaves the default in both or in neither. What is decided is
never for performance. -/
theorem scores_irrelevant
    (off : s.settings.performanceThreshold < 0 ∨ s.settings.tolerance < 0) :
    (∀ userData verdict bypassed,
      ({ s with standings } : Situation).returnToDefault userData verdict bypassed =
        s.returnToDefault userData verdict bypassed) ∧
    (∀ allows, (∃ p, (s.leaveDefault allows).decision = .pending p) ↔
      ∃ p, (({ s with standings } : Situation).leaveDefault allows).decision = .pending p) ∧
    ∀ p : Pending,
      (∃ userData verdict bypassed, s.returnToDefault userData verdict bypassed = .pending p) ∨
        (∃ allows, (s.leaveDefault allows).decision = .pending p) →
      p.performance = false := by
  have uncompared := Settings.comparesScores_eq_false_iff.mpr off
  refine ⟨returnToDefault_of_uncompared alike uncompared,
    leaves_iff_of_uncompared alike uncompared, fun p decided => ?_⟩
  by_contra performance
  rw [Bool.not_eq_false] at performance
  have compares : s.settings.comparesScores = true := by
    rcases decided with ⟨userData, verdict, bypassed, back⟩ | ⟨allows, leaves⟩
    · exact returnToDefault_performance back performance
    · exact leaveDefault_performance leaves performance
  rw [uncompared] at compares
  cases compares

end Alike

/-- Scores are not compared. The default 0 and slot 3, which carries data, roam; 1 and 2 are at home
and 2 is heard better. -/
def muted : Situation where
  settings := { tolerance := -1 }
  default := 0
  preferred := 3
  standings := [⟨0, .roaming, .roamingEnabled, 300⟩, ⟨1, .home, .home, 100⟩,
    ⟨2, .home, .home, 200⟩, ⟨3, .roaming, .nonTerrestrial, 900⟩]

/-- Now slot 1 is heard best and nothing is heard of the two that roam. -/
def retuned : Situation :=
  { muted with standings := [⟨0, .roaming, .roamingEnabled, 0⟩, ⟨1, .home, .home, 500⟩,
      ⟨2, .home, .home, 200⟩, ⟨3, .roaming, .nonTerrestrial, 0⟩] }

/-- Data leaves for another slot then, but it leaves, and it goes back from slot 3 as before. -/
theorem scores_irrelevant_muted :
    muted.settings.tolerance < 0 ∧
      List.Forall₂ Standing.Alike muted.standings retuned.standings ∧
      (muted.leaveDefault fun _ => true).decision = .pending ⟨2, false, true⟩ ∧
      (retuned.leaveDefault fun _ => true).decision = .pending ⟨1, false, true⟩ ∧
      (∃ p, (retuned.leaveDefault fun _ => true).decision = .pending p) ∧
      muted.returnToDefault true ⟨[]⟩ false = .pending ⟨0, false, true⟩ ∧
      retuned.returnToDefault true ⟨[]⟩ false = .pending ⟨0, false, true⟩ := by
  have off : muted.settings.tolerance < 0 := by decide
  have alike : List.Forall₂ Standing.Alike muted.standings retuned.standings := by
    refine .cons ⟨rfl, rfl, rfl⟩ (.cons ⟨rfl, rfl, rfl⟩ (.cons ⟨rfl, rfl, rfl⟩ ?_))
    exact .cons ⟨rfl, rfl, rfl⟩ .nil
  have second : ⟨2, .home, .home, 200⟩ ∈ muted.standings := by decide
  have leaves : (muted.leaveDefault fun _ => true).decision = .pending ⟨2, false, true⟩ :=
    leaveDefault_of_best rfl second (by decide) rfl rfl (by decide)
  have first : ⟨1, .home, .home, 500⟩ ∈ retuned.standings := by decide
  have turns : (retuned.leaveDefault fun _ => true).decision = .pending ⟨1, false, true⟩ :=
    leaveDefault_of_best rfl first (by decide) rfl rfl (by decide)
  have back : muted.returnToDefault true ⟨[]⟩ false = .pending ⟨0, false, true⟩ := by decide
  obtain ⟨same, leave, -⟩ := scores_irrelevant alike (Or.inr off)
  have still : retuned.returnToDefault true ⟨[]⟩ false = .pending ⟨0, false, true⟩ :=
    (same true ⟨[]⟩ false).trans back
  exact ⟨off, alike, leaves, turns, (leave _).mp ⟨_, leaves⟩, back, still⟩

end Situation

end ModemSelect
