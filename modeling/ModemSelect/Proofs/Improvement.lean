import ModemSelect.Proofs.Ranking
import ModemSelect.Proofs.Returns

namespace ModemSelect

/-- Home service is better than roaming, and roaming better than no known service. -/
def ServiceState.grade : ServiceState → Nat
  | .home => 2
  | .roaming => 1
  | .outOfService | .unknown => 0

theorem ServiceState.eq_home_iff {state : ServiceState} : state = .home ↔ 2 ≤ state.grade := by
  cases state <;> simp [grade]

theorem ServiceState.isInService_iff {state : ServiceState} :
    state.isInService = true ↔ 1 ≤ state.grade := by
  cases state <;> simp [grade, isInService]

namespace Standing

/-- In service, rank and score the one standing is no better than the other. -/
structure NoBetter (a b : Standing) : Prop where
  service : a.state.grade ≤ b.state.grade
  rank : a.usable.rank ≤ b.usable.rank
  score : a.score ≤ b.score

namespace NoBetter

theorem refl (a : Standing) : a.NoBetter a :=
  ⟨Nat.le_refl _, Nat.le_refl _, Int.le_refl _⟩

variable {a b : Standing} (h : a.NoBetter b)
include h

theorem home (home : a.state = .home) : b.state = .home := by
  have service := h.service
  rw [ServiceState.eq_home_iff] at home ⊢
  omega

theorem isInService (served : a.state.isInService = true) : b.state.isInService = true := by
  have service := h.service
  rw [ServiceState.isInService_iff] at served ⊢
  omega

theorem isUsable (usable : a.usable.isUsable = true) : b.usable.isUsable = true := by
  have rank := h.rank
  simp only [Usability.isUsable, decide_eq_true_eq] at usable ⊢
  omega

end NoBetter

variable {candidate candidate' current current' : Standing}

theorem outscores_of_noBetter (rises : candidate.NoBetter candidate')
    (falls : current'.NoBetter current) {settings : Settings}
    (h : candidate'.outscores settings current' = false) :
    candidate.outscores settings current = false := by
  have higher := rises.score
  have lower := falls.score
  simp only [outscores, decide_eq_false_iff_not] at h ⊢
  omega

/-- A challenge outlasts an improvement of the challenger and a decline of the default. -/
theorem challenge_of_noBetter (rises : candidate.NoBetter candidate')
    (falls : current'.NoBetter current) {settings : Settings}
    (h : candidate.challenge settings current ≠ none) :
    candidate'.challenge settings current' ≠ none := by
  intro idle
  apply h
  rw [challenge_eq_none_iff] at idle ⊢
  split at idle
  next roaming =>
    rw [if_pos roaming]
    obtain ⟨low, behind⟩ := idle
    have higher := rises.rank
    have lower := falls.rank
    refine ⟨by omega, fun compares level usable => ?_⟩
    -- Slots on a par stay on a par, since the challenger has not come to rank higher.
    have level' : candidate'.usable.rank = current'.usable.rank := by omega
    exact outscores_of_noBetter rises falls (behind compares level' (rises.isUsable usable))
  next roaming =>
    rw [if_neg roaming]
    intro home
    have behind := idle (rises.home home)
    split at behind
    next compares =>
      rw [if_pos compares]
      exact outscores_of_noBetter rises falls behind
    next compares =>
      rw [if_neg compares]
      exact falls.home behind

theorem Outranks.of_noBetter {a b b' : Standing} (h : a.Outranks b') (same : b'.id = b.id)
    (better : b.NoBetter b') : a.Outranks b := by
  have rank := better.rank
  have score := better.score
  unfold Outranks at *
  omega

/-- The standing takes the place of one of the same slot. -/
def supersede (x y : Standing) : Standing := if y.id = x.id then x else y

theorem supersede_of_id {x y : Standing} (h : y.id = x.id) : x.supersede y = x := if_pos h

theorem supersede_of_ne {x y : Standing} (h : y.id ≠ x.id) : x.supersede y = y := if_neg h

@[simp] theorem id_supersede (x y : Standing) : (x.supersede y).id = y.id := by
  unfold supersede
  split
  next h => exact h.symm
  next => rfl

end Standing

namespace Situation

theorem defaultRegains_of_noBetter {default default' current current' : Standing}
    (rises : default.NoBetter default') (falls : current'.NoBetter current)
    (h : defaultRegains default' current' = false) : defaultRegains default current = false := by
  have higher := rises.score
  have lower := falls.score
  simp only [defaultRegains, decide_eq_false_iff_not] at h ⊢
  omega

/-- What a better default leaves on a worse alternate, the default leaves on the alternate. -/
theorem weighReturn_of_noBetter {s s' : Situation} (settings : s'.settings = s.settings)
    {default default' current current' : Standing} (rises : default.NoBetter default')
    (falls : current'.NoBetter current) (h : s'.weighReturn default' current' = .noAction) :
    s.weighReturn default current = .noAction := by
  rw [weighReturn_eq_noAction_iff] at h ⊢
  rw [settings] at h
  split at h
  next roaming =>
    rw [if_pos roaming]
    have higher := rises.rank
    have lower := falls.rank
    rcases h with behind | ⟨level, usable, compares, behind⟩
    · exact Or.inl (by omega)
    · rcases Nat.lt_or_eq_of_le (show default.usable.rank ≤ current.usable.rank by omega) with
        further | level'
      · exact Or.inl further
      · exact Or.inr ⟨level', falls.isUsable usable, compares,
          defaultRegains_of_noBetter rises falls behind⟩
  next roaming =>
    rw [if_neg roaming]
    obtain ⟨home, behind⟩ := h
    refine ⟨falls.home home, ?_⟩
    split at behind
    next compares =>
      rw [if_pos compares]
      intro served
      exact defaultRegains_of_noBetter rises falls (behind (rises.isInService served))
    next compares =>
      rw [if_neg compares]
      exact fun home => behind (rises.home home)

/-- One slot is seen to stand differently; all else stays. -/
def revise (s : Situation) (x : Standing) : Situation :=
  { s with standings := s.standings.map x.supersede }

@[simp] theorem settings_revise (s : Situation) (x : Standing) :
    (s.revise x).settings = s.settings := rfl

@[simp] theorem default_revise (s : Situation) (x : Standing) :
    (s.revise x).default = s.default := rfl

theorem standing?_revise (s : Situation) (x : Standing) (id : Nat) :
    (s.revise x).standing? id = (s.standing? id).map x.supersede := by
  have same : (fun y : Standing => y.id == id) ∘ x.supersede = fun y => y.id == id := by
    funext y
    simp
  unfold standing?
  rw [revise, List.find?_map, same]

theorem standing?_revise_of_ne {s : Situation} {x : Standing} {id : Nat} (other : id ≠ x.id) :
    (s.revise x).standing? id = s.standing? id := by
  rw [standing?_revise]
  cases h : s.standing? id with
  | none => rfl
  | some y =>
    have hid := (standing?_eq_some h).2
    rw [Option.map_some, Standing.supersede_of_ne (by omega)]

section Revision

variable {s : Situation} (distinct : (s.standings.map (·.id)).Nodup) {x x' : Standing}
  (hx : x ∈ s.standings) (same : x'.id = x.id)
include distinct hx same

theorem standing?_revise_self : (s.revise x').standing? x.id = some x' := by
  rw [standing?_revise, (standing?_eq_some_iff distinct).mpr ⟨hx, rfl⟩, Option.map_some,
    Standing.supersede_of_id same.symm]

omit same in
theorem eq_of_standing? {id : Nat} {y : Standing} (hy : s.standing? id = some y)
    (hid : x.id = id) : y = x := by
  obtain ⟨hm, hyid⟩ := standing?_eq_some hy
  exact List.inj_on_of_nodup_map distinct hm hx (hyid.trans hid.symm)

/-- The revised slot stands so, and every other one as before. -/
theorem supersede_cases {y : Standing} (hy : y ∈ s.standings) :
    (y = x ∧ x'.supersede y = x') ∨ (y.id ≠ x'.id ∧ x'.supersede y = y) := by
  by_cases h : y.id = x'.id
  · exact Or.inl ⟨List.inj_on_of_nodup_map distinct hy hx (h.trans same),
      Standing.supersede_of_id h⟩
  · exact Or.inr ⟨h, Standing.supersede_of_ne h⟩

theorem noBetter_supersede (better : x.NoBetter x') {y : Standing} (hy : y ∈ s.standings) :
    y.NoBetter (x'.supersede y) := by
  rcases supersede_cases distinct hx same hy with ⟨rfl, revised⟩ | ⟨-, kept⟩
  · rwa [revised]
  · rw [kept]
    exact .refl y

/-- Where data goes back to the default it does so as well after the default has become better, or
after the slot that carries data has become worse. -/
theorem falling_back_monotone (away : s.preferred ≠ s.default) {userData bypassed : Bool}
    {verdict : Verdict} (h : s.returnToDefault userData verdict bypassed ≠ .noAction) :
    (x.id = s.default → x.NoBetter x' →
      (s.revise x').returnToDefault userData verdict bypassed ≠ .noAction) ∧
    (x.id = s.preferred → x'.NoBetter x →
      (s.revise x').returnToDefault userData verdict bypassed ≠ .noAction) := by
  have revised := standing?_revise_self distinct hx same
  have settings : s.settings = (s.revise x').settings := rfl
  constructor
  · intro hid better idle
    apply h
    refine returnToDefault_of_weighReturn settings (fun default current hd hc => ?_) idle
    rw [hid] at revised same
    obtain rfl := eq_of_standing? distinct hx hd hid
    have kept : (s.revise x').standing? s.preferred = some current :=
      (standing?_revise_of_ne (by omega)).trans hc
    exact ⟨x', current, revised, kept, weighReturn_of_noBetter rfl better (.refl current)⟩
  · intro hid worse idle
    apply h
    refine returnToDefault_of_weighReturn settings (fun default current hd hc => ?_) idle
    rw [hid] at revised same
    obtain rfl := eq_of_standing? distinct hx hc hid
    have kept : (s.revise x').standing? s.default = some default :=
      (standing?_revise_of_ne (by omega)).trans hd
    exact ⟨default, x', kept, revised, weighReturn_of_noBetter rfl (.refl default) worse⟩

theorem keeps_of_better_default (hid : x.id = s.default) (better : x.NoBetter x')
    {allows : Nat → Bool} (idle : (s.leaveDefault allows).decision = .noAction) :
    ((s.revise x').leaveDefault allows).decision = .noAction := by
  have hc := (standing?_eq_some_iff distinct).mpr ⟨hx, hid⟩
  have hc' : (s.revise x').standing? s.default = some x' :=
    hid ▸ standing?_revise_self distinct hx same
  rw [leaveDefault_noAction_iff hc] at idle
  refine (leaveDefault_noAction_iff hc').mpr fun y' hy' hne challenge => ?_
  obtain ⟨y, hy, rfl⟩ := List.mem_map.mp hy'
  rw [Standing.id_supersede] at hne ⊢
  have other : y.id ≠ x'.id := by
    intro he
    exact hne (he.trans (same.trans hid))
  rw [Standing.supersede_of_ne other] at challenge
  exact idle y hy hne (Standing.challenge_of_noBetter (.refl y) better challenge)

theorem leaves_of_better_alternate (away : x.id ≠ s.default) (better : x.NoBetter x')
    {allows : Nat → Bool} {p : Pending} (leaves : (s.leaveDefault allows).decision = .pending p) :
    ∃ p', ((s.revise x').leaveDefault allows).decision = .pending p' := by
  obtain ⟨current, candidate, hc, hm, hne, challenge, allowed, -⟩ := leaveDefault_pending leaves
  have hc' : (s.revise x').standing? s.default = some current :=
    (standing?_revise_of_ne (same ▸ away.symm)).trans hc
  have challenges : candidate.challenge s.settings current ≠ none := by simp [challenge]
  refine exists_pending_iff.mpr fun idle => ?_
  have refused := (leaveDefault_noAction_iff hc').mp idle (x'.supersede candidate)
    (List.mem_map_of_mem hm) (by simpa using hne)
    (Standing.challenge_of_noBetter (noBetter_supersede distinct hx same better hm)
      (.refl current) challenges)
  rw [Standing.id_supersede, allowed] at refused
  cases refused

theorem target_of_better_target (better : x.NoBetter x') {allows : Nat → Bool} {p : Pending}
    (leaves : (s.leaveDefault allows).decision = .pending p) (chosen : p.target = x.id) :
    ∃ performance,
      ((s.revise x').leaveDefault allows).decision = .pending { p with performance } := by
  obtain ⟨current, candidate, hc, -, -, -, allowed, target, ping⟩ := leaveDefault_pending leaves
  obtain ⟨best, hm, hid, hne, challenge, ahead⟩ := leaveDefault_best distinct leaves hc
  obtain rfl : best = x := List.inj_on_of_nodup_map distinct hm hx (hid.trans chosen)
  have hc' : (s.revise x').standing? s.default = some current :=
    (standing?_revise_of_ne (same ▸ hne.symm)).trans hc
  have challenges : best.challenge s.settings current ≠ none := by simp [challenge]
  obtain ⟨performance, challenge'⟩ := Option.ne_none_iff_exists'.mp
    (Standing.challenge_of_noBetter better (.refl current) challenges)
  have allowed' : allows x'.id = true := by rwa [same, hid, target]
  have hm' : x' ∈ (s.revise x').standings :=
    (standing?_eq_some (standing?_revise_self distinct hx same)).1
  have leaves' := leaveDefault_of_best hc' hm' (by simpa [same] using hne) challenge' allowed'
    fun other hother hne' different challenges' allows' => ?_
  · refine ⟨performance, leaves'.trans ?_⟩
    rw [same, hid, settings_revise, ← ping]
  · -- Every other slot stands as before, and no challenger with internet was ahead of the target.
    obtain ⟨y, hy, rfl⟩ := List.mem_map.mp hother
    rcases supersede_cases distinct hx same hy with ⟨-, revised⟩ | ⟨apart, kept⟩
    · exact absurd revised different
    · rw [kept] at hne' challenges' allows' ⊢
      refine Bool.eq_false_iff.mpr fun precedes => ?_
      have outranks := (Standing.precedes_iff_outranks apart).mp precedes
      exact ahead y hy hne' challenges' allows' (outranks.of_noBetter same better)

/-- A better default gives no cause to leave it, a better alternate takes none away, and the slot
that data would leave for remains the one when it becomes better. -/
theorem leaving_monotone (better : x.NoBetter x') (allows : Nat → Bool) :
    (x.id = s.default → (s.leaveDefault allows).decision = .noAction →
      ((s.revise x').leaveDefault allows).decision = .noAction) ∧
    (x.id ≠ s.default → ∀ p, (s.leaveDefault allows).decision = .pending p →
      ∃ p', ((s.revise x').leaveDefault allows).decision = .pending p') ∧
    ∀ p, (s.leaveDefault allows).decision = .pending p → p.target = x.id →
      ∃ performance,
        ((s.revise x').leaveDefault allows).decision = .pending { p with performance } := by
  refine ⟨fun hid idle => ?_, fun away p leaves => ?_, fun p leaves chosen => ?_⟩
  · exact keeps_of_better_default distinct hx same hid better idle
  · exact leaves_of_better_alternate distinct hx same away better leaves
  · exact target_of_better_target distinct hx same better leaves chosen

end Revision

/-- The default 0 and the alternate 1, which carries data, roam alike. -/
def abreast : Situation where
  settings := {}
  default := 0
  preferred := 1
  standings := [⟨0, .roaming, .roamingEnabled, 200⟩, ⟨1, .roaming, .roamingEnabled, 200⟩]

/-- Data goes back by the score. It still does when the default comes to be at home or the alternate
loses service, where no score decides any more. -/
theorem falling_back_monotone_abreast :
    abreast.returnToDefault true ⟨[]⟩ false = .pending ⟨0, true, true⟩ ∧
      (abreast.revise ⟨0, .home, .home, 200⟩).returnToDefault true ⟨[]⟩ false ≠ .noAction ∧
      (abreast.revise ⟨1, .unknown, .notUsable, 0⟩).returnToDefault true ⟨[]⟩ false ≠
        .noAction := by
  have back : abreast.returnToDefault true ⟨[]⟩ false = .pending ⟨0, true, true⟩ := by decide
  have goes : abreast.returnToDefault true ⟨[]⟩ false ≠ .noAction := by
    rw [back]
    decide
  have better : Standing.NoBetter ⟨0, .roaming, .roamingEnabled, 200⟩ ⟨0, .home, .home, 200⟩ :=
    ⟨by decide, by decide, by decide⟩
  have worse : Standing.NoBetter ⟨1, .unknown, .notUsable, 0⟩
      ⟨1, .roaming, .roamingEnabled, 200⟩ := ⟨by decide, by decide, by decide⟩
  have default : ⟨0, .roaming, .roamingEnabled, 200⟩ ∈ abreast.standings := by decide
  have current : ⟨1, .roaming, .roamingEnabled, 200⟩ ∈ abreast.standings := by decide
  refine ⟨back, ?_, ?_⟩
  · exact (falling_back_monotone (by decide) default (by rfl) (by decide) goes).1 rfl better
  · exact (falling_back_monotone (by decide) current (by rfl) (by decide) goes).2 rfl worse

/-- All roam; the alternate 2 is ahead of the default 0 by more than the tolerance, 1 is not. -/
def trailing : Situation where
  settings := {}
  default := 0
  preferred := 0
  standings := [⟨0, .roaming, .roamingEnabled, 200⟩, ⟨1, .roaming, .roamingEnabled, 250⟩,
    ⟨2, .roaming, .roamingEnabled, 400⟩]

/-- Once 1 is at home data still leaves the default, once 2 is at home it still leaves for 2, and
where 2 allows no internet a default that comes to be at home keeps data. -/
theorem leaving_monotone_trailing :
    (trailing.leaveDefault fun _ => true).decision = .pending ⟨2, true, true⟩ ∧
      (∃ p, ((trailing.revise ⟨1, .home, .home, 250⟩).leaveDefault fun _ => true).decision =
        .pending p) ∧
      (∃ performance, ((trailing.revise ⟨2, .home, .home, 400⟩).leaveDefault fun _ => true).decision
        = .pending ⟨2, performance, true⟩) ∧
      (trailing.leaveDefault (· != 2)).decision = .noAction ∧
      ((trailing.revise ⟨0, .home, .home, 200⟩).leaveDefault (· != 2)).decision = .noAction := by
  have leaves : (trailing.leaveDefault fun _ => true).decision = .pending ⟨2, true, true⟩ := by
    decide +kernel
  have keeps : (trailing.leaveDefault (· != 2)).decision = .noAction := by decide +kernel
  have risen : ∀ (id : Nat) (score : Int),
      Standing.NoBetter ⟨id, .roaming, .roamingEnabled, score⟩ ⟨id, .home, .home, score⟩ :=
    fun _ _ => ⟨Nat.le_succ 1, Nat.le_succ 1, Int.le_refl _⟩
  have default : ⟨0, .roaming, .roamingEnabled, 200⟩ ∈ trailing.standings := by decide
  have other : ⟨1, .roaming, .roamingEnabled, 250⟩ ∈ trailing.standings := by decide
  have target : ⟨2, .roaming, .roamingEnabled, 400⟩ ∈ trailing.standings := by decide
  have distinct : (trailing.standings.map (·.id)).Nodup := by decide
  refine ⟨leaves, ?_, ?_, keeps, ?_⟩
  · exact (leaving_monotone distinct other (by rfl) (risen 1 250) _).2.1 (by decide) _ leaves
  · exact (leaving_monotone distinct target (by rfl) (risen 2 400) _).2.2 _ leaves rfl
  · exact (leaving_monotone distinct default (by rfl) (risen 0 200) _).1 rfl keeps

end Situation

end ModemSelect
