import ModemSelect.Proofs.Challengers
import ModemSelect.Proofs.Lists
import ModemSelect.Proofs.Returns

namespace ModemSelect

/-- Whatever is worth leaving the default for, the default does not take data back from. -/
theorem Situation.weighReturn_of_challenge {s : Situation} {default candidate : Standing}
    (h : candidate.challenge s.settings default ≠ none) :
    s.weighReturn default candidate = .noAction := by
  have outscored : s.settings.comparesScores = true →
      candidate.outscores s.settings default = true → defaultRegains default candidate = false := by
    intro compares outscores
    have lower := Standing.score_lt_of_outscores compares outscores
    simp only [defaultRegains, decide_eq_false_iff_not]
    omega
  rw [ne_eq, Standing.challenge_eq_none_iff] at h
  rw [weighReturn_eq_noAction_iff]
  split at h
  next roaming =>
    rw [if_pos roaming]
    by_cases higher : default.usable.rank < candidate.usable.rank
    · exact Or.inl higher
    · simp only [Nat.not_lt.mp higher, true_and, Classical.not_imp, Bool.not_eq_false] at h
      obtain ⟨compares, level, usable, outscores⟩ := h
      exact Or.inr ⟨level.symm, usable, compares, outscored compares outscores⟩
  next roaming =>
    obtain ⟨home, h⟩ := Classical.not_imp.mp h
    rw [if_neg roaming]
    refine ⟨home, ?_⟩
    split at h
    next compares =>
      rw [if_pos compares]
      exact fun _ => outscored compares (Bool.not_eq_false _ ▸ h)
    next compares =>
      rw [if_neg compares]
      exact h

/-- The slot that data moves to by a decision. -/
def Decision.target? : Decision → Option Nat
  | .pending p => some p.target
  | .immediate target _ => some target
  | .noAction => none

/-- Whatever ends the stay on an alternate, data goes back to the default. -/
theorem Situation.target?_returnToDefault (s : Situation) {userData bypassed : Bool}
    {verdict : Verdict} (h : s.returnToDefault userData verdict bypassed ≠ .noAction) :
    (s.returnToDefault userData verdict bypassed).target? = some s.default := by
  rcases s.returnToDefault_cases userData verdict bypassed with
    quiet | ⟨why, urgent⟩ | ⟨performance, needs, back⟩
  · exact absurd quiet h
  · rw [urgent]
    rfl
  · rw [back]
    rfl

/-- A world that stands still: how the slots stand, the default among them, and what is refused on
each. User data is on on the default and no other network bypasses the modems. -/
structure StillWorld where
  settings : Settings
  default : Nat
  standings : List Standing
  verdict : Nat → Verdict
  distinct : (standings.map (·.id)).Nodup
  present : default ∈ standings.map (·.id)

namespace StillWorld

def situation (w : StillWorld) (carrier : Nat) : Situation where
  settings := w.settings
  default := w.default
  preferred := carrier
  standings := w.standings

/-- The decision while the default carries data. -/
def leaving (w : StillWorld) : Decision :=
  ((w.situation w.default).leaveDefault fun id => (w.verdict id).allowed).decision

/-- The decision while an alternate carries data. -/
def returning (w : StillWorld) (carrier : Nat) : Decision :=
  (w.situation carrier).returnToDefault true (w.verdict carrier) false

def decision (w : StillWorld) (carrier : Nat) : Decision :=
  if carrier = w.default then w.leaving else w.returning carrier

/-- Data that starts on the carrier moves along the trail, to the target of each decision in turn,
and then there is nothing more to decide. -/
inductive Settles (w : StillWorld) : Nat → List Nat → Prop where
  | rest {carrier : Nat} (decides : w.decision carrier = .noAction) : Settles w carrier []
  | move {carrier target : Nat} {trail : List Nat}
      (decides : (w.decision carrier).target? = some target) (later : Settles w target trail) :
      Settles w carrier (target :: trail)

variable {w : StillWorld}

theorem Settles.unique {carrier : Nat} {trail trail' : List Nat} (h : w.Settles carrier trail)
    (h' : w.Settles carrier trail') : trail = trail' := by
  induction h generalizing trail' with
  | rest decides =>
    cases h' with
    | rest => rfl
    | move decides' =>
      rw [decides] at decides'
      cases decides'
  | move decides later ih =>
    cases h' with
    | rest decides' =>
      rw [decides'] at decides
      cases decides
    | move decides' later' =>
      rw [decides] at decides'
      cases decides'
      rw [ih later']

theorem standing?_of_mem {x : Standing} (h : x ∈ w.standings) (carrier : Nat) :
    (w.situation carrier).standing? x.id = some x :=
  (find?_key_eq_some w.distinct).mpr ⟨h, rfl⟩

theorem returning_of_leaving {p : Pending} (h : w.leaving = .pending p) :
    p.target ≠ w.default ∧ w.returning p.target = .noAction := by
  obtain ⟨default, candidate, hd, hm, hne, challenge, allowed, target, -⟩ :=
    Situation.leaveDefault_pending h
  have unrefused : (w.verdict candidate.id).onlyFor .notInService = true := by
    have none : (w.verdict candidate.id).refusals = [] := List.isEmpty_iff.mp allowed
    simp [Verdict.onlyFor, none]
  have compared : w.returning candidate.id =
      (w.situation candidate.id).weighReturn default candidate :=
    Situation.returnToDefault_of_undisturbed unrefused hd (standing?_of_mem hm _)
  rw [target]
  have challenges := Option.ne_none_iff_exists'.mpr ⟨_, challenge⟩
  exact ⟨hne, compared.trans (Situation.weighReturn_of_challenge challenges)⟩

theorem target?_returning {carrier target : Nat}
    (h : (w.returning carrier).target? = some target) : target = w.default := by
  have goes : w.returning carrier ≠ .noAction := by
    intro quiet
    rw [quiet] at h
    cases h
  have back : (w.returning carrier).target? = some w.default :=
    (w.situation carrier).target?_returnToDefault goes
  rw [h] at back
  exact Option.some.inj back

theorem settles_default (w : StillWorld) :
    ∃ trail, w.Settles w.default trail ∧ trail.length ≤ 1 := by
  have here : w.decision w.default = w.leaving := if_pos rfl
  cases hl : w.leaving with
  | noAction => exact ⟨[], .rest (here.trans hl), by simp⟩
  | immediate target why => exact absurd hl (Situation.leaveDefault_ne_immediate _ _ target why)
  | pending p =>
    obtain ⟨hne, stays⟩ := returning_of_leaving hl
    have moves : (w.decision w.default).target? = some p.target := by rw [here, hl]; rfl
    have rests : w.decision p.target = .noAction := (if_neg hne).trans stays
    exact ⟨[p.target], .move moves (.rest rests), by simp⟩

/-- Once data has left the default for a slot the default does not take it back, and wherever data
is it moves twice at most before nothing more is decided. -/
theorem settles_within_two (w : StillWorld) :
    (∀ p, w.leaving = .pending p → w.returning p.target = .noAction) ∧
    ∀ carrier ∈ w.standings.map (·.id),
      (∃ trail, w.Settles carrier trail) ∧ ∀ trail, w.Settles carrier trail → trail.length ≤ 2 := by
  refine ⟨fun p h => (returning_of_leaving h).2, fun carrier _ => ?_⟩
  have short : ∃ trail, w.Settles carrier trail ∧ trail.length ≤ 2 := by
    obtain ⟨trail, settles, length⟩ := w.settles_default
    by_cases hc : carrier = w.default
    · exact ⟨trail, hc ▸ settles, by omega⟩
    · have there : w.decision carrier = w.returning carrier := if_neg hc
      cases ht : (w.returning carrier).target? with
      | none =>
        have rests : w.decision carrier = .noAction := by
          cases hr : w.returning carrier with
          | noAction => exact there.trans hr
          | pending => simp [hr, Decision.target?] at ht
          | immediate => simp [hr, Decision.target?] at ht
        exact ⟨[], .rest rests, by simp⟩
      | some target =>
        have moves : (w.decision carrier).target? = some target := by rw [there, ht]
        rw [← target?_returning ht] at settles
        exact ⟨target :: trail, .move moves settles, by simpa using length⟩
  obtain ⟨trail, settles, length⟩ := short
  exact ⟨⟨trail, settles⟩, fun trail' settles' => settles.unique settles' ▸ length⟩

/-- The default roams, the alternate 1 is at home and the alternate 2, where data is, has lost
service. -/
def lost : StillWorld where
  settings := {}
  default := 0
  standings := [⟨0, .roaming, .roamingEnabled, 200⟩, ⟨1, .home, .home, 100⟩,
    ⟨2, .outOfService, .notUsable, 0⟩]
  verdict id := ⟨if id = 2 then [.notInService] else []⟩
  distinct := by decide
  present := by decide

/-- Two moves do happen. -/
theorem settles_within_two_lost :
    lost.leaving = .pending ⟨1, false, true⟩ ∧ lost.returning 1 = .noAction ∧
      lost.Settles 2 [0, 1] ∧ ∀ trail, lost.Settles 2 trail → trail.length ≤ 2 := by
  have leaves : lost.leaving = .pending ⟨1, false, true⟩ := by decide +kernel
  obtain ⟨stays, settles⟩ := settles_within_two lost
  have rests : lost.returning 1 = .noAction := stays _ leaves
  have back : (lost.decision 2).target? = some 0 := by decide +kernel
  have forth : (lost.decision 0).target? = some 1 := congrArg Decision.target? leaves
  exact ⟨leaves, rests, .move back (.move forth (.rest rests)), (settles 2 (by decide)).2⟩

end StillWorld

end ModemSelect
