import ModemSelect.Proofs.Improvement
import ModemSelect.Proofs.Settling

namespace ModemSelect

namespace Standing

variable {candidate current : Standing}

/-- A slot that is in no way better than the default is no challenge to it. -/
theorem challenge_eq_none_of_noBetter (h : candidate.NoBetter current) (settings : Settings) :
    candidate.challenge settings current = none := by
  have behind : settings.comparesScores = true → candidate.outscores settings current = false := by
    intro compares
    have low := h.score
    by_contra ahead
    have high := score_lt_of_outscores compares (Bool.not_eq_false _ ▸ ahead)
    omega
  rw [challenge_eq_none_iff]
  split
  next => exact ⟨h.rank, fun compares _ _ => behind compares⟩
  next =>
    intro home
    split
    next compares => exact behind compares
    next => exact h.home home

/-- The slots are alike in service, rank and score. -/
structure Ties (a b : Standing) : Prop where
  state : a.state = b.state
  rank : a.usable.rank = b.usable.rank
  score : a.score = b.score

theorem Ties.noBetter {a b : Standing} (h : a.Ties b) : a.NoBetter b where
  service := Nat.le_of_eq (congrArg ServiceState.grade h.state)
  rank := Nat.le_of_eq h.rank
  score := Int.le_of_eq h.score

end Standing

namespace Situation

variable {s : Situation} {default current : Standing}

theorem weighReturn_ne_noAction_of_noBetter (h : current.NoBetter default) :
    s.weighReturn default current ≠ .noAction := by
  have regains : defaultRegains default current = true := by
    simpa only [defaultRegains, decide_eq_true_eq] using h.score
  intro idle
  rw [weighReturn_eq_noAction_iff] at idle
  split at idle
  next roaming =>
    have rank := h.rank
    rcases idle with behind | ⟨-, -, -, behind⟩
    · omega
    · rw [regains] at behind
      cases behind
  next roaming =>
    obtain ⟨home, behind⟩ := idle
    have home' := h.home home
    split at behind
    next compares =>
      have served : default.state.isInService = true := by simp [home', ServiceState.isInService]
      rw [behind served] at regains
      cases regains
    next compares => exact behind home'

/-- While no slot is in any way better than the default, none is even asked. -/
theorem leaveDefault_of_noBetter (hc : s.standing? s.default = some default)
    (h : ∀ x ∈ s.standings, x.id ≠ s.default → x.NoBetter default) (allows : Nat → Bool) :
    s.leaveDefault allows = ⟨.noAction, []⟩ := by
  have unchallenged : s.challengers default = [] := by
    refine List.eq_nil_iff_forall_not_mem.mpr fun entry hm => ?_
    obtain ⟨hx, hne, challenge⟩ := mem_challengers.mp hm
    rw [(standing?_eq_some hc).2] at hne
    rw [Standing.challenge_eq_none_of_noBetter (h entry.1 hx hne)] at challenge
    cases challenge
  simp only [leaveDefault, hc, unchallenged, firstAllowed]

/-- From an alternate that is in no way better than the default data goes back. -/
theorem returnToDefault_ne_noAction_of_noBetter (hd : s.standing? s.default = some default)
    (hc : s.standing? s.preferred = some current) (h : current.NoBetter default)
    (userData : Bool) (verdict : Verdict) (bypassed : Bool) :
    s.returnToDefault userData verdict bypassed ≠ .noAction := by
  intro idle
  obtain ⟨-, -, stays⟩ := returnToDefault_eq_noAction_iff.mp idle
  exact weighReturn_ne_noAction_of_noBetter h (stays default current hd hc).2

/-- Exact ties go to the default: it keeps data from slots that tie with it, without asking any, and
takes data back from one that does, whatever else holds. -/
theorem ties_go_to_default (distinct : (s.standings.map (·.id)).Nodup)
    (hm : default ∈ s.standings) (hid : default.id = s.default) :
    ((∀ x ∈ s.standings, x.id ≠ s.default → x.Ties default) →
      ∀ allows, s.leaveDefault allows = ⟨.noAction, []⟩) ∧
    ∀ current ∈ s.standings, current.id = s.preferred → current.Ties default →
      ∀ userData verdict bypassed,
        (s.returnToDefault userData verdict bypassed).target? = some s.default := by
  have hd := (standing?_eq_some_iff distinct).mpr ⟨hm, hid⟩
  constructor
  · intro ties allows
    exact leaveDefault_of_noBetter hd (fun x hx hne => (ties x hx hne).noBetter) allows
  · intro current hx hp ties userData verdict bypassed
    have hc := (standing?_eq_some_iff distinct).mpr ⟨hx, hp⟩
    apply target?_returnToDefault
    exact returnToDefault_ne_noAction_of_noBetter hd hc ties.noBetter userData verdict bypassed

/-- All slots roam alike, the default 0 by satellite, and data is on 2. -/
def deadlocked : Situation where
  settings := { tolerance := 0 }
  default := 0
  preferred := 2
  standings := [⟨2, .roaming, .roamingEnabled, 300⟩, ⟨0, .roaming, .nonTerrestrial, 300⟩,
    ⟨1, .roaming, .roamingEnabled, 300⟩]

theorem ties_go_to_default_satellite :
    (∀ x ∈ deadlocked.standings, x.id ≠ 0 → x.Ties ⟨0, .roaming, .nonTerrestrial, 300⟩) ∧
      deadlocked.leaveDefault (fun _ => true) = ⟨.noAction, []⟩ ∧
      (deadlocked.returnToDefault true ⟨[.notInService]⟩ false).target? = some 0 := by
  have default : ⟨0, .roaming, .nonTerrestrial, 300⟩ ∈ deadlocked.standings := by decide
  have current : ⟨2, .roaming, .roamingEnabled, 300⟩ ∈ deadlocked.standings := by decide
  have ties : ∀ x ∈ deadlocked.standings, x.id ≠ 0 →
      x.Ties ⟨0, .roaming, .nonTerrestrial, 300⟩ := by
    intro x hx hne
    simp only [deadlocked, List.mem_cons, List.not_mem_nil, or_false] at hx
    rcases hx with rfl | rfl | rfl
    · exact ⟨rfl, rfl, rfl⟩
    · exact absurd rfl hne
    · exact ⟨rfl, rfl, rfl⟩
  obtain ⟨keeps, back⟩ := ties_go_to_default (by decide) default rfl
  exact ⟨ties, keeps ties _, back _ current rfl (ties _ current (by decide)) true _ false⟩

end Situation

end ModemSelect
