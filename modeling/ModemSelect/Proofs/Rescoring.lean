import ModemSelect.Proofs.Challengers
import ModemSelect.Proofs.Returns
import ModemSelect.Proofs.StandingsView

namespace ModemSelect

/-- Two standings that differ in their scores at most. -/
structure Standing.Alike (a b : Standing) : Prop where
  id : a.id = b.id
  state : a.state = b.state
  usable : a.usable = b.usable

/-- A challenge that no higher score makes does not hang on the scores. -/
theorem Standing.Alike.challenge {a b current current' : Standing} (ha : a.Alike b)
    (hc : current.Alike current') {settings : Settings}
    (low : settings.comparesScores = true → b.outscores settings current' = false)
    (h : b.challenge settings current' ≠ none) : a.challenge settings current ≠ none := by
  rw [ne_eq, challenge_eq_none_iff] at h ⊢
  rw [ha.usable, ha.state, hc.usable, hc.state]
  grind

/-- A return that the default's score does not win does not hang on the scores. -/
theorem Situation.weighReturn_of_alike {s s' : Situation}
    {default default' current current' : Standing} (settings : s'.settings = s.settings)
    (hd : default.Alike default') (hc : current.Alike current')
    (low : s.settings.comparesScores = true → defaultRegains default' current' = false)
    (h : s.weighReturn default current = .noAction) :
    s'.weighReturn default' current' = .noAction := by
  rw [weighReturn_eq_noAction_iff] at h ⊢
  rw [hd.usable, hd.state, hc.usable, hc.state] at h
  rw [settings]
  grind

/-- The two situations differ in the scores of the slots at most. -/
structure Situation.Rescored (s s' : Situation) : Prop where
  settings : s'.settings = s.settings
  default : s'.default = s.default
  preferred : s'.preferred = s.preferred
  standing? : ∀ {id x'}, s'.standing? id = some x' → ∃ x, s.standing? id = some x ∧ x.Alike x'
  mem_standings : ∀ {x'}, x' ∈ s'.standings → ∃ x ∈ s.standings, x.Alike x'

namespace Situation.Rescored

variable {s s' : Situation} (h : s.Rescored s')
include h

/-- The default goes on keeping data while no slot is ahead of it by more than the tolerance. -/
theorem leaveDefault {allows : Nat → Bool}
    (low : s.settings.comparesScores = true → ∀ current, s'.standing? s'.default = some current →
      ∀ other ∈ s'.standings, other.id ≠ s'.default → other.outscores s.settings current = false)
    (before : (s.leaveDefault allows).decision = .noAction) :
    (s'.leaveDefault allows).decision = .noAction := by
  cases hc' : s'.standing? s'.default with
  | none => rw [Situation.leaveDefault, hc']
  | some current' =>
    obtain ⟨current, hc, alike⟩ := h.standing? hc'
    rw [h.default] at hc
    rw [leaveDefault_noAction_iff hc] at before
    rw [leaveDefault_noAction_iff hc', h.settings]
    intro candidate' hm' hne challenge'
    obtain ⟨candidate, hm, alike'⟩ := h.mem_standings hm'
    have behind := fun compares => low compares current' hc' candidate' hm' hne
    rw [← alike'.id, h.default] at hne
    rw [← alike'.id]
    exact before candidate hm hne (alike'.challenge alike behind challenge')

/-- Data stays on the alternate while the default scores less than it. -/
theorem returnToDefault {userData bypassed : Bool} {verdict : Verdict}
    (low : s.settings.comparesScores = true → ∀ d c, s'.standing? s'.default = some d →
      s'.standing? s'.preferred = some c → defaultRegains d c = false)
    (before : s.returnToDefault userData verdict bypassed = .noAction) :
    s'.returnToDefault userData verdict bypassed = .noAction := by
  refine returnToDefault_of_weighReturn h.settings (fun d' c' hd' hc' => ?_) before
  obtain ⟨d, hd, ad⟩ := h.standing? hd'
  obtain ⟨c, hc, ac⟩ := h.standing? hc'
  rw [h.default] at hd
  rw [h.preferred] at hc
  refine ⟨d, c, hd, hc, weighReturn_of_alike h.settings ad ac fun compares => ?_⟩
  exact low compares d' c' hd' hc'

end Situation.Rescored

/-- What is known of a modem but for what its score is made of. -/
def Snapshot.service (s : Snapshot) : Registration × Bool := (s.registration, s.roamingData)

theorem Snapshot.service_learn {s : Snapshot} {news : Update} (h : news.onlyScore = true) :
    (s.learn news).service = s.service := by
  unfold learn
  split
  next => rfl
  next =>
    cases news with
    | display => rfl
    | signal => rfl
    | registration => cases h
    | roamingData => cases h

theorem Modem.standing_alike {m n : Modem} (id : m.id = n.id)
    (service : m.known.service = n.known.service) (features : Features) (scorer : Scorer) :
    (m.standing features scorer).Alike (n.standing features scorer) := by
  obtain ⟨registration, roamingData⟩ := Prod.mk.inj service
  refine ⟨id, congrArg Registration.state registration, ?_⟩
  simp only [Modem.standing, Snapshot.usability, registration, roamingData]

namespace SlotTable

/-- The two tables follow the same modems in the same service. -/
def Rescored (s t : SlotTable) : Prop :=
  ∀ id, (s.modem? id).map (·.known.service) = (t.modem? id).map (·.known.service)

theorem rescored_learn {t t' : SlotTable} {id : Nat} {news : Update} {isNews : Bool}
    (h : t.learn id news = .ok (t', isNews)) (score : news.onlyScore = true) : t.Rescored t' := by
  intro k
  rw [modem?_learn h]
  split
  next he =>
    subst he
    rw [Option.map_map]
    exact congrArg (Option.map · _) (funext fun m => (Snapshot.service_learn score).symm)
  next => rfl

namespace Rescored

variable {s t : SlotTable} (h : s.Rescored t) {features : Features} {scorer : Scorer}
include h

theorem isTracked (id : Nat) : s.isTracked id = t.isTracked id := by
  have same := congrArg Option.isSome (h id)
  simpa [SlotTable.isTracked] using same

theorem find?_standings {id : Nat} {x : Standing}
    (hx : (t.standings features scorer).find? (·.id == id) = some x) :
    ∃ y, (s.standings features scorer).find? (·.id == id) = some y ∧ y.Alike x := by
  obtain ⟨n, hn, rfl⟩ := SlotTable.find?_standings.mp hx
  have same := h id
  rw [hn, Option.map_some, Option.map_eq_some_iff] at same
  obtain ⟨m, hm, service⟩ := same
  exact ⟨_, SlotTable.find?_standings.mpr ⟨m, hm, rfl⟩,
    Modem.standing_alike ((id_of_modem? hm).trans (id_of_modem? hn).symm) service features scorer⟩

theorem mem_standings {x : Standing} (hx : x ∈ t.standings features scorer) :
    ∃ y ∈ s.standings features scorer, y.Alike x := by
  obtain ⟨y, hy, alike⟩ :=
    h.find?_standings (SlotTable.find?_standings.mpr (SlotTable.mem_standings.mp hx))
  exact ⟨y, List.mem_of_find?_eq_some hy, alike⟩

end Rescored

end SlotTable

end ModemSelect
