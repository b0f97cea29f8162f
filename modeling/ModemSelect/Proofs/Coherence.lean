import ModemSelect.Proofs.Mirroring

namespace ModemSelect

theorem Handset.listenAll_kept (h : Handset) (requests : List Listening) :
    (h.listenAll requests).phones = h.phones ∧ (h.listenAll requests).active = h.active := by
  induction requests generalizing h with
  | nil => exact ⟨rfl, rfl⟩
  | cons request rest ih =>
    have first : (h.listen request).phones = h.phones ∧ (h.listen request).active = h.active := by
      cases request <;> exact ⟨rfl, rfl⟩
    obtain ⟨phones, active⟩ := ih (h.listen request)
    exact ⟨phones.trans first.1, active.trans first.2⟩

theorem SlotTable.Mirrors.of_kept {t : SlotTable} {h h' : Handset} (mirrors : t.Mirrors h)
    (phones : h'.phones = h.phones) (active : h'.active = h.active) : t.Mirrors h' := by
  have phone : ∀ id, h'.phone? id = h.phone? id := fun id => by
    rw [Handset.phone?, Handset.phone?, phones]
  refine ⟨⟨?_, fun id m hm => ?_⟩, fun id => ?_⟩
  · rw [Handset.slotCount, phones]
    exact mirrors.count
  · rw [phone]
    exact mirrors.known id m hm
  · rw [phone, active]
    exact mirrors.tracked id

namespace Player

def Mirrored (p : Player) : Prop := p.rig.engine.slots.Mirrors p.rig.handset

theorem mirrored_start (s : Scenario) (settings : Settings) : (start s settings).Mirrored := by
  have count : s.slots = s.handset.slotCount := by
    have inserts : ∀ (plans : List PhonePlan) (h : Handset),
        (plans.foldl (fun h p => h.insert p.slot p.phone) h).slotCount = h.slotCount := by
      intro plans
      induction plans with
      | nil => exact fun _ => rfl
      | cons plan rest ih => exact fun h => (ih _).trans (SlotMap.count_set ..)
    exact (inserts s.phones (.ofCount s.slots)).symm
  obtain ⟨phones, active⟩ := s.handset.listenAll_kept
    ((SlotTable.ofCount s.slots).follow s.handset.active s.handset.readings).requests
  refine SlotTable.Mirrors.of_kept (h := s.handset) ?_ phones active
  have fresh := SlotTable.mirrors_ofCount s.handset
  rw [← count] at fresh
  exact fresh

namespace Mirrored

section Kept

variable {p : Player} (mirrored : p.Mirrored)
include mirrored

theorem obeyAll (directives : List Directive) : (p.obeyAll directives).Mirrored := by
  have obey : ∀ (p : Player) (d : Directive), p.Mirrored → (p.obey d).Mirrored := by
    intro p d mirrored
    cases d with
    | validationRequired target needs =>
      cases needs with
      | true => exact mirrored
      | false => exact SlotTable.Mirrors.of_kept mirrored rfl rfl
    | immediateSwitch target why trigger => exact SlotTable.Mirrors.of_kept mirrored rfl rfl
    | cancelPendingValidation => exact mirrored
  exact obeyAll_kept obey mirrored directives

theorem poll : p.poll.Mirrored := by
  refine obeyAll (p := { p with rig := p.rig.poll.1 }) ?_ _
  obtain ⟨phones, active⟩ := p.rig.handset.listenAll_kept
    (p.rig.engine.poll p.rig.moment).1.requests
  have slots := p.rig.engine.slots_poll p.rig.moment
  change (p.rig.engine.poll p.rig.moment).1.engine.slots.Mirrors _
  rw [slots]
  exact SlotTable.Mirrors.of_kept mirrored phones active

theorem advanceTo (time : Nat) : (p.advanceTo time).Mirrored :=
  advanceTo_kept (fun p ms mirrored => poll (p := p.advance ms) mirrored) mirrored time

end Kept

theorem send {p : Player} {event : Event}
    (revised : (event.revise p.rig.engine.slots p.rig.handset.readings).table.Mirrors
      p.rig.handset) : (p.send event).Mirrored := by
  refine obeyAll (p := { p with rig := (p.rig.handle event).1 }) ?_ _
  have slots := p.rig.engine.slots_handle p.rig.moment event
  obtain ⟨phones, active⟩ := p.rig.handset.listenAll_kept
    (p.rig.engine.handle p.rig.moment event).requests
  change (p.rig.engine.handle p.rig.moment event).engine.slots.Mirrors _
  rw [slots]
  exact revised.of_kept phones active

theorem perform {p : Player} (mirrored : p.Mirrored) (action : Action) :
    (p.perform action).Mirrored := by
  cases action with
  | registration slot state satellite =>
    refine send ?_
    change (SlotTable.learned _ _ _).Mirrors
      ((p.rig.handset.setState slot state).setSatellite slot satellite)
    rw [Handset.setState, Handset.setSatellite, Handset.modify_modify]
    exact mirrored.learned fun _ _ => rfl
  | signal slot level => exact send (SlotTable.Mirrors.learned mirrored fun _ _ => rfl)
  | display slot display => exact send (SlotTable.Mirrors.learned mirrored fun _ _ => rfl)
  | userData slot enabled => exact send (SlotTable.Mirrors.reread mirrored fun _ => rfl)
  | roamingData slot enabled => exact send (SlotTable.Mirrors.reread mirrored fun _ => rfl)
  | restrict slot reasons => exact send (SlotTable.Mirrors.reread mirrored fun _ => rfl)
  | subscriptions active =>
    exact send (SlotTable.mirrors_follow (h := p.rig.handset.setActive active)
      ⟨mirrored.count, mirrored.known⟩)
  | modemCount count =>
    exact send (SlotTable.mirrors_followResized mirrored.toTruthful count)
  | defaultCandidate slot =>
    exact send (SlotTable.mirrors_follow (h := p.rig.handset.setDefault slot)
      ⟨mirrored.count, mirrored.known⟩)
  | defaultNetwork transports hasInternet => exact send mirrored
  | validation result =>
    cases result with
    | failed => exact send mirrored
    | passed =>
      refine send ?_
      cases p.awaiting with
      | none => exact mirrored
      | some target => exact SlotTable.Mirrors.of_kept mirrored rfl rfl
  | evaluate => exact send mirrored
  | cancel => exact send mirrored
  | suspend ms => exact poll (p := p.suspend ms) mirrored

end Mirrored

theorem Reachable.mirrored {p : Player} (reach : p.Reachable) : p.Mirrored := by
  induction reach with
  | start s settings => exact mirrored_start s settings
  | advanced _ time ih => exact ih.advanceTo time
  | performed _ action ih => exact ih.perform action

end Player

/-- At every point of a scenario the engine knows of the phones what they say: it has a slot for
each of theirs, follows the active ones with a phone while there are two active ones, and ranks
them like an engine that is started now. -/
theorem known_eq_phones {p : Player} (reach : p.Reachable) :
    let e := p.rig.engine
    let h := p.rig.handset
    e.slots.count = h.slotCount ∧
      (∀ id, e.slots.isTracked id = true ↔
        2 ≤ h.active.size ∧ id ∈ h.active ∧ (h.phone? id).isSome = true) ∧
      (∀ id m, e.slots.modem? id = some m → ∃ phone, h.phone? id = some phone ∧
        m.known.registration = phone.registration ∧ m.known.display = phone.display ∧
        m.known.signal.level = phone.signal.level ∧ m.known.roamingData = phone.roamingData) ∧
      e.standings =
        (Engine.start e.settings e.scorer h.slotCount h.readings).engine.standings := by
  intro e h
  have mirrored : e.slots.Mirrors h := reach.mirrored
  refine ⟨mirrored.count, mirrored.tracked, fun id m hm => ?_, ?_⟩
  · obtain ⟨phone, backs, same⟩ := mirrored.known id m hm
    exact ⟨phone, backs, same.registration, same.display, same.level, same.roamingData⟩
  · exact mirrored.standings_eq (SlotTable.mirrors_ofCount h) _ _

/-- The last phone is lost with its slot and does not come back with it, and another one goes
roaming in between. -/
def Scenario.regrown : Scenario where
  slots := 3
  default := some 0
  active := [0, 1, 2]
  phones := [{ slot := 0 }, { slot := 1 }, { slot := 2 }]
  steps := [
    { time := 1000, action := .modemCount 2 },
    { time := 2000, action := .registration 1 .roaming false },
    { time := 3000, action := .modemCount 3 }]

theorem known_eq_phones_regrown :
    let p := Player.run .regrown {}
    let e := p.rig.engine
    p.Reachable ∧ e.slots.count = 3 ∧ e.slots.isTracked 2 = false ∧
      (e.slots.modem? 1).map (·.known.registration.state) = some .roaming ∧
      e.standings =
        (Engine.start e.settings e.scorer 3 p.rig.handset.readings).engine.standings := by
  intro p e
  have reach : p.Reachable := Player.reachable_run .regrown {}
  have ordered : Scenario.regrown.orderedSteps = Scenario.regrown.steps :=
    List.mergeSort_of_pairwise (by decide)
  have played : p = Scenario.regrown.steps.foldl Player.play (.start .regrown {}) := by
    change Player.run .regrown {} = _
    rw [Player.run, ordered]
    rfl
  have slots : p.rig.handset.slotCount = 3 := by
    rw [played]
    decide +kernel
  have lost : p.rig.handset.phone? 2 = none := by
    rw [played]
    decide +kernel
  have roaming : (p.rig.handset.phone? 1).map (·.registration.state) = some .roaming := by
    rw [played]
    decide +kernel
  have choice : 2 ≤ p.rig.handset.active.size ∧ 1 ∈ p.rig.handset.active := by
    rw [played]
    decide +kernel
  obtain ⟨count, tracked, known, standings⟩ := known_eq_phones reach
  obtain ⟨phone, backs, state⟩ := Option.map_eq_some_iff.mp roaming
  have follows := (tracked 1).mpr ⟨choice.1, choice.2, by simp [backs]⟩
  obtain ⟨m, hm⟩ := SlotTable.isTracked_iff.mp follows
  obtain ⟨phone', backs', registration, -⟩ := known 1 m hm
  rw [backs] at backs'
  cases backs'
  refine ⟨reach, count.trans slots, ?_, ?_, slots ▸ standings⟩
  · rw [Bool.eq_false_iff]
    intro follows
    have phone := ((tracked 2).mp follows).2.2
    simp [lost] at phone
  · rw [hm, Option.map_some, registration, state]

end ModemSelect
