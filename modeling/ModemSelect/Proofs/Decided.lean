import ModemSelect.Engine.Evaluation
import ModemSelect.Slots.SlotView

namespace ModemSelect

/-- Whether internet is allowed on a slot while no other network is up. -/
def Readings.allows (phones : Readings) (id : Nat) : Bool :=
  ((phones.internet id true).map (·.allowed)).getD false

namespace Engine

/-- How the policy comes to its decision: the slots it concerns are followed and can be read. -/
inductive Decided (e : Engine) (phones : Readings) : Decision → Prop where
  | leaving {default : Nat} (designated : phones.defaultSlot = some default)
      (followed : e.slots.isTracked default = true) (carries : phones.carrier default = default) :
      Decided e phones ((e.situation default default).leaveDefault phones.allows).decision
  | returning {default carrier : Nat} {userData : Bool} {verdict : Verdict}
      (designated : phones.defaultSlot = some default)
      (followed : e.slots.isTracked default = true) (carries : phones.carrier default = carrier)
      (away : carrier ≠ default) (carrierFollowed : e.slots.isTracked carrier = true)
      (userData_eq : phones.userData default = some userData)
      (verdict_eq : phones.internet carrier false = some verdict) :
      Decided e phones
        ((e.situation default carrier).returnToDefault userData verdict e.bypassed)

theorem decide_eq_ok {e : Engine} {phones : Readings} {d : Decision} :
    e.decide phones = .ok d ↔ e.Decided phones d := by
  have got : ∀ id, e.slots.isTracked id = true ↔ ∃ m, e.slots.get id = .ok m := by
    intro id
    simp only [SlotTable.isTracked_iff, SlotTable.get_eq_ok_iff]
  constructor
  · intro h
    unfold decide at h
    split at h
    next default designated =>
      cases hd : e.slots.get default with
      | error error =>
        rw [hd] at h
        cases h
      | ok m =>
        rw [hd] at h
        have followed := (got default).mpr ⟨m, hd⟩
        change (if phones.carrier default = default then _ else _) = _ at h
        split at h
        next carries =>
          cases h
          exact .leaving designated followed carries
        next away =>
          cases hc : e.slots.get (phones.carrier default) with
          | error error =>
            rw [hc] at h
            cases h
          | ok m' =>
            rw [hc] at h
            have carrierFollowed := (got (phones.carrier default)).mpr ⟨m', hc⟩
            split at h
            next userData hu =>
              split at h
              next verdict hv =>
                cases h
                exact .returning designated followed rfl away carrierFollowed hu hv
              next => cases h
            next => cases h
    next => cases h
  · intro h
    cases h with
    | leaving designated followed carries =>
      obtain ⟨m, hm⟩ := (got _).mp followed
      simp only [decide, designated, hm, carries]
      rfl
    | returning designated followed carries away carrierFollowed hu hv =>
      obtain ⟨m, hm⟩ := (got _).mp followed
      obtain ⟨m', hm'⟩ := (got _).mp carrierFollowed
      simp only [decide, designated, hm, carries, hm', hu, hv]
      exact if_neg away

end Engine

end ModemSelect
