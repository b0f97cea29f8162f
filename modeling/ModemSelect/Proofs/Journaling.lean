import ModemSelect.Proofs.Newest
import ModemSelect.Proofs.Run

namespace ModemSelect

namespace Journal

/-- The other journal comes of this one by further entries and nothing else. -/
def Extends (j j' : Journal) : Prop := ∃ made : List Entry, j' = made.foldl push j

namespace Extends

theorem refl (j : Journal) : j.Extends j := ⟨[], rfl⟩

theorem push (j : Journal) (entry : Entry) : j.Extends (j.push entry) := ⟨[entry], rfl⟩

theorem trans {j j' j'' : Journal} (first : j.Extends j') (later : j'.Extends j'') :
    j.Extends j'' := by
  obtain ⟨made, rfl⟩ := first
  obtain ⟨more, rfl⟩ := later
  exact ⟨made ++ more, List.foldl_append.symm⟩

end Extends

end Journal

namespace Engine

theorem extends_dropPending (e : Engine) (clock : Clock) :
    e.journal.Extends (e.dropPending clock).engine.journal := by
  unfold dropPending
  split
  · exact .push ..
  · exact .refl _

theorem extends_awaitStability (e : Engine) (clock : Clock) (reason : Reason) (p : Pending) :
    e.journal.Extends (e.awaitStability clock reason p).journal := by
  unfold awaitStability
  split
  · exact .refl _
  · dsimp only
    split
    · exact .refl _
    · exact .push ..

theorem extends_apply (e : Engine) (clock : Clock) (reason : Reason) (d : Decision) :
    e.journal.Extends (e.apply clock reason d).engine.journal := by
  cases d with
  | pending p => exact e.extends_awaitStability clock reason p
  | immediate target why => exact .push ..
  | noAction => exact e.extends_dropPending clock

theorem extends_evaluate (e : Engine) (m : Moment) (reason : Reason) :
    e.journal.Extends (e.evaluate m reason).engine.journal := by
  unfold evaluate
  split
  · exact .refl _
  · split
    · exact e.extends_dropPending m.clock
    · cases e.decide m.phones with
      | ok d => exact e.extends_apply m.clock reason d
      | error error => exact (Journal.Extends.push ..).trans (extends_apply ..)

theorem extends_passStability (e : Engine) (m : Moment) (p : Pending) :
    e.journal.Extends (e.passStability m p).engine.journal := by
  unfold passStability
  split <;> exact .push ..

theorem extends_deliver (e : Engine) (m : Moment) (note : TimerNote) :
    e.journal.Extends (e.deliver m note).engine.journal := by
  cases note with
  | evaluate reason => exact e.extends_evaluate m reason
  | stability p => exact e.extends_passStability m p

theorem extends_poll (e : Engine) (m : Moment) :
    e.journal.Extends (e.poll m).1.engine.journal := by
  have deliveries : ∀ (tray : List (TimerKey × TimerNote)) (e : Engine),
      e.journal.Extends
        (tray.foldl (fun e note => (e.deliver m note.2).engine) e).journal := by
    intro tray
    induction tray with
    | nil => exact fun e => .refl _
    | cons note rest ih => exact fun e => (e.extends_deliver m note.2).trans (ih _)
  rw [poll_engine]
  exact deliveries _ _

theorem extends_hear (e : Engine) (m : Moment) (id : Nat) (update : Update) :
    e.journal.Extends (e.hear m id update).done.engine.journal := by
  unfold hear
  split
  · exact .refl _
  · exact .push ..
  · dsimp only
    split
    · exact .refl _
    · split <;> exact .refl _

theorem extends_rereadRoaming (e : Engine) (phones : Readings) (id : Nat) :
    e.journal.Extends (e.rereadRoaming phones id).journal := by
  unfold rereadRoaming
  split
  · split
    · exact .refl _
    · split <;> exact .refl _
  · exact .refl _

theorem extends_setDefaultNetwork (e : Engine) (m : Moment) (network : Option DefaultNetwork) :
    e.journal.Extends (e.setDefaultNetwork m network).done.engine.journal := by
  unfold setDefaultNetwork
  dsimp only
  split
  · exact .refl _
  · exact .push ..

theorem extends_followActive (e : Engine) (m : Moment) :
    e.journal.Extends (e.followActive m).done.engine.journal := by
  unfold followActive
  dsimp only
  split
  · exact .refl _
  · exact .push ..

theorem extends_setSettings (e : Engine) (m : Moment) (settings : Settings) :
    e.journal.Extends (e.setSettings m settings).done.engine.journal := by
  unfold setSettings
  split
  · exact .push ..
  · exact (Journal.Extends.push ..).trans (extends_dropPending ..)

theorem extends_failValidation (e : Engine) (clock : Clock) :
    e.journal.Extends (e.failValidation clock).journal := by
  unfold failValidation
  dsimp only
  split <;> exact .push ..

theorem extends_takeUp (e : Engine) (m : Moment) (event : Event) :
    e.journal.Extends (e.takeUp m event).done.engine.journal := by
  cases event with
  | news id update => exact e.extends_hear m id update
  | dataSettingsChanged id => exact e.extends_rereadRoaming m.phones id
  | evaluationRequested reason => exact .refl _
  | defaultNetworkChanged network => exact e.extends_setDefaultNetwork m network
  | subscriptionsChanged => exact e.extends_followActive m
  | modemCountChanged count => exact .push ..
  | settingsChanged settings => exact e.extends_setSettings m settings
  | validationFailed => exact e.extends_failValidation m.clock
  | validationSucceeded => exact .push ..
  | cancelPendingSwitch => exact .push ..

theorem extends_act (e : Engine) (m : Moment) (a : Act) :
    e.journal.Extends (e.act m a).engine.journal := by
  cases a with
  | poll => exact e.extends_poll m
  | tell event =>
    change e.journal.Extends ((e.takeUp m event).complete m).engine.journal
    unfold Uptake.complete
    split
    · exact e.extends_takeUp m event
    · exact (e.extends_takeUp m event).trans (extends_evaluate ..)

theorem extends_afterActs (e : Engine) (acts : List (Moment × Act)) :
    e.journal.Extends (e.afterActs acts).journal := by
  induction acts generalizing e with
  | nil => exact .refl _
  | cons first rest ih => exact (e.extends_act first.1 first.2).trans (ih _)

end Engine

/-- The journal of a running engine is what further entries have made of a new one. -/
theorem Run.journal_eq_after (r : Run) :
    ∃ made, r.engine.journal = Journal.after Journal.standardCapacity made :=
  r.fresh.extends_afterActs r.acts

/-- A running engine that makes one more entry keeps all of the others for which there is room. -/
theorem Run.push_journal (r : Run) (entry : Entry) :
    r.engine.journal.push entry = {
      capacity := Journal.standardCapacity
      entries := r.engine.journal.entries.rtake (Journal.standardCapacity - 1) ++ [entry] } := by
  obtain ⟨made, journal⟩ := r.journal_eq_after
  have capacity : r.engine.journal.capacity = Journal.standardCapacity := by
    rw [journal, Journal.capacity_after]
    rfl
  have keeps : r.engine.journal.Keeps made := journal ▸ Journal.keeps_after _ made
  rw [keeps.push_eq, capacity]

end ModemSelect
