import ModemSelect.Proofs.Course
import ModemSelect.Slots.SlotView

namespace ModemSelect

/-- The modem that a slot reads, none where no phone backs it. -/
def Readings.modem? (phones : Readings) (id : Nat) : Option Modem :=
  (phones.snapshot id).toOption.map (Modem.mk id)

namespace SlotTable

/-- What a slot is to show when the wanted slots are followed. What is followed already is not read
anew. -/
def due (t : SlotTable) (wanted : SlotSet) (phones : Readings) (id : Nat) : Option Modem :=
  if id ∈ wanted then (t.modem? id).or (phones.modem? id) else none

/-- The table with the news taken in, if the slot is followed. -/
def learned (t : SlotTable) (id : Nat) (news : Update) : SlotTable :=
  match t.learn id news with
  | .ok (t', _) => t'
  | .error _ => t

theorem learned_of_untracked {t : SlotTable} {id : Nat} (h : ¬ t.isTracked id = true)
    (news : Update) : t.learned id news = t := by
  unfold learned learn
  cases known : t.get id with
  | error e => rfl
  | ok m => exact absurd (isTracked_iff.mpr ⟨m, get_eq_ok_iff.mp known⟩) h

@[simp] theorem count_learned (t : SlotTable) (id : Nat) (news : Update) :
    (t.learned id news).count = t.count := by
  unfold learned learn
  cases t.get id with
  | error e => rfl
  | ok m => exact SlotMap.count_set ..

theorem modem?_learned (t : SlotTable) (id : Nat) (news : Update) (k : Nat) :
    (t.learned id news).modem? k =
      if k = id then (t.modem? id).map fun m => { m with known := m.known.learn news }
      else t.modem? k := by
  by_cases tracked : t.isTracked id = true
  · obtain ⟨m, known⟩ := isTracked_iff.mp tracked
    have learns : t.learn id news = .ok (⟨t.slots.set id (m.known.learn news)⟩,
        !m.known.knows news) := by
      rw [learn, get_eq_ok_iff.mpr known]
    rw [learned, learns]
    exact modem?_learn learns k
  · have untracked : t.modem? id = none := by simpa [isTracked] using tracked
    rw [learned_of_untracked tracked]
    split
    next he => rw [he, untracked]; rfl
    next => rfl

end SlotTable

namespace Revision

/-- All the ways in which a visit of a slot of the table goes. -/
inductive Visit (r : Revision) (wanted : SlotSet) (phones : Readings) (id : Nat) : Prop where
  | kept (same : visit wanted phones r id = r)
      (shows : r.table.modem? id = r.table.due wanted phones id)
  | started (m : Modem) (table : SlotTable) (shows : r.table.due wanted phones id = some m)
      (inserted : r.table.insert m = .ok table) (own : m.id = id)
      (same : visit wanted phones r id = {
        table
        change := { r.change with started := r.change.started ++ [id] }
        requests := r.requests ++ [.start id] })
  | stopped (tracked : r.table.isTracked id = true) (shows : r.table.due wanted phones id = none)
      (same : visit wanted phones r id = r.stop id)

theorem visit_cases {r : Revision} {id : Nat} (inside : id < r.table.count) (wanted : SlotSet)
    (phones : Readings) : r.Visit wanted phones id := by
  have lookup : visit wanted phones r id = if id ∈ wanted then
      (if r.table.isTracked id then r else r.start id phones)
      else if r.table.isTracked id then r.stop id else r := by
    simp only [visit, SlotSet.contains_iff]
  by_cases hw : id ∈ wanted
  · rw [if_pos hw] at lookup
    cases known : r.table.modem? id with
    | some m =>
      have tracked : r.table.isTracked id = true := by simp [SlotTable.isTracked, known]
      rw [if_pos tracked] at lookup
      exact .kept lookup (by simp [SlotTable.due, hw, known])
    | none =>
      have untracked : ¬ r.table.isTracked id = true := by simp [SlotTable.isTracked, known]
      rw [if_neg untracked] at lookup
      cases read : phones.snapshot id with
      | error e =>
        refine .kept ?_ ?_
        · simpa [start, read] using lookup
        · simp [SlotTable.due, hw, known, Readings.modem?, read, Except.toOption]
      | ok s =>
        have inserted : r.table.insert ⟨id, s⟩ = .ok ⟨r.table.slots.set id s⟩ := by
          simp [SlotTable.insert, inside, untracked]
        refine .started ⟨id, s⟩ _ ?_ inserted rfl ?_
        · simp [SlotTable.due, hw, known, Readings.modem?, read, Except.toOption]
        · simpa [start, read, inserted] using lookup
  · rw [if_neg hw] at lookup
    cases known : r.table.modem? id with
    | some m =>
      have tracked : r.table.isTracked id = true := by simp [SlotTable.isTracked, known]
      rw [if_pos tracked] at lookup
      exact .stopped tracked (by simp [SlotTable.due, hw]) lookup
    | none =>
      have untracked : ¬ r.table.isTracked id = true := by simp [SlotTable.isTracked, known]
      rw [if_neg untracked] at lookup
      exact .kept lookup (by simp [SlotTable.due, hw, known])

section Visit

variable {r : Revision} {id : Nat} (inside : id < r.table.count) (wanted : SlotSet)
  (phones : Readings)
include inside

theorem count_visit : (visit wanted phones r id).table.count = r.table.count := by
  cases visit_cases inside wanted phones with
  | kept same => rw [same]
  | started m table shows inserted own same =>
    rw [same]
    exact SlotTable.count_insert inserted
  | stopped tracked shows same =>
    rw [same]
    rfl

theorem modem?_visit (k : Nat) : (visit wanted phones r id).table.modem? k =
    if k = id then r.table.due wanted phones id else r.table.modem? k := by
  cases visit_cases inside wanted phones with
  | kept same shows =>
    rw [same]
    split
    next he => rw [he, shows]
    next => rfl
  | started m table shows inserted own same =>
    rw [same, shows, ← own]
    exact SlotTable.modem?_insert inserted k
  | stopped tracked shows same =>
    rw [same, shows]
    exact SlotTable.modem?_remove r.table id k

end Visit

/-- The slots that are looked at show what is due; nothing happens to the others. -/
theorem foldl_visit {wanted : SlotSet} {phones : Readings} {ids : List Nat} {r : Revision}
    (inside : ∀ id ∈ ids, id < r.table.count) :
    (ids.foldl (visit wanted phones) r).table.count = r.table.count ∧
      ∀ k, (ids.foldl (visit wanted phones) r).table.modem? k =
        if k ∈ ids then r.table.due wanted phones k else r.table.modem? k := by
  induction ids generalizing r with
  | nil => simp
  | cons id rest ih =>
    have first := inside id List.mem_cons_self
    have count := count_visit first wanted phones
    have shows := modem?_visit first wanted phones
    obtain ⟨counts, later⟩ := ih (r := visit wanted phones r id) fun j hj =>
      count ▸ inside j (List.mem_cons_of_mem id hj)
    refine ⟨counts.trans count, fun k => ?_⟩
    rw [List.foldl_cons, later k]
    by_cases he : k = id
    · -- A second look at a slot finds what is due there already.
      subst he
      have again : (visit wanted phones r k).table.due wanted phones k =
          r.table.due wanted phones k := by
        rw [SlotTable.due, shows, if_pos rfl, SlotTable.due]
        split <;> cases r.table.modem? k <;> simp
      simp [again, shows]
    · have same : (visit wanted phones r id).table.due wanted phones k =
          r.table.due wanted phones k := by
        rw [SlotTable.due, shows, if_neg he, SlotTable.due]
      simp [same, shows, he]

theorem mem_concerned {r : Revision} {wanted : SlotSet} {id : Nat} :
    id ∈ r.concerned wanted ↔ (id ∈ wanted ∨ id ∈ r.table.tracked) ∧ id < r.table.count := by
  rw [concerned, List.mem_filter, ← SlotSet.mem_def, SlotSet.mem_union, decide_eq_true_eq]

theorem count_follow (r : Revision) (wanted : SlotSet) (phones : Readings) :
    (r.follow wanted phones).table.count = r.table.count :=
  (foldl_visit fun _ hid => (mem_concerned.mp hid).2).1

/-- A table that follows the wanted slots shows in each of its slots what is due there. -/
theorem modem?_follow (r : Revision) (wanted : SlotSet) (phones : Readings) (k : Nat) :
    (r.follow wanted phones).table.modem? k =
      if k < r.table.count then r.table.due wanted phones k else none := by
  rw [follow, (foldl_visit fun _ hid => (mem_concerned.mp hid).2).2 k]
  split
  next hk => rw [if_pos (mem_concerned.mp hk).2]
  next hk =>
    split
    next hlt =>
      have apart : ¬ (k ∈ wanted ∨ k ∈ r.table.tracked) := fun h => hk (mem_concerned.mpr ⟨h, hlt⟩)
      rw [not_or, SlotTable.mem_tracked] at apart
      rw [SlotTable.due, if_neg apart.1]
      simpa [SlotTable.isTracked] using apart.2
    next hge => exact SlotTable.modem?_eq_none_of_le (Nat.le_of_not_lt hge)

theorem modem?_stopAll (r : Revision) (ids : List Nat) (k : Nat) :
    (ids.foldl stop r).table.modem? k = if k ∈ ids then none else r.table.modem? k := by
  induction ids generalizing r with
  | nil => simp
  | cons id rest ih =>
    have first := SlotTable.modem?_remove r.table id k
    rw [List.foldl_cons, ih, show (r.stop id).table.modem? k = _ from first]
    by_cases hr : k ∈ rest
    · simp [hr]
    · by_cases hk : k = id <;> simp [hr, hk]

end Revision

namespace SlotTable

theorem count_follow (t : SlotTable) (active : SlotSet) (phones : Readings) :
    (t.follow active phones).table.count = t.count :=
  Revision.count_follow ..

theorem modem?_follow (t : SlotTable) (active : SlotSet) (phones : Readings) (k : Nat) :
    (t.follow active phones).table.modem? k =
      if k < t.count then t.due (wanted active) phones k else none :=
  Revision.modem?_follow ..

theorem count_followResized (t : SlotTable) (count : Nat) (active : SlotSet) (phones : Readings) :
    (t.followResized count active phones).table.count = count :=
  Revision.count_follow ..

/-- No slot below the new count is dropped, so each shows what is due there without the others. -/
theorem modem?_followResized (t : SlotTable) (count : Nat) (active : SlotSet) (phones : Readings)
    (k : Nat) :
    (t.followResized count active phones).table.modem? k =
      if k < count then t.due (wanted active) phones k else none := by
  rw [followResized, Revision.modem?_follow]
  change (if k < count then _ else none) = _
  split
  next hlt =>
    have kept : k ∉ t.trackedIds.filter (count ≤ ·) := by
      intro hk
      have hge : count ≤ k := by simpa using (List.mem_filter.mp hk).2
      omega
    rw [due, modem?_resize, if_pos hlt, Revision.modem?_stopAll, if_neg kept, due]
  next => rfl

end SlotTable

/-- What becomes of the slots on an event. An evaluation leaves them alone. -/
def Event.revise (t : SlotTable) (phones : Readings) : Event → Revision
  | .news id update => { table := t.learned id update }
  | .dataSettingsChanged id =>
    match phones.roamingData id with
    | none => { table := t }
    | some enabled => { table := t.learned id (.roamingData enabled) }
  | .subscriptionsChanged => t.follow phones.active phones
  | .modemCountChanged count => t.followResized count phones.active phones
  | .evaluationRequested _ | .defaultNetworkChanged _ | .settingsChanged _ | .validationFailed
  | .validationSucceeded | .cancelPendingSwitch => { table := t }

/-- What the policy is asked with after an event. -/
def Event.rebase (b : Basis) (phones : Readings) (event : Event) : Basis :=
  let followed := { b with slots := (event.revise b.slots phones).table }
  match event with
  | .settingsChanged settings => { followed with settings }
  | .defaultNetworkChanged network =>
    { followed with bypassed := (network.map (·.bypassesModems)).getD false }
  | .news .. | .dataSettingsChanged _ | .evaluationRequested _ | .subscriptionsChanged
  | .modemCountChanged _ | .validationFailed | .validationSucceeded | .cancelPendingSwitch =>
    followed

namespace Engine

theorem slots_of_basis {e e' : Engine} (h : e.basis = e'.basis) : e.slots = e'.slots :=
  congrArg Basis.slots h

theorem requests_dropPending (e : Engine) (clock : Clock) :
    (e.dropPending clock).requests = [] := by
  unfold dropPending
  split <;> rfl

theorem requests_apply (e : Engine) (clock : Clock) (reason : Reason) (d : Decision) :
    (e.apply clock reason d).requests = [] := by
  cases d with
  | pending p => rfl
  | immediate target why => rfl
  | noAction => exact requests_dropPending ..

theorem requests_evaluate (e : Engine) (m : Moment) (reason : Reason) :
    (e.evaluate m reason).requests = [] := by
  unfold evaluate
  split
  · rfl
  · split
    · exact requests_dropPending ..
    · cases e.decide m.phones with
      | error error => exact requests_apply ..
      | ok decision => exact requests_apply ..

theorem requests_deliver (e : Engine) (m : Moment) (note : TimerNote) :
    (e.deliver m note).requests = [] := by
  cases note with
  | evaluate reason => exact requests_evaluate e m reason
  | stability p =>
    change (e.passStability m p).requests = []
    unfold passStability
    split <;> rfl

theorem requests_poll (e : Engine) (m : Moment) : (e.poll m).1.requests = [] := by
  have deliveries : ∀ (tray : List (TimerKey × TimerNote)) (o : Outcome), o.requests = [] →
      (tray.foldl (fun (o : Outcome) note => o.andThen fun e => e.deliver m note.2) o).requests
        = [] := by
    intro tray
    induction tray with
    | nil => exact fun _ none => none
    | cons note rest ih =>
      intro o none
      exact ih _ (List.append_eq_nil_iff.mpr ⟨none, requests_deliver ..⟩)
  exact deliveries _ _ rfl

theorem basis_hear (e : Engine) (m : Moment) (id : Nat) (update : Update) :
    (e.hear m id update).done.engine.basis =
        { e.basis with slots := e.slots.learned id update } ∧
      (e.hear m id update).done.requests = [] := by
  unfold hear SlotTable.learned
  split
  next h => rw [h]; exact ⟨rfl, rfl⟩
  next h => rw [h]; exact ⟨rfl, rfl⟩
  next h =>
    rw [h]
    dsimp only
    split
    · exact ⟨rfl, rfl⟩
    · split <;> exact ⟨rfl, rfl⟩

theorem basis_rereadRoaming (e : Engine) (phones : Readings) (id : Nat) :
    (e.rereadRoaming phones id).basis =
      { e.basis with slots := ((Event.dataSettingsChanged id).revise e.slots phones).table } := by
  rw [rereadRoaming, Event.revise]
  by_cases tracked : e.slots.isTracked id = true
  · rw [if_pos tracked]
    cases phones.roamingData id with
    | none => rfl
    | some enabled =>
      simp only [SlotTable.learned]
      split <;> simp [basis, *]
  · rw [if_neg tracked]
    cases phones.roamingData id with
    | none => rfl
    | some enabled =>
      have same := SlotTable.learned_of_untracked tracked (.roamingData enabled)
      simp only [same, basis]

theorem basis_takeUp (e : Engine) (m : Moment) (event : Event) :
    (e.takeUp m event).done.engine.basis = event.rebase e.basis m.phones ∧
      (e.takeUp m event).done.requests = (event.revise e.slots m.phones).requests := by
  cases event with
  | news id update => exact basis_hear e m id update
  | dataSettingsChanged id =>
    refine ⟨basis_rereadRoaming e m.phones id, ?_⟩
    rw [Event.revise]
    split <;> rfl
  | evaluationRequested reason => exact ⟨rfl, rfl⟩
  | defaultNetworkChanged network =>
    change (e.setDefaultNetwork m network).done.engine.basis =
        { e.basis with bypassed := (network.map (·.bypassesModems)).getD false } ∧
      (e.setDefaultNetwork m network).done.requests = []
    unfold setDefaultNetwork
    dsimp only
    split
    next same => exact ⟨by rw [same]; rfl, rfl⟩
    next => exact ⟨rfl, rfl⟩
  | subscriptionsChanged =>
    refine ⟨?_, rfl⟩
    change (e.followActive m).done.engine.basis = _
    unfold followActive
    dsimp only
    split <;> rfl
  | modemCountChanged count => exact ⟨rfl, rfl⟩
  | settingsChanged settings =>
    change (e.setSettings m settings).done.engine.basis = { e.basis with settings } ∧
      (e.setSettings m settings).done.requests = []
    unfold setSettings
    split
    · exact ⟨rfl, rfl⟩
    · exact ⟨basis_dropPending .., requests_dropPending ..⟩
  | validationFailed => exact ⟨basis_failValidation e m.clock, rfl⟩
  | validationSucceeded => exact ⟨rfl, rfl⟩
  | cancelPendingSwitch => exact ⟨rfl, rfl⟩

theorem basis_handle (e : Engine) (m : Moment) (event : Event) :
    (e.handle m event).engine.basis = event.rebase e.basis m.phones ∧
      (e.handle m event).requests = (event.revise e.slots m.phones).requests := by
  obtain ⟨basis, requests⟩ := basis_takeUp e m event
  rw [handle, Uptake.complete]
  split
  · exact ⟨basis, requests⟩
  next reason _ =>
    refine ⟨(basis_evaluate ..).trans basis, ?_⟩
    rw [Outcome.andThen, requests_evaluate, List.append_nil]
    exact requests

theorem slots_handle (e : Engine) (m : Moment) (event : Event) :
    (e.handle m event).engine.slots = (event.revise e.slots m.phones).table := by
  have slots : (e.handle m event).engine.slots = (event.rebase e.basis m.phones).slots :=
    congrArg Basis.slots (basis_handle e m event).1
  rw [slots]
  cases event <;> rfl

theorem slots_poll (e : Engine) (m : Moment) : (e.poll m).1.engine.slots = e.slots :=
  slots_of_basis (basis_poll e m)

end Engine

end ModemSelect
