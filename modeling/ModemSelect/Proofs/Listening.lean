import ModemSelect.Proofs.Following
import ModemSelect.Proofs.StandingsView
import ModemSelect.Rig

namespace ModemSelect

namespace Revision

/-- The handset that heard every request so far reports on the slots that are followed. -/
def Heard (h : Handset) (r : Revision) : Prop :=
  ∀ k, k ∈ (h.listenAll r.requests).subscribed ↔ r.table.isTracked k = true

section Heard

variable {h : Handset} {r : Revision} (heard : r.Heard h)
include heard

theorem heard_stop (id : Nat) : (r.stop id).Heard h := by
  intro k
  have shows : (r.stop id).table.modem? k = if k = id then none else r.table.modem? k :=
    SlotTable.modem?_remove r.table id k
  have asked : h.listenAll (r.stop id).requests = (h.listenAll r.requests).listen (.stop id) := by
    simp [stop, Handset.listenAll]
  rw [asked, Handset.listen, SlotSet.mem_erase, heard k, SlotTable.isTracked, SlotTable.isTracked,
    shows]
  by_cases he : k = id <;> simp [he]

theorem heard_visit {id : Nat} (inside : id < r.table.count) (wanted : SlotSet)
    (phones : Readings) : (visit wanted phones r id).Heard h := by
  cases visit_cases inside wanted phones with
  | kept same => rwa [same]
  | started m table shows inserted own same =>
    intro k
    have asked : h.listenAll (r.requests ++ [.start id]) =
        (h.listenAll r.requests).listen (.start id) := by
      simp [Handset.listenAll]
    rw [same]
    change k ∈ (h.listenAll (r.requests ++ [.start id])).subscribed ↔ table.isTracked k = true
    rw [asked, Handset.listen, SlotSet.mem_insert, heard k, SlotTable.isTracked,
      SlotTable.isTracked, SlotTable.modem?_insert inserted, own]
    by_cases he : k = id <;> simp [he]
  | stopped tracked shows same =>
    rw [same]
    exact heard_stop heard id

theorem heard_stopAll (ids : List Nat) : (ids.foldl stop r).Heard h := by
  induction ids generalizing r with
  | nil => exact heard
  | cons id rest ih => exact ih (heard_stop heard id)

theorem heard_follow (wanted : SlotSet) (phones : Readings) :
    (r.follow wanted phones).Heard h := by
  have visits : ∀ (ids : List Nat) (r : Revision), r.Heard h → (∀ id ∈ ids, id < r.table.count) →
      (ids.foldl (visit wanted phones) r).Heard h := by
    intro ids
    induction ids with
    | nil => exact fun _ heard _ => heard
    | cons id rest ih =>
      intro r heard inside
      have first := inside id List.mem_cons_self
      refine ih _ (heard_visit heard first wanted phones) fun j hj => ?_
      rw [count_visit first]
      exact inside j (List.mem_cons_of_mem id hj)
  exact visits _ r heard fun _ hid => (mem_concerned.mp hid).2

end Heard

end Revision

/-- The handset reports on just the followed slots, each of which lies in the table and holds its
own modem; the standings list every one of them once, in their order. -/
structure SlotTable.HeardFrom (t : SlotTable) (h : Handset) : Prop where
  subscribed : h.subscribed = t.tracked
  inside : ∀ id ∈ t.tracked, id < t.count
  own : ∀ id m, t.modem? id = some m → m.id = id
  views : ∀ features scorer, (t.standings features scorer).map (·.id) = t.trackedIds
  ordered : ∀ features scorer, ((t.standings features scorer).map (·.id)).Pairwise (· < ·)

namespace SlotTable

variable {t : SlotTable} {h : Handset}

theorem heardFrom_iff : t.HeardFrom h ↔ Revision.Heard h { table := t } := by
  constructor
  · intro hears k
    rw [Handset.listenAll, List.foldl_nil, hears.subscribed]
    exact mem_tracked
  · intro heard
    refine ⟨SlotSet.ext_mem fun k => (heard k).trans mem_tracked.symm, ?_, fun _ _ => id_of_modem?,
      fun _ _ => ids_standings, ?_⟩
    · intro id tracked
      obtain ⟨m, hm⟩ := isTracked_iff.mp (mem_tracked.mp tracked)
      exact lt_count_of_modem? hm
    · intro features scorer
      rw [ids_standings]
      exact t.tracked.sorted

theorem heardFrom_of_heard {r : Revision} (heard : r.Heard h) :
    r.table.HeardFrom (h.listenAll r.requests) :=
  heardFrom_iff.mpr heard

section Hears

variable (hears : t.HeardFrom h)
include hears

theorem heardFrom_learned (id : Nat) (news : Update) : (t.learned id news).HeardFrom h := by
  have heard := heardFrom_iff.mp hears
  refine heardFrom_iff.mpr fun k => (heard k).trans ?_
  change t.isTracked k = true ↔ (t.learned id news).isTracked k = true
  rw [isTracked, isTracked, modem?_learned]
  by_cases he : k = id <;> simp [he]

theorem heardFrom_follow (active : SlotSet) (phones : Readings) :
    (t.follow active phones).table.HeardFrom
      (h.listenAll (t.follow active phones).requests) :=
  heardFrom_of_heard (Revision.heard_follow (heardFrom_iff.mp hears) (wanted active) phones)

theorem heardFrom_followResized (count : Nat) (active : SlotSet) (phones : Readings) :
    (t.followResized count active phones).table.HeardFrom
      (h.listenAll (t.followResized count active phones).requests) := by
  let dropped := t.trackedIds.filter (count ≤ ·)
  let r := dropped.foldl Revision.stop { table := t }
  have heard : r.Heard h := Revision.heard_stopAll (heardFrom_iff.mp hears) dropped
  -- The modems past the new count were stopped, so the resize drops none that is followed.
  have resized : Revision.Heard h { r with table := r.table.resize count } := by
    intro k
    refine (heard k).trans ?_
    change (r.table.modem? k).isSome = true ↔ ((r.table.resize count).modem? k).isSome = true
    rw [modem?_resize]
    split
    next => rfl
    next hge =>
      have gone : r.table.modem? k = none := by
        rw [Revision.modem?_stopAll]
        split
        next => rfl
        next kept =>
          have untracked : ¬ t.isTracked k = true := fun tracked =>
            kept (List.mem_filter.mpr ⟨mem_tracked.mpr tracked, by simpa using hge⟩)
          simpa [isTracked] using untracked
      simp [gone]
  exact heardFrom_of_heard (Revision.heard_follow resized (wanted active) phones)

end Hears

end SlotTable

/-- A bare table at work on a handset that starts without subscriptions. Between two calls the
handset changes freely in all but those. -/
inductive Paired : SlotTable → Handset → Prop where
  | start (count : Nat) (h : Handset) (bare : h.subscribed = SlotSet.empty) :
      Paired (.ofCount count) h
  | learned {t : SlotTable} {h : Handset} (pair : Paired t h) (id : Nat) (news : Update) :
      Paired (t.learned id news) h
  | followed {t : SlotTable} {h : Handset} (pair : Paired t h) (active : SlotSet) :
      Paired (t.follow active h.readings).table
        (h.listenAll (t.follow active h.readings).requests)
  | resized {t : SlotTable} {h : Handset} (pair : Paired t h) (count : Nat) (active : SlotSet) :
      Paired (t.followResized count active h.readings).table
        (h.listenAll (t.followResized count active h.readings).requests)
  | meanwhile {t : SlotTable} {h : Handset} (pair : Paired t h) (h' : Handset)
      (same : h'.subscribed = h.subscribed) : Paired t h'

theorem Paired.heardFrom {t : SlotTable} {h : Handset} (pair : Paired t h) : t.HeardFrom h := by
  induction pair with
  | start count h bare =>
    refine SlotTable.heardFrom_iff.mpr fun k => ?_
    simp [Handset.listenAll, bare, SlotTable.isTracked]
  | learned _ id news ih => exact SlotTable.heardFrom_learned ih id news
  | followed _ active ih => exact SlotTable.heardFrom_follow ih active _
  | resized _ count active ih => exact SlotTable.heardFrom_followResized ih count active _
  | meanwhile _ h' same ih => exact { ih with subscribed := same.trans ih.subscribed }

namespace Rig

/-- A rig whose handset starts without subscriptions, after events and polls in any order. Between
two of them the handset, its subscriptions apart, and the clock change freely. -/
inductive Reachable : Rig → Prop where
  | mounted (settings : Settings) (scorer : Option Scorer) (count : Nat) (handset : Handset)
      (clock : Clock) (bare : handset.subscribed = SlotSet.empty) :
      Reachable (mount settings scorer count handset clock)
  | handled {r : Rig} (reach : Reachable r) (event : Event) : Reachable (r.handle event).1
  | polled {r : Rig} (reach : Reachable r) : Reachable r.poll.1
  | meanwhile {r : Rig} (reach : Reachable r) (handset : Handset) (clock : Clock)
      (same : handset.subscribed = r.handset.subscribed) :
      Reachable { r with handset, clock }

theorem Reachable.paired {r : Rig} (reach : r.Reachable) : Paired r.engine.slots r.handset := by
  induction reach with
  | mounted settings scorer count handset clock bare =>
    exact .followed (.start count handset bare) handset.active
  | polled _ ih =>
    rename_i r _
    have slots := r.engine.slots_poll r.moment
    have requests := r.engine.requests_poll r.moment
    change Paired (r.engine.poll r.moment).1.engine.slots
      (r.handset.listenAll (r.engine.poll r.moment).1.requests)
    rw [slots, requests]
    exact ih
  | meanwhile _ handset clock same ih => exact .meanwhile ih handset same
  | handled _ event ih =>
    rename_i r _
    have slots := r.engine.slots_handle r.moment event
    have requests := (r.engine.basis_handle r.moment event).2
    change Paired (r.engine.handle r.moment event).engine.slots
      (r.handset.listenAll (r.engine.handle r.moment event).requests)
    rw [slots, requests]
    cases event with
    | news id update => exact .learned ih id update
    | dataSettingsChanged id =>
      rw [Event.revise]
      cases r.moment.phones.roamingData id with
      | none => exact ih
      | some enabled => exact .learned ih id _
    | subscriptionsChanged => exact .followed ih r.handset.active
    | modemCountChanged count => exact .resized ih count r.handset.active
    | evaluationRequested reason => exact ih
    | defaultNetworkChanged network => exact ih
    | settingsChanged settings => exact ih
    | validationFailed => exact ih
    | validationSucceeded => exact ih
    | cancelPendingSwitch => exact ih

end Rig

/-- Subscriptions and followed slots are the same, under an engine as under a bare table. -/
theorem subscribed_eq_tracked :
    (∀ t h, Paired t h → t.HeardFrom h) ∧
      ∀ r : Rig, r.Reachable → r.engine.slots.HeardFrom r.handset ∧
        r.engine.standings.map (·.id) = r.handset.subscribed.ids := by
  refine ⟨fun t h pair => pair.heardFrom, fun r reach => ?_⟩
  have hears := reach.paired.heardFrom
  refine ⟨hears, ?_⟩
  rw [hears.subscribed]
  exact hears.views _ _

/-- A phone in each of so many slots, all of them active. -/
def Handset.filled (count : Nat) : Handset :=
  ((List.range count).foldl (fun (h : Handset) id => h.insert id {}) (.ofCount count)).setActive
    (List.range count)

/-- The phone of slot 1 goes unnoticed, and then the handset loses its last slots. -/
def Rig.shrink (r : Rig) : Rig :=
  ({ r with handset := (r.handset.remove 1).resize 2 }.handle (.modemCountChanged 2)).1

theorem Rig.Reachable.shrink {r : Rig} (reach : r.Reachable) : r.shrink.Reachable :=
  .handled (.meanwhile reach ((r.handset.remove 1).resize 2) r.clock rfl) (.modemCountChanged 2)

theorem subscribed_eq_tracked_shrunk :
    let r := (Rig.mount {} none 3 (.filled 3) {}).shrink
    let bare := (SlotTable.ofCount 1).followResized 2 (Handset.filled 2).active
      (Handset.filled 2).readings
    r.Reachable ∧ r.handset.phone? 1 = none ∧ r.engine.standings.map (·.id) = [0, 1] ∧
      r.engine.slots.HeardFrom r.handset ∧
      bare.table.HeardFrom ((Handset.filled 2).listenAll bare.requests) := by
  intro r bare
  have shrunk : r.Reachable := Rig.Reachable.shrink (.mounted _ _ _ _ _ rfl)
  have pair : Paired bare.table ((Handset.filled 2).listenAll bare.requests) :=
    .resized (.start 1 (.filled 2) rfl) 2 (Handset.filled 2).active
  obtain ⟨tables, rigs⟩ := subscribed_eq_tracked
  obtain ⟨hears, standings⟩ := rigs r shrunk
  have reports : r.handset.subscribed.ids = [0, 1] := by decide +kernel
  exact ⟨shrunk, by decide +kernel, standings.trans reports, hears, tables _ _ pair⟩

end ModemSelect
