import ModemSelect.Proofs.Following
import ModemSelect.Proofs.Playing
import ModemSelect.Proofs.StandingsView

namespace ModemSelect

namespace Snapshot

/-- Both say the same of a modem; of the signal only the level counts. -/
structure Same (s s' : Snapshot) : Prop where
  registration : s.registration = s'.registration
  display : s.display = s'.display
  level : s.signal.level = s'.signal.level
  roamingData : s.roamingData = s'.roamingData

/-- The snapshot with the news in it, known before or not. -/
def overwrite (s : Snapshot) : Update → Snapshot
  | .registration r => { s with registration := r }
  | .display d => { s with display := d }
  | .signal x => { s with signal := x }
  | .roamingData enabled => { s with roamingData := enabled }

theorem same_refl (s : Snapshot) : s.Same s := ⟨rfl, rfl, rfl, rfl⟩

theorem same_overwrite_of_knows {s : Snapshot} {news : Update} (h : s.knows news = true) :
    s.Same (s.overwrite news) := by
  cases news <;> simp only [knows, Signal.same, beq_iff_eq] at h <;>
    constructor <;> simp [overwrite, h]

theorem same_learn (s : Snapshot) (news : Update) : (s.learn news).Same (s.overwrite news) := by
  unfold learn
  split
  next h => exact same_overwrite_of_knows h
  next => cases news <;> exact same_refl _

namespace Same

variable {s s' : Snapshot} (same : s.Same s')
include same

theorem overwrite (news : Update) : (s.overwrite news).Same (s'.overwrite news) := by
  obtain ⟨registration, display, level, roamingData⟩ := same
  cases news with
  | registration r => exact ⟨rfl, display, level, roamingData⟩
  | display d => exact ⟨registration, rfl, level, roamingData⟩
  | signal x => exact ⟨registration, display, rfl, roamingData⟩
  | roamingData enabled => exact ⟨registration, display, level, rfl⟩

theorem standing (id : Nat) (features : Features) (scorer : Scorer) :
    (Modem.mk id s).standing features scorer = (Modem.mk id s').standing features scorer := by
  obtain ⟨registration, display, level, roamingData⟩ := same
  simp only [Modem.standing, usability, score, registration, display, level, roamingData]

end Same

theorem Same.trans {s s' s'' : Snapshot} (first : s.Same s') (second : s'.Same s'') :
    s.Same s'' :=
  ⟨first.registration.trans second.registration, first.display.trans second.display,
    first.level.trans second.level, first.roamingData.trans second.roamingData⟩

end Snapshot

/-- What is read of the phone when following its slot starts. -/
def Phone.snapshot (p : Phone) : Snapshot := ⟨p.registration, p.display, p.signal, p.roamingData⟩

namespace Handset

theorem modem?_readings (h : Handset) (id : Nat) :
    h.readings.modem? id = (h.phone? id).map fun p => ⟨id, p.snapshot⟩ := by
  simp only [Readings.modem?, Readings.snapshot, readings]
  cases h.phone? id <;> rfl

theorem phone?_modify (h : Handset) (id k : Nat) (f : Phone → Phone) :
    (h.modify id f).phone? k = if k = id then (h.phone? id).map f else h.phone? k :=
  SlotMap.get?_modify ..

theorem slotCount_modify (h : Handset) (id : Nat) (f : Phone → Phone) :
    (h.modify id f).slotCount = h.slotCount :=
  SlotMap.count_modify ..

theorem modify_of_empty {h : Handset} {id : Nat} (empty : h.phone? id = none)
    (f : Phone → Phone) : h.modify id f = h := by
  rw [phone?] at empty
  rw [modify, SlotMap.modify, empty]

theorem modify_modify (h : Handset) (id : Nat) (f g : Phone → Phone) :
    (h.modify id f).modify id g = h.modify id (g ∘ f) := by
  have phones : (h.phones.modify id f).modify id g = h.phones.modify id (g ∘ f) := by
    refine SlotMap.ext_get? (by simp) fun k => ?_
    simp only [SlotMap.get?_modify, if_pos, Option.map_map]
    split <;> rfl
  simp only [modify, phones]

end Handset

namespace SlotTable

/-- What the table knows of a slot is what the phone in it says now. -/
structure Truthful (t : SlotTable) (h : Handset) : Prop where
  count : t.count = h.slotCount
  known : ∀ id m, t.modem? id = some m → ∃ p, h.phone? id = some p ∧ m.known.Same p.snapshot

/-- Moreover the table follows just those wanted slots that have a phone. -/
structure Mirrors (t : SlotTable) (h : Handset) : Prop extends Truthful t h where
  tracked : ∀ id, t.isTracked id = true ↔
    2 ≤ h.active.size ∧ id ∈ h.active ∧ (h.phone? id).isSome = true

theorem due_cases {t : SlotTable} {h : Handset} {id : Nat}
    (known : ∀ m, t.modem? id = some m → ∃ p, h.phone? id = some p ∧ m.known.Same p.snapshot) :
    (∃ m p, t.due (wanted h.active) h.readings id = some m ∧ id ∈ wanted h.active ∧
      h.phone? id = some p ∧ m.known.Same p.snapshot) ∨
    t.due (wanted h.active) h.readings id = none ∧
      ¬ (id ∈ wanted h.active ∧ (h.phone? id).isSome = true) := by
  by_cases hw : id ∈ wanted h.active
  · rw [due, if_pos hw, h.modem?_readings]
    cases before : t.modem? id with
    | some m =>
      obtain ⟨p, phone, same⟩ := known m before
      exact Or.inl ⟨m, p, rfl, hw, phone, same⟩
    | none =>
      cases h.phone? id with
      | some p => exact Or.inl ⟨⟨id, p.snapshot⟩, p, rfl, hw, rfl, Snapshot.same_refl _⟩
      | none => exact Or.inr ⟨rfl, by simp⟩
  · exact Or.inr ⟨if_neg hw, fun tracked => hw tracked.1⟩

/-- A table that shows what is due mirrors the handset if what it kept was true. -/
theorem mirrors_of_due {t t' : SlotTable} {h : Handset} (count : t'.count = h.slotCount)
    (known : ∀ id m, id < h.slotCount → t.modem? id = some m →
      ∃ p, h.phone? id = some p ∧ m.known.Same p.snapshot)
    (shows : ∀ id, t'.modem? id =
      if id < h.slotCount then t.due (wanted h.active) h.readings id else none) :
    t'.Mirrors h := by
  have shown : ∀ id, (∃ m p, t'.modem? id = some m ∧ id ∈ wanted h.active ∧
        h.phone? id = some p ∧ m.known.Same p.snapshot) ∨
      t'.modem? id = none ∧ ¬ (id ∈ wanted h.active ∧ (h.phone? id).isSome = true) := by
    intro id
    rw [shows]
    by_cases inside : id < h.slotCount
    · rw [if_pos inside]
      exact due_cases fun m hm => known id m inside hm
    · have outside : h.phone? id = none :=
        SlotMap.get?_eq_none_of_le (Nat.le_of_not_lt inside)
      rw [if_neg inside]
      exact Or.inr ⟨rfl, by simp [outside]⟩
  refine ⟨⟨count, fun id m hm => ?_⟩, fun id => ?_⟩
  · rcases shown id with ⟨m', p, hm', -, phone, same⟩ | ⟨empty, -⟩
    · rw [hm] at hm'
      cases hm'
      exact ⟨p, phone, same⟩
    · rw [hm] at empty
      cases empty
  · rw [isTracked, ← and_assoc, ← mem_wanted]
    rcases shown id with ⟨m, p, hm, hw, phone, -⟩ | ⟨empty, undue⟩
    · simp [hm, hw, phone]
    · simp only [empty, undue, Option.isSome_none, Bool.false_eq_true]

theorem mirrors_follow {t : SlotTable} {h : Handset} (truthful : t.Truthful h) :
    (t.follow h.active h.readings).table.Mirrors h := by
  refine mirrors_of_due ((count_follow ..).trans truthful.count)
    (fun id m _ => truthful.known id m) fun id => ?_
  rw [modem?_follow, truthful.count]

theorem mirrors_followResized {t : SlotTable} {h : Handset} (truthful : t.Truthful h)
    (count : Nat) :
    (t.followResized count h.active (h.resize count).readings).table.Mirrors (h.resize count) := by
  refine mirrors_of_due (count_followResized ..) (fun id m inside hm => ?_) fun id =>
    modem?_followResized ..
  -- Only what was known of the slots that stay has to be true of the smaller handset.
  have kept : (h.resize count).phone? id = h.phone? id :=
    (SlotMap.get?_resize ..).trans (if_pos inside)
  rw [kept]
  exact truthful.known id m hm

theorem mirrors_ofCount (h : Handset) :
    ((SlotTable.ofCount h.slotCount).follow h.active h.readings).table.Mirrors h :=
  mirrors_follow ⟨rfl, fun id m hm => by cases hm⟩

namespace Mirrors

variable {t : SlotTable} {h : Handset} (mirrors : t.Mirrors h)
include mirrors

theorem learned {id : Nat} {f : Phone → Phone} {news : Update}
    (tells : ∀ p, h.phone? id = some p → (f p).snapshot = p.snapshot.overwrite news) :
    (t.learned id news).Mirrors (h.modify id f) := by
  refine ⟨⟨?_, fun k m hm => ?_⟩, fun k => ?_⟩
  · rw [count_learned, h.slotCount_modify]
    exact mirrors.count
  · rw [modem?_learned] at hm
    rw [h.phone?_modify]
    split at hm
    next he =>
      obtain ⟨m', hm', rfl⟩ := Option.map_eq_some_iff.mp hm
      obtain ⟨p, phone, same⟩ := mirrors.known id m' hm'
      refine ⟨f p, by rw [if_pos he, phone]; rfl, ?_⟩
      rw [tells p phone]
      exact (Snapshot.same_learn ..).trans (same.overwrite news)
    next hne =>
      rw [if_neg hne]
      exact mirrors.known k m hm
  · have phones : ((h.modify id f).phone? k).isSome = (h.phone? k).isSome := by
      rw [h.phone?_modify]
      split
      next he => rw [he, Option.isSome_map]
      next => rfl
    have tracked : (t.learned id news).isTracked k = t.isTracked k := by
      rw [isTracked, isTracked, modem?_learned]
      split
      next he => rw [he, Option.isSome_map]
      next => rfl
    rw [tracked, phones]
    exact mirrors.tracked k

/-- Whatever changes of a phone but its roaming switch, that is read again. -/
theorem reread {id : Nat} {f : Phone → Phone}
    (tells : ∀ p, (f p).snapshot = p.snapshot.overwrite (.roamingData (f p).roamingData)) :
    ((Event.dataSettingsChanged id).revise t (h.modify id f).readings).table.Mirrors
      (h.modify id f) := by
  have read : (h.modify id f).readings.roamingData id =
      (h.phone? id).map fun p => (f p).roamingData := by
    change ((h.modify id f).phone? id).map (·.roamingData) = _
    rw [h.phone?_modify, if_pos rfl, Option.map_map]
    rfl
  rw [Event.revise, read]
  cases phone : h.phone? id with
  | none =>
    rw [Handset.modify_of_empty phone]
    exact mirrors
  | some p =>
    refine mirrors.learned fun p' phone' => ?_
    rw [phone] at phone'
    cases phone'
    exact tells p

/-- Tables that mirror one handset rank it alike. -/
theorem standings_eq {t' : SlotTable} (mirrors' : t'.Mirrors h) (features : Features)
    (scorer : Scorer) : t.standings features scorer = t'.standings features scorer := by
  have tracked : t.tracked = t'.tracked := SlotSet.ext_mem fun id => by
    rw [mem_tracked, mem_tracked, mirrors.tracked, mirrors'.tracked]
  rw [standings_eq_filterMap, standings_eq_filterMap, trackedIds, tracked]
  refine List.filterMap_congr fun id hid => ?_
  obtain ⟨m', hm'⟩ := isTracked_iff.mp (mem_tracked.mp hid)
  obtain ⟨m, hm⟩ := isTracked_iff.mp (mem_tracked.mp (tracked ▸ hid))
  obtain ⟨p, phone, same⟩ := mirrors.known id m hm
  obtain ⟨p', phone', same'⟩ := mirrors'.known id m' hm'
  rw [phone] at phone'
  cases phone'
  have own := id_of_modem? hm
  have own' := id_of_modem? hm'
  have standing := (same.standing id features scorer).trans
    (same'.standing id features scorer).symm
  rw [hm, hm', Option.map_some, Option.map_some]
  obtain ⟨_, known⟩ := m
  obtain ⟨_, known'⟩ := m'
  cases own
  cases own'
  exact congrArg some standing

end Mirrors

end SlotTable

end ModemSelect
