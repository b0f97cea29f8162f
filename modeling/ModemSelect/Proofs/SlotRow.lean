import Mathlib.Data.List.ReduceOption
import ModemSelect.Proofs.Following
import ModemSelect.Proofs.StandingsView

namespace ModemSelect

/-- What can be done to a table of slots. -/
inductive SlotAct where
  | insert (m : Modem)
  | learn (id : Nat) (news : Update)
  | remove (id : Nat)
  | resize (count : Nat)

namespace SlotAct

/-- What an act makes of a plain row of slots, where a slot is empty or holds a modem that has a
number of its own. -/
def write (row : List (Option Modem)) : SlotAct → List (Option Modem)
  | .insert m =>
    match row[m.id]? with
    | some none => row.set m.id (some m)
    | some (some _) | none => row
  | .learn id news => row.modify id (Option.map fun m => { m with known := m.known.learn news })
  | .remove id => row.set id none
  | .resize count => row.take count ++ List.replicate (count - row.length) none

/-- Every modem of a row is in the slot of its own number. -/
def Placed (row : List (Option Modem)) : Prop :=
  ∀ (k : Nat) (m : Modem), row[k]? = some (some m) → m.id = k

namespace Placed

variable {row : List (Option Modem)} (placed : Placed row)
include placed

theorem set {k : Nat} {slot : Option Modem} (own : ∀ m, slot = some m → m.id = k) :
    Placed (row.set k slot) := by
  intro j held found
  rw [List.getElem?_set] at found
  split at found
  next here =>
    split at found
    · cases found
      exact (own held rfl).trans here
    · cases found
  next => exact placed j held found

theorem modify {k : Nat} {f : Modem → Modem} (same : ∀ m, (f m).id = m.id) :
    Placed (row.modify k (Option.map f)) := by
  intro j held found
  simp only [List.getElem?_modify, Option.map_eq_map, Option.map_eq_some_iff] at found
  obtain ⟨slot, old, made⟩ := found
  split at made
  · obtain ⟨m, rfl, rfl⟩ := Option.map_eq_some_iff.mp made
    exact (same m).trans (placed j m old)
  · cases made
    exact placed j held old

theorem take_append (n count : Nat) : Placed (row.take n ++ List.replicate count none) := by
  intro j held found
  rw [List.getElem?_append] at found
  split at found
  · rw [List.getElem?_take] at found
    split at found
    · exact placed j held found
    · cases found
  · rw [List.getElem?_replicate] at found
    split at found <;> cases found

theorem write (a : SlotAct) : Placed (a.write row) := by
  cases a with
  | insert m =>
    simp only [SlotAct.write]
    split
    · refine placed.set fun m' h => ?_
      cases h
      rfl
    all_goals exact placed
  | learn id news => exact placed.modify fun _ => rfl
  | remove id => exact placed.set fun m h => by cases h
  | resize count => exact placed.take_append count _

end Placed

theorem placed_replicate (count : Nat) : Placed (List.replicate count none) := by
  have nowhere : Placed [] := fun k m found => by simp at found
  exact nowhere.take_append 0 count

theorem placed_foldl_write {row : List (Option Modem)} (placed : Placed row)
    (acts : List SlotAct) : Placed (acts.foldl write row) := by
  induction acts generalizing row with
  | nil => exact placed
  | cons a rest ih => exact ih (placed.write a)

end SlotAct

namespace SlotTable

/-- The table after an act; one that is refused leaves it as it is. -/
def act (t : SlotTable) : SlotAct → SlotTable
  | .insert m =>
    match t.insert m with
    | .ok t' => t'
    | .error _ => t
  | .learn id news => t.learned id news
  | .remove id => (t.remove id).1
  | .resize count => t.resize count

def afterActs (t : SlotTable) (acts : List SlotAct) : SlotTable := acts.foldl act t

/-- All the slots in their order. -/
def row (t : SlotTable) : List (Option Modem) := (List.range t.count).map t.modem?

section Insert

variable {t : SlotTable} {m : Modem}

theorem insert_of_le (outside : t.count ≤ m.id) : t.insert m = .error (.outside m.id t.count) :=
  if_neg (Nat.not_lt.mpr outside)

theorem insert_of_tracked (tracked : t.isTracked m.id = true) :
    t.insert m = .error (.alreadyTracked m.id) := by
  obtain ⟨held, shown⟩ := isTracked_iff.mp tracked
  rw [insert, if_pos (lt_count_of_modem? shown), if_pos tracked]

theorem insert_of_empty (inside : m.id < t.count) (empty : t.modem? m.id = none) :
    t.insert m = .ok ⟨t.slots.set m.id m.known⟩ := by
  have untracked : ¬ t.isTracked m.id = true := by simp [isTracked, empty]
  rw [insert, if_pos inside, if_neg untracked]

/-- All the ways in which an insertion goes. -/
theorem insert_cases (t : SlotTable) (m : Modem) :
    (t.count ≤ m.id ∧ t.insert m = .error (.outside m.id t.count)) ∨
      (t.isTracked m.id = true ∧ t.insert m = .error (.alreadyTracked m.id)) ∨
      (m.id < t.count ∧ t.modem? m.id = none ∧ t.insert m = .ok ⟨t.slots.set m.id m.known⟩) := by
  rcases Nat.lt_or_ge m.id t.count with inside | outside
  · cases shown : t.modem? m.id with
    | none => exact Or.inr (Or.inr ⟨inside, rfl, insert_of_empty inside shown⟩)
    | some held =>
      have tracked : t.isTracked m.id = true := isTracked_iff.mpr ⟨held, shown⟩
      exact Or.inr (Or.inl ⟨tracked, insert_of_tracked tracked⟩)
  · exact Or.inl ⟨outside, insert_of_le outside⟩

theorem insert_outside_iff :
    t.insert m = .error (.outside m.id t.count) ↔ t.count ≤ m.id := by
  refine ⟨fun refused => ?_, insert_of_le⟩
  rcases insert_cases t m with ⟨outside, -⟩ | ⟨-, other⟩ | ⟨-, -, done⟩
  · exact outside
  · cases refused.symm.trans other
  · cases refused.symm.trans done

theorem insert_alreadyTracked_iff :
    t.insert m = .error (.alreadyTracked m.id) ↔ t.isTracked m.id = true := by
  refine ⟨fun refused => ?_, insert_of_tracked⟩
  rcases insert_cases t m with ⟨-, other⟩ | ⟨tracked, -⟩ | ⟨-, -, done⟩
  · cases refused.symm.trans other
  · exact tracked
  · cases refused.symm.trans done

end Insert

@[simp] theorem length_row (t : SlotTable) : t.row.length = t.count := by simp [row]

theorem getElem?_row (t : SlotTable) (k : Nat) :
    t.row[k]? = if k < t.count then some (t.modem? k) else none := by
  split
  next inside => rw [row, List.getElem?_map, List.getElem?_range inside, Option.map_some]
  next outside => exact List.getElem?_eq_none (by rw [length_row]; omega)

theorem row_ofCount (count : Nat) : (ofCount count).row = List.replicate count none := by
  refine List.ext_getElem? fun k => ?_
  rw [getElem?_row, List.getElem?_replicate]
  rfl

theorem row_set {t : SlotTable} {id : Nat} (inside : id < t.count) (known : Snapshot) :
    row ⟨t.slots.set id known⟩ = t.row.set id (some { id, known }) := by
  refine List.ext_getElem? fun k => ?_
  have same : count ⟨t.slots.set id known⟩ = t.count := SlotMap.count_set ..
  rw [getElem?_row, modem?_set inside, same, List.getElem?_set, length_row, getElem?_row]
  grind

theorem row_learned (t : SlotTable) (id : Nat) (news : Update) :
    (t.learned id news).row =
      t.row.modify id (Option.map fun m => { m with known := m.known.learn news }) := by
  refine List.ext_getElem? fun k => ?_
  rw [getElem?_row, modem?_learned, count_learned, List.getElem?_modify, getElem?_row]
  grind

theorem row_remove (t : SlotTable) (id : Nat) : (t.remove id).1.row = t.row.set id none := by
  refine List.ext_getElem? fun k => ?_
  rw [getElem?_row, modem?_remove, count_remove, List.getElem?_set, length_row, getElem?_row]
  grind

theorem row_resize (t : SlotTable) (n : Nat) :
    (t.resize n).row = t.row.take n ++ List.replicate (n - t.count) none := by
  refine List.ext_getElem? fun k => ?_
  rw [getElem?_row, modem?_resize, count_resize, List.getElem?_append, List.length_take,
    length_row, List.getElem?_take, getElem?_row, List.getElem?_replicate]
  grind [modem?_eq_none_of_le]

/-- The table shows what each act writes into a plain row. -/
theorem row_act (t : SlotTable) (a : SlotAct) : (t.act a).row = a.write t.row := by
  cases a with
  | insert m =>
    rw [act, SlotAct.write, getElem?_row]
    rcases insert_cases t m with ⟨outside, refused⟩ | ⟨tracked, refused⟩ | ⟨inside, empty, done⟩
    · rw [refused, if_neg (Nat.not_lt.mpr outside)]
    · obtain ⟨held, shown⟩ := isTracked_iff.mp tracked
      rw [refused, if_pos (lt_count_of_modem? shown), shown]
    · rw [done, if_pos inside, empty]
      exact row_set inside m.known
  | learn id news => exact row_learned t id news
  | remove id => exact row_remove t id
  | resize count =>
    rw [act, row_resize, SlotAct.write, length_row]

theorem row_afterActs (t : SlotTable) (acts : List SlotAct) :
    (t.afterActs acts).row = acts.foldl SlotAct.write t.row := by
  induction acts generalizing t with
  | nil => rfl
  | cons a rest ih =>
    rw [List.foldl_cons, ← row_act]
    exact ih (t.act a)

theorem trackedIds_eq_filter (t : SlotTable) :
    t.trackedIds = (List.range t.count).filter t.isTracked := by
  have sorted : ((List.range t.count).filter t.isTracked).Pairwise (· < ·) :=
    List.pairwise_lt_range.filter _
  have same : t.tracked = ⟨_, sorted⟩ := SlotSet.ext_mem fun id => by
    rw [mem_tracked, SlotSet.mem_def, List.mem_filter, List.mem_range]
    refine ⟨fun tracked => ⟨?_, tracked⟩, And.right⟩
    obtain ⟨m, shown⟩ := isTracked_iff.mp tracked
    exact lt_count_of_modem? shown
  exact congrArg SlotSet.ids same

/-- The modems are met in the order of their slots. -/
theorem modems_eq_reduceOption (t : SlotTable) : t.modems = t.row.reduceOption := by
  rw [modems_eq_filterMap, trackedIds_eq_filter, List.filterMap_filter, row, List.reduceOption,
    List.filterMap_map]
  refine List.filterMap_congr fun id _ => ?_
  rw [Function.id_comp, isTracked]
  cases t.modem? id <;> rfl

theorem trackedIds_eq_map (t : SlotTable) : t.trackedIds = t.modems.map (·.id) := by
  rw [modems, List.map_map]
  rfl

theorem modem?_act_of_empty {t : SlotTable} {k : Nat} (empty : t.modem? k = none) {a : SlotAct}
    (untouched : ∀ m, a = .insert m → m.id ≠ k) : (t.act a).modem? k = none := by
  cases a with
  | insert m =>
    simp only [act]
    split
    next t' inserted => rw [modem?_insert inserted, if_neg (untouched m rfl).symm, empty]
    next => exact empty
  | learn id news =>
    rw [act, modem?_learned, empty]
    split
    next own => rw [← own, empty, Option.map_none]
    next => rfl
  | remove id => rw [act, modem?_remove, empty, ite_self]
  | resize count => rw [act, modem?_resize, empty, ite_self]

/-- What is empty stays empty until a modem is inserted there. -/
theorem modem?_afterActs_of_empty {t : SlotTable} {k : Nat} (empty : t.modem? k = none)
    {acts : List SlotAct} (untouched : ∀ m, .insert m ∈ acts → m.id ≠ k) :
    (t.afterActs acts).modem? k = none := by
  induction acts generalizing t with
  | nil => exact empty
  | cons a rest ih =>
    refine ih (modem?_act_of_empty empty fun m own => ?_) fun m later => ?_
    · exact untouched m (own ▸ List.mem_cons_self)
    · exact untouched m (List.mem_cons_of_mem a later)

/-- After any acts a table shows the row of slots that they write, where each modem is in the slot
of its own number, and lists the followed slots in their order. A modem is inserted just into an
empty slot of the table. What is done to one slot is done to it alone, a change of the count keeps
what is below it, and what it drops does not come back. -/
theorem shows_written_row (count : Nat) (acts : List SlotAct) :
    let t := (ofCount count).afterActs acts
    t.row = acts.foldl SlotAct.write (List.replicate count none) ∧
      (∀ (k : Nat) (m : Modem), t.row[k]? = some (some m) → m.id = k) ∧
      t.trackedIds = t.row.reduceOption.map (·.id) ∧
      t.trackedIds.Pairwise (· < ·) ∧
      (∀ id, id ∈ t.trackedIds ↔ t.isTracked id = true) ∧
      (∀ m : Modem,
        (t.insert m = .error (.outside m.id t.count) ↔ t.count ≤ m.id) ∧
        (t.insert m = .error (.alreadyTracked m.id) ↔ t.isTracked m.id = true) ∧
        (t.count ≤ m.id ∨ t.isTracked m.id = true → t.act (.insert m) = t) ∧
        (m.id < t.count → ¬ t.isTracked m.id = true →
          ∃ t', t.insert m = .ok t' ∧ t'.row = t.row.set m.id (some m))) ∧
      (∀ id news, (t.act (.learn id news)).row =
        t.row.modify id (Option.map fun m => { m with known := m.known.learn news })) ∧
      (∀ id, (t.remove id).1.row = t.row.set id none) ∧
      (∀ n, (t.resize n).row = t.row.take n ++ List.replicate (n - t.count) none) ∧
      ∀ n later k, n ≤ k → (∀ m, .insert m ∈ later → m.id ≠ k) →
        ((t.resize n).afterActs later).modem? k = none := by
  intro t
  have shown : t.row = acts.foldl SlotAct.write (List.replicate count none) := by
    rw [row_afterActs, row_ofCount]
  have placed : SlotAct.Placed t.row := by
    rw [shown]
    exact SlotAct.placed_foldl_write (SlotAct.placed_replicate count) acts
  refine ⟨shown, placed, ?_, t.tracked.sorted, fun id => mem_tracked, fun m => ?_,
    row_learned t, row_remove t, row_resize t, fun n later k dropped untouched => ?_⟩
  · rw [trackedIds_eq_map, modems_eq_reduceOption]
  · refine ⟨insert_outside_iff, insert_alreadyTracked_iff, fun refused => ?_,
      fun inside untracked => ?_⟩
    · rcases refused with outside | tracked
      · rw [act, insert_of_le outside]
      · rw [act, insert_of_tracked tracked]
    · have empty : t.modem? m.id = none := by simpa [isTracked] using untracked
      exact ⟨_, insert_of_empty inside empty, row_set inside m.known⟩
  · have empty : (t.resize n).modem? k = none := by
      rw [modem?_resize, if_neg (Nat.not_lt.mpr dropped)]
    exact modem?_afterActs_of_empty empty untouched

/-- The slot is there again, and empty. -/
example : ((ofCount 3).afterActs [.insert ⟨2, {}⟩, .resize 2, .resize 4]).trackedIds = [] := rfl

end SlotTable

end ModemSelect
