import ModemSelect.Slots.SlotTable

namespace ModemSelect.SlotTable

@[simp] theorem modem?_ofCount (n id : Nat) : (ofCount n).modem? id = none := rfl

theorem modem?_eq_none_of_le {t : SlotTable} {id : Nat} (h : t.count ≤ id) :
    t.modem? id = none := by
  rw [modem?, SlotMap.get?_eq_none_of_le h]
  rfl

theorem lt_count_of_modem? {t : SlotTable} {id : Nat} {m : Modem}
    (h : t.modem? id = some m) : id < t.count := by
  rcases Nat.lt_or_ge id t.count with hlt | hge
  · exact hlt
  · rw [modem?_eq_none_of_le hge] at h
    cases h

theorem id_of_modem? {t : SlotTable} {id : Nat} {m : Modem} (h : t.modem? id = some m) :
    m.id = id := by
  obtain ⟨known, -, rfl⟩ := Option.map_eq_some_iff.mp h
  rfl

theorem isTracked_iff {t : SlotTable} {id : Nat} :
    t.isTracked id = true ↔ ∃ m, t.modem? id = some m := by
  rw [isTracked, Option.isSome_iff_exists]

theorem mem_tracked {t : SlotTable} {id : Nat} : id ∈ t.tracked ↔ t.isTracked id = true := by
  rw [tracked, SlotMap.mem_domain, isTracked, modem?, Option.isSome_map]

theorem get_eq_ok_iff {t : SlotTable} {id : Nat} {m : Modem} :
    t.get id = .ok m ↔ t.modem? id = some m := by
  unfold get
  split
  · cases t.modem? id <;> simp
  next h =>
    rw [modem?_eq_none_of_le (Nat.le_of_not_lt h)]
    simp

theorem modem?_set {t : SlotTable} {id : Nat} (h : id < t.count) (known : Snapshot) (k : Nat) :
    modem? ⟨t.slots.set id known⟩ k = if k = id then some { id, known } else t.modem? k := by
  simp only [modem?, SlotMap.get?_set h]
  split
  next he => simp [he]
  next => rfl

theorem count_insert {t t' : SlotTable} {m : Modem} (h : t.insert m = .ok t') :
    t'.count = t.count := by
  unfold insert at h
  split at h
  · split at h
    · cases h
    · cases h
      simp [count]
  · cases h

/-- A modem is inserted into an empty slot of the table, and only there. -/
theorem modem?_insert {t t' : SlotTable} {m : Modem} (h : t.insert m = .ok t') (k : Nat) :
    t'.modem? k = if k = m.id then some m else t.modem? k := by
  unfold insert at h
  split at h
  next hlt =>
    split at h
    · cases h
    · cases h
      exact modem?_set hlt m.known k
  next => cases h

@[simp] theorem count_remove (t : SlotTable) (id : Nat) : (t.remove id).1.count = t.count := rfl

theorem modem?_remove (t : SlotTable) (id k : Nat) :
    (t.remove id).1.modem? k = if k = id then none else t.modem? k := by
  simp only [modem?, remove, SlotMap.get?_erase]
  split <;> rfl

@[simp] theorem count_resize (t : SlotTable) (n : Nat) : (t.resize n).count = n := rfl

theorem modem?_resize (t : SlotTable) (n k : Nat) :
    (t.resize n).modem? k = if k < n then t.modem? k else none := by
  simp only [modem?, resize, SlotMap.get?_resize]
  split <;> rfl

theorem modem?_learn {t t' : SlotTable} {id : Nat} {news : Update} {isNews : Bool}
    (h : t.learn id news = .ok (t', isNews)) (k : Nat) :
    t'.modem? k = if k = id then (t.modem? id).map fun m =>
      { m with known := m.known.learn news } else t.modem? k := by
  unfold learn at h
  split at h
  next => cases h
  next m hm =>
    have hg := get_eq_ok_iff.mp hm
    cases h
    rw [modem?_set (lt_count_of_modem? hg), hg, ← id_of_modem? hg]
    rfl

/-- What is no news leaves the table as it is. -/
theorem learn_of_known {t t' : SlotTable} {id : Nat} {news : Update}
    (h : t.learn id news = .ok (t', false)) : t' = t := by
  unfold learn at h
  cases found : t.get id with
  | error error => simp [found] at h
  | ok m =>
    have shown := get_eq_ok_iff.mp found
    have inside := lt_count_of_modem? shown
    have held : t.slots.get? id = some m.known := by
      rw [modem?, Option.map_eq_some_iff] at shown
      obtain ⟨known, hk, rfl⟩ := shown
      exact hk
    simp only [found, Except.ok.injEq, Prod.mk.injEq, Bool.not_eq_false'] at h
    obtain ⟨rfl, knows⟩ := h
    have same : t.slots.set id (m.known.learn news) = t.slots := by
      refine SlotMap.ext_get? (SlotMap.count_set ..) fun k => ?_
      rw [SlotMap.get?_set inside, Snapshot.learn_of_knows knows]
      split
      next he => rw [he, held]
      next => rfl
    exact congrArg SlotTable.mk same

end ModemSelect.SlotTable
