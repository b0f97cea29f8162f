import ModemSelect.Proofs.Lists
import ModemSelect.Slots.SlotView

namespace ModemSelect

/-- Two sets of the same slots list them alike. -/
theorem SlotSet.ext_mem {s t : SlotSet} (h : ∀ id, id ∈ s ↔ id ∈ t) : s = t := by
  have distinct : ∀ u : SlotSet, u.ids.Nodup := fun u => u.sorted.imp Nat.ne_of_lt
  have perm : s.ids.Perm t.ids := (List.perm_ext_iff_of_nodup (distinct s) (distinct t)).mpr h
  exact SlotSet.ext (perm.eq_of_pairwise (fun _ _ _ _ => by omega) s.sorted t.sorted)

theorem SlotMap.mem_filled {α : Type} {t : SlotMap α} {id : Nat} {a : α} :
    (id, a) ∈ t.filled ↔ t.get? id = some a := by
  rw [get?, List.lookup_eq_some_iff]
  constructor
  · intro h
    obtain ⟨before, after, he⟩ := List.append_of_mem h
    refine ⟨before, after, he, fun x hx => ?_⟩
    have sorted := t.sorted
    rw [he, List.map_append, List.map_cons] at sorted
    have hlt := (List.pairwise_append.mp sorted).2.2 x.1 (List.mem_map_of_mem hx) id (by simp)
    simpa using Nat.ne_of_gt hlt
  · intro h
    obtain ⟨before, after, he, -⟩ := h
    simp [he]

namespace SlotTable

variable {t : SlotTable} {features : Features} {scorer : Scorer}

theorem mem_standings {x : Standing} :
    x ∈ t.standings features scorer ↔
      ∃ m, t.modem? x.id = some m ∧ m.standing features scorer = x := by
  simp only [standings, modems, List.map_map, List.mem_map, modem?, Option.map_eq_some_iff]
  constructor
  · intro h
    obtain ⟨⟨id, known⟩, hm, rfl⟩ := h
    exact ⟨⟨id, known⟩, ⟨known, SlotMap.mem_filled.mp hm, rfl⟩, rfl⟩
  · intro h
    obtain ⟨m, ⟨known, hk, rfl⟩, hx⟩ := h
    exact ⟨(x.id, known), SlotMap.mem_filled.mpr hk, hx⟩

theorem modems_eq_filterMap : t.modems = t.trackedIds.filterMap t.modem? := by
  calc t.modems
      = t.slots.filled.filterMap (some ∘ fun x => Modem.mk x.1 x.2) := by
        rw [List.filterMap_eq_map]
        rfl
    _ = t.slots.filled.filterMap fun x => t.modem? x.1 := by
        refine List.filterMap_congr fun x hx => ?_
        rw [modem?, SlotMap.mem_filled.mp hx]
        rfl
    _ = t.trackedIds.filterMap t.modem? := by
        change _ = (t.slots.filled.map (·.1)).filterMap _
        rw [List.filterMap_map]
        rfl

theorem standings_eq_filterMap : t.standings features scorer =
    t.trackedIds.filterMap fun id => (t.modem? id).map (·.standing features scorer) := by
  rw [standings, modems_eq_filterMap, List.map_filterMap]

/-- The followed slots stand in their order. -/
theorem ids_standings : (t.standings features scorer).map (·.id) = t.trackedIds := by
  simp only [standings, modems, List.map_map]
  rfl

/-- A slot stands once. -/
theorem nodup_standings : ((t.standings features scorer).map (·.id)).Nodup := by
  rw [ids_standings]
  exact t.tracked.sorted.imp Nat.ne_of_lt

theorem find?_standings {id : Nat} {x : Standing} :
    (t.standings features scorer).find? (·.id == id) = some x ↔
      ∃ m, t.modem? id = some m ∧ m.standing features scorer = x := by
  rw [find?_key_eq_some nodup_standings, mem_standings]
  constructor
  · intro h
    obtain ⟨found, rfl⟩ := h
    exact found
  · intro h
    obtain ⟨m, hm, rfl⟩ := h
    have hid : (m.standing features scorer).id = id := id_of_modem? hm
    exact ⟨⟨m, hid.symm ▸ hm, rfl⟩, hid⟩

end SlotTable

end ModemSelect
