import Mathlib.Data.List.Nodup

namespace ModemSelect

variable {α : Type}

/-- A search by a key that no two entries share finds just the entry with the key. -/
theorem find?_key_eq_some {β : Type} [DecidableEq β] {f : α → β} {xs : List α}
    (h : (xs.map f).Nodup) {k : β} {x : α} :
    xs.find? (fun a => f a == k) = some x ↔ x ∈ xs ∧ f x = k := by
  constructor
  · intro hf
    exact ⟨List.mem_of_find?_eq_some hf, by simpa using List.find?_some hf⟩
  · intro hx
    obtain ⟨hm, rfl⟩ := hx
    cases hf : xs.find? (fun a => f a == f x) with
    | none =>
      have absent := List.find?_eq_none.mp hf x hm
      simp at absent
    | some y =>
      have same : f y = f x := by simpa using List.find?_some hf
      exact congrArg some (List.inj_on_of_nodup_map h (List.mem_of_find?_eq_some hf) hm same)

theorem getElem?_concat_cases {xs : List α} {y x : α} {i : Nat}
    (h : (xs ++ [y])[i]? = some x) : xs[i]? = some x ∨ i = xs.length ∧ x = y := by
  rcases Nat.lt_trichotomy i xs.length with hlt | rfl | hgt
  · rw [List.getElem?_append_left hlt] at h
    exact Or.inl h
  · simp only [List.getElem?_concat_length, Option.some.injEq] at h
    exact Or.inr ⟨rfl, h.symm⟩
  · rw [List.getElem?_eq_none (by simp; omega)] at h
    cases h

theorem length_take_of_getElem? {xs : List α} {x : α} {i : Nat}
    (h : xs[i]? = some x) : (xs.take i).length = i := by
  obtain ⟨hi, -⟩ := List.getElem?_eq_some_iff.mp h
  rw [List.length_take]
  omega

/-- The sort is stable: what is alike stays in the order that it had. -/
theorem pairwise_mergeSort_of_pairwise {le : α → α → Bool} {R : α → α → Prop}
    (trans : ∀ x y z, le x y = true → le y z = true → le x z = true)
    (total : ∀ x y, (le x y || le y x) = true) {xs : List α} (h : xs.Pairwise R) :
    (xs.mergeSort le).Pairwise fun x y => le x y = true ∧ (le y x = true → R x y) := by
  -- Each entry is numbered by its place, and the numbers decide among those that are alike.
  have sorted := List.pairwise_mergeSort (List.zipIdxLE_trans trans) (List.zipIdxLE_total total)
    xs.zipIdx
  have places : ((xs.zipIdx.mergeSort (List.zipIdxLE le)).map Prod.snd).Nodup := by
    refine ((List.mergeSort_perm _ _).map _).nodup_iff.mpr ?_
    rw [List.zipIdx_map_snd]
    exact List.nodup_range'
  rw [← List.mergeSort_zipIdx, List.pairwise_map]
  refine (sorted.and (List.pairwise_map.mp places)).imp_of_mem fun {x y} hx hy order => ?_
  obtain ⟨hle, hne⟩ := order
  have at_x := List.mem_zipIdx_iff_getElem?.mp (List.mem_mergeSort.mp hx)
  have at_y := List.mem_zipIdx_iff_getElem?.mp (List.mem_mergeSort.mp hy)
  obtain ⟨hi, he⟩ := List.getElem?_eq_some_iff.mp at_x
  obtain ⟨hj, he'⟩ := List.getElem?_eq_some_iff.mp at_y
  unfold List.zipIdxLE at hle
  split at hle
  next first =>
    refine ⟨first, fun back => ?_⟩
    rw [if_pos back, decide_eq_true_eq] at hle
    have less := List.pairwise_iff_getElem.mp h x.2 y.2 hi hj (by omega)
    rwa [he, he'] at less
  next => cases hle

end ModemSelect
