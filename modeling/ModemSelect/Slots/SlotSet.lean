namespace ModemSelect

/-- A finite set of slots, listed in increasing order; slots are numbered from zero. -/
structure SlotSet where
  ids : List Nat := []
  sorted : ids.Pairwise (· < ·) := by exact List.Pairwise.nil

namespace SlotSet

theorem ext {s t : SlotSet} (h : s.ids = t.ids) : s = t := by
  cases s; cases t; cases h; rfl

instance : Membership Nat SlotSet := ⟨fun s id => id ∈ s.ids⟩

instance (id : Nat) (s : SlotSet) : Decidable (id ∈ s) :=
  inferInstanceAs (Decidable (id ∈ s.ids))

theorem mem_def {id : Nat} {s : SlotSet} : id ∈ s ↔ id ∈ s.ids := Iff.rfl

def empty : SlotSet := {}

def size (s : SlotSet) : Nat := s.ids.length

def contains (s : SlotSet) (id : Nat) : Bool := s.ids.contains id

/-- Puts a slot into an increasing list, once. -/
def insertSorted (id : Nat) : List Nat → List Nat
  | [] => [id]
  | x :: xs =>
    if id < x then id :: x :: xs
    else if id = x then x :: xs
    else x :: insertSorted id xs

theorem mem_insertSorted {id y : Nat} {xs : List Nat} :
    y ∈ insertSorted id xs ↔ y = id ∨ y ∈ xs := by
  induction xs with
  | nil => simp [insertSorted]
  | cons x xs ih =>
    unfold insertSorted
    split
    · simp
    · split
      next he => subst he; simp
      next => simp only [List.mem_cons, ih]; grind

theorem insertSorted_sorted {id : Nat} {xs : List Nat}
    (h : xs.Pairwise (· < ·)) : (insertSorted id xs).Pairwise (· < ·) := by
  induction xs with
  | nil => exact List.pairwise_singleton ..
  | cons x xs ih =>
    have hs := List.pairwise_cons.mp h
    unfold insertSorted
    split
    next hlt =>
      refine List.pairwise_cons.mpr ⟨fun y hy => ?_, h⟩
      rcases List.mem_cons.mp hy with rfl | hy
      · exact hlt
      · exact Nat.lt_trans hlt (hs.1 y hy)
    next hge =>
      split
      · exact h
      next hne =>
        refine List.pairwise_cons.mpr ⟨fun y hy => ?_, ih hs.2⟩
        rcases mem_insertSorted.mp hy with rfl | hy
        · omega
        · exact hs.1 y hy

def insert (s : SlotSet) (id : Nat) : SlotSet :=
  ⟨insertSorted id s.ids, insertSorted_sorted s.sorted⟩

def erase (s : SlotSet) (id : Nat) : SlotSet :=
  ⟨s.ids.filter (· != id), s.sorted.filter _⟩

def union (s t : SlotSet) : SlotSet := t.ids.foldr (fun id u => u.insert id) s

def ofList (ids : List Nat) : SlotSet := ids.foldr (fun id s => s.insert id) empty

@[simp] theorem mem_insert {s : SlotSet} {id y : Nat} : y ∈ s.insert id ↔ y = id ∨ y ∈ s :=
  mem_insertSorted

@[simp] theorem mem_erase {s : SlotSet} {id y : Nat} : y ∈ s.erase id ↔ y ∈ s ∧ y ≠ id := by
  simp [mem_def, erase]

@[simp] theorem not_mem_empty (id : Nat) : id ∉ empty := by simp [mem_def, empty]

theorem contains_iff {s : SlotSet} {id : Nat} : s.contains id = true ↔ id ∈ s := by
  simp [contains, mem_def]

private theorem mem_foldr_insert {ids : List Nat} {s : SlotSet} {y : Nat} :
    y ∈ ids.foldr (fun id u => u.insert id) s ↔ y ∈ s ∨ y ∈ ids := by
  induction ids with
  | nil => simp
  | cons x xs ih => simp only [List.foldr_cons, mem_insert, ih, List.mem_cons]; grind

@[simp] theorem mem_union {s t : SlotSet} {y : Nat} : y ∈ s.union t ↔ y ∈ s ∨ y ∈ t :=
  mem_foldr_insert

@[simp] theorem mem_ofList {ids : List Nat} {y : Nat} : y ∈ ofList ids ↔ y ∈ ids := by
  simp [ofList, mem_foldr_insert]

end SlotSet

end ModemSelect
