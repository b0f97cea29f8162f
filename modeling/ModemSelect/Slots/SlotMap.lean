import ModemSelect.Slots.SlotSet

namespace ModemSelect

/-- A row of slots, numbered from zero, each of them empty or filled. Only what fills a slot is
kept, in the order of the slots. -/
structure SlotMap (α : Type) where
  count : Nat
  filled : List (Nat × α)
  sorted : (filled.map (·.1)).Pairwise (· < ·)
  inside : ∀ id ∈ filled.map (·.1), id < count

namespace SlotMap

variable {α : Type}

private theorem sorted_nil : (([] : List (Nat × α)).map (·.1)).Pairwise (· < ·) :=
  List.Pairwise.nil

private theorem inside_nil (count : Nat) : ∀ id ∈ ([] : List (Nat × α)).map (·.1), id < count :=
  fun _ h => absurd h List.not_mem_nil

def ofCount (count : Nat) : SlotMap α where
  count
  filled := []
  sorted := sorted_nil
  inside := inside_nil count

/-- What a slot holds, nothing for an empty slot or one outside. -/
def get? (t : SlotMap α) (id : Nat) : Option α := t.filled.lookup id

def domain (t : SlotMap α) : SlotSet := ⟨t.filled.map (·.1), t.sorted⟩

private def put (id : Nat) (a : α) : List (Nat × α) → List (Nat × α)
  | [] => [(id, a)]
  | (k, b) :: rest =>
    if id < k then (id, a) :: (k, b) :: rest
    else if id = k then (id, a) :: rest
    else (k, b) :: put id a rest

private theorem keys_put (id : Nat) (a : α) (xs : List (Nat × α)) :
    (put id a xs).map (·.1) = SlotSet.insertSorted id (xs.map (·.1)) := by
  induction xs with
  | nil => rfl
  | cons x xs ih =>
    simp only [put, List.map_cons, SlotSet.insertSorted]
    split
    · rfl
    · split
      next he => simp [he]
      next => simp [ih]

/-- Fills a slot with something new; a slot outside cannot be filled. -/
def set (t : SlotMap α) (id : Nat) (a : α) : SlotMap α :=
  if h : id < t.count then
    { count := t.count
      filled := put id a t.filled
      sorted := by
        rw [keys_put]
        exact SlotSet.insertSorted_sorted t.sorted
      inside := by
        intro k hk
        rw [keys_put, SlotSet.mem_insertSorted] at hk
        rcases hk with rfl | hk
        · exact h
        · exact t.inside k hk }
  else t

/-- Keeps what fills the slots that pass the test. -/
def keep (t : SlotMap α) (test : Nat → Bool) : SlotMap α where
  count := t.count
  filled := t.filled.filter fun s => test s.1
  sorted := t.sorted.sublist (List.filter_sublist.map _)
  inside := fun id h => t.inside id ((List.filter_sublist.map _).subset h)

def erase (t : SlotMap α) (id : Nat) : SlotMap α := t.keep (· != id)

/-- Changes what a slot holds; an empty slot stays empty. -/
def modify (t : SlotMap α) (id : Nat) (f : α → α) : SlotMap α :=
  match t.get? id with
  | none => t
  | some a => t.set id (f a)

/-- Slots past the new count are dropped with what they hold; added slots are empty. -/
def resize (t : SlotMap α) (count : Nat) : SlotMap α where
  count
  filled := (t.keep (· < count)).filled
  sorted := (t.keep (· < count)).sorted
  inside := by
    intro id h
    obtain ⟨s, hs, rfl⟩ := List.mem_map.mp h
    simpa using (List.mem_filter.mp hs).2

@[simp] theorem count_set (t : SlotMap α) (id : Nat) (a : α) : (t.set id a).count = t.count := by
  unfold set
  split <;> rfl

@[simp] theorem count_modify (t : SlotMap α) (id : Nat) (f : α → α) :
    (t.modify id f).count = t.count := by
  unfold modify
  split <;> simp

@[simp] theorem count_resize (t : SlotMap α) (n : Nat) : (t.resize n).count = n := rfl

private theorem lookup_cons (k : Nat) (x : Nat × α) (xs : List (Nat × α)) :
    (x :: xs).lookup k = if k = x.1 then some x.2 else xs.lookup k := by
  rw [List.lookup_cons]
  by_cases h : k = x.1
  · simp [h]
  · simp [h, beq_eq_false_iff_ne.mpr h]

private theorem lookup_put (id k : Nat) (a : α) (xs : List (Nat × α)) :
    (put id a xs).lookup k = if k = id then some a else xs.lookup k := by
  induction xs with
  | nil => simp [put, lookup_cons]
  | cons x xs ih =>
    unfold put
    split
    · rw [lookup_cons]
    · split
      next he =>
        rw [lookup_cons, lookup_cons, he]
        split <;> rfl
      next =>
        rw [lookup_cons, lookup_cons, ih]
        grind

private theorem mem_keys_iff {k : Nat} {xs : List (Nat × α)} :
    k ∈ xs.map (·.1) ↔ (xs.lookup k).isSome = true := by
  induction xs with
  | nil => simp
  | cons x xs ih =>
    rw [List.map_cons, List.mem_cons, ih, lookup_cons]
    split
    next h => simp [h]
    next h => simp [h]

theorem mem_domain {t : SlotMap α} {id : Nat} : id ∈ t.domain ↔ (t.get? id).isSome = true :=
  mem_keys_iff

theorem get?_eq_none_of_le {t : SlotMap α} {id : Nat} (h : t.count ≤ id) : t.get? id = none := by
  rcases ho : t.get? id with _ | a
  · rfl
  · have hm : id ∈ t.domain := mem_domain.mpr (by simp [ho])
    have hlt := t.inside id hm
    omega

theorem get?_set {t : SlotMap α} {id : Nat} (h : id < t.count) (a : α) (k : Nat) :
    (t.set id a).get? k = if k = id then some a else t.get? k := by
  simp only [set, h, dite_true, get?]
  exact lookup_put id k a t.filled

theorem get?_keep (t : SlotMap α) (test : Nat → Bool) (k : Nat) :
    (t.keep test).get? k = if test k then t.get? k else none := by
  simp only [get?, keep]
  induction t.filled with
  | nil => simp
  | cons x xs ih =>
    rw [List.filter_cons, lookup_cons]
    split
    next ht =>
      rw [lookup_cons, ih]
      grind
    next ht =>
      rw [ih]
      grind

theorem get?_erase (t : SlotMap α) (id k : Nat) :
    (t.erase id).get? k = if k = id then none else t.get? k := by
  simp only [erase, get?_keep, bne_iff_ne, ne_eq]
  grind

theorem get?_modify (t : SlotMap α) (id k : Nat) (f : α → α) :
    (t.modify id f).get? k = if k = id then (t.get? id).map f else t.get? k := by
  unfold modify
  split
  next ho => grind
  next a ho =>
    have hlt : id < t.count := t.inside id (mem_domain.mpr (by simp [ho]))
    rw [get?_set hlt, ho]
    rfl

theorem get?_resize (t : SlotMap α) (n k : Nat) :
    (t.resize n).get? k = if k < n then t.get? k else none := by
  have h := t.get?_keep (· < n) k
  simp only [decide_eq_true_eq] at h
  exact h

private theorem lookup_eq_none (xs : List (Nat × α)) {k : Nat}
    (h : ∀ j ∈ xs.map (·.1), k < j) : xs.lookup k = none := by
  rcases ho : xs.lookup k with _ | a
  · rfl
  · have hm : k ∈ xs.map (·.1) := mem_keys_iff.mpr (by simp [ho])
    exact absurd (h k hm) (Nat.lt_irrefl k)

private theorem filled_unique {xs ys : List (Nat × α)}
    (hx : (xs.map (·.1)).Pairwise (· < ·)) (hy : (ys.map (·.1)).Pairwise (· < ·))
    (holds : ∀ id, xs.lookup id = ys.lookup id) : xs = ys := by
  induction xs generalizing ys with
  | nil =>
    cases ys with
    | nil => rfl
    | cons y ys =>
      have h := holds y.1
      simp [lookup_cons] at h
  | cons x xs ih =>
    cases ys with
    | nil =>
      have h := holds x.1
      simp [lookup_cons] at h
    | cons y ys =>
      obtain ⟨hx1, hx2⟩ := List.pairwise_cons.mp hx
      obtain ⟨hy1, hy2⟩ := List.pairwise_cons.mp hy
      have hkey : x.1 = y.1 := by
        rcases Nat.lt_trichotomy x.1 y.1 with hlt | he | hgt
        · have h := holds x.1
          rw [lookup_eq_none (y :: ys)] at h
          · simp [lookup_cons] at h
          · intro j hj
            rcases List.mem_cons.mp hj with rfl | hj
            · exact hlt
            · exact Nat.lt_trans hlt (hy1 j hj)
        · exact he
        · have h := holds y.1
          rw [lookup_eq_none (x :: xs)] at h
          · simp [lookup_cons] at h
          · intro j hj
            rcases List.mem_cons.mp hj with rfl | hj
            · exact hgt
            · exact Nat.lt_trans hgt (hx1 j hj)
      have hval : x.2 = y.2 := by
        have h := holds x.1
        simpa [lookup_cons, hkey] using h
      rw [ih hx2 hy2 fun k => ?_]
      · exact congrArg (· :: ys) (Prod.ext hkey hval)
      · have h := holds k
        rw [lookup_cons, lookup_cons, ← hkey] at h
        by_cases hk : k = x.1
        · rw [lookup_eq_none xs (hk ▸ hx1), lookup_eq_none ys (hk ▸ hkey ▸ hy1)]
        · simpa [hk] using h

theorem ext_get? {s t : SlotMap α} (count : s.count = t.count)
    (holds : ∀ id, s.get? id = t.get? id) : s = t := by
  obtain ⟨m, xs, hx, _⟩ := s
  obtain ⟨n, ys, hy, _⟩ := t
  cases count
  have he : xs = ys := filled_unique hx hy holds
  cases he
  rfl

end SlotMap

end ModemSelect
