import Mathlib.Data.List.DropRight
import Mathlib.Data.List.Induction
import ModemSelect.Journal

namespace ModemSelect.Journal

/-- A new journal after the given entries. -/
def after (capacity : Nat) (pushed : List Entry) : Journal :=
  pushed.foldl push (ofCapacity capacity)

theorem after_concat (capacity : Nat) (pushed : List Entry) (entry : Entry) :
    after capacity (pushed ++ [entry]) = (after capacity pushed).push entry :=
  List.foldl_append

/-- The journal has the newest of all the entries pushed, as many as it has room for. -/
structure Keeps (j : Journal) (pushed : List Entry) : Prop where
  positive : 0 < j.capacity
  entries : j.entries = pushed.rtake j.capacity

theorem length_rtake (xs : List Entry) (n : Nat) : (xs.rtake n).length = min xs.length n := by
  rw [List.rtake, List.length_drop]
  omega

theorem rtake_of_length_le {xs : List Entry} {n : Nat} (short : xs.length ≤ n) :
    xs.rtake n = xs := by
  rw [List.rtake, Nat.sub_eq_zero_of_le short, List.drop_zero]

theorem rtake_rtake (xs : List Entry) {m n : Nat} (fewer : m ≤ n) :
    (xs.rtake n).rtake m = xs.rtake m := by
  rw [List.rtake, length_rtake, List.rtake, List.drop_drop, List.rtake]
  congr 1
  omega

namespace Keeps

variable {j : Journal} {pushed : List Entry} (keeps : j.Keeps pushed) (entry : Entry)
include keeps

/-- Of the entries that fill a journal the oldest is just the one that has to go. -/
theorem push_eq : j.push entry = ⟨j.capacity, j.entries.rtake (j.capacity - 1) ++ [entry]⟩ := by
  obtain ⟨positive, entries⟩ := keeps
  have size : j.entries.length = min pushed.length j.capacity := by rw [entries, length_rtake]
  rw [Journal.push]
  split
  next full =>
    have oldest : j.entries.length - (j.capacity - 1) = 1 := by omega
    rw [List.rtake, oldest]
  next free => rw [rtake_of_length_le (by omega)]

theorem push : (j.push entry).Keeps (pushed ++ [entry]) := by
  rw [keeps.push_eq]
  obtain ⟨positive, entries⟩ := keeps
  refine ⟨positive, ?_⟩
  obtain ⟨n, room⟩ := Nat.exists_eq_add_one.mpr positive
  rw [room] at entries
  rw [entries, room, Nat.add_sub_cancel, rtake_rtake _ (Nat.le_succ n), List.rtake_concat_succ]

end Keeps

theorem capacity_after (capacity : Nat) (pushed : List Entry) :
    (after capacity pushed).capacity = max capacity 1 := by
  induction pushed using List.reverseRecOn with
  | nil => rfl
  | append_singleton pushed entry ih =>
    rw [after_concat]
    exact ih

theorem keeps_after (capacity : Nat) (pushed : List Entry) :
    (after capacity pushed).Keeps pushed := by
  induction pushed using List.reverseRecOn with
  | nil => exact ⟨Nat.lt_of_lt_of_le Nat.one_pos (Nat.le_max_right _ _), (List.rtake_nil _).symm⟩
  | append_singleton pushed entry ih =>
    rw [after_concat]
    exact ih.push entry

theorem last?_after (capacity : Nat) (pushed : List Entry) :
    (after capacity pushed).last? = pushed.getLast? := by
  rcases List.eq_nil_or_concat pushed with rfl | ⟨before, entry, rfl⟩
  · rfl
  · rw [List.concat_eq_append, after_concat, last?_push, List.getLast?_concat]

/-- After any entries a journal has the newest of them in their order: all of them, or as many as
it takes, which is never less than one. Its size and its ends are those of what it has. -/
theorem keeps_newest (capacity : Nat) (pushed : List Entry) :
    let j := after capacity pushed
    let kept := min pushed.length (max capacity 1)
    j.entries = pushed.rtake kept ∧ j.size = kept ∧ (j.isEmpty = true ↔ pushed = []) ∧
      j.first? = pushed[pushed.length - kept]? ∧ j.last? = pushed.getLast? := by
  intro j kept
  have entries : j.entries = pushed.rtake kept := by
    rw [(keeps_after capacity pushed).entries, capacity_after, List.rtake, List.rtake]
    congr 1
    omega
  have size : j.entries.length = kept := by
    rw [entries, length_rtake]
    omega
  refine ⟨entries, size, ?_, ?_, last?_after capacity pushed⟩
  · rw [isEmpty, List.isEmpty_iff_length_eq_zero, size, ← List.length_eq_zero_iff]
    omega
  · rw [first?, entries, List.rtake, List.head?_drop]

/-- Without any capacity a journal has the last entry all the same. -/
example : (after 0 [⟨1, "armed"⟩, ⟨2, "cancelled"⟩]).entries = [⟨2, "cancelled"⟩] := rfl

end ModemSelect.Journal
