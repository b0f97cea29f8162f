import ModemSelect.Schedule.Queue

namespace ModemSelect.Queue

theorem mem_due {q : Queue} {now : Nat} {key : TimerKey} :
    key ∈ q.due now ↔ ∃ d, q.deadline? key = some d ∧ d ≤ now := by
  simp only [due, List.mem_map, List.mem_mergeSort, List.mem_filter, List.mem_filterMap,
    Option.map_eq_some_iff, decide_eq_true_eq]
  constructor
  · intro h
    obtain ⟨e, ⟨⟨k, -, d, hd, rfl⟩, hle⟩, rfl⟩ := h
    exact ⟨d, hd, hle⟩
  · intro h
    obtain ⟨d, hd, hle⟩ := h
    exact ⟨(d, key), ⟨⟨key, TimerKey.mem_all key, d, hd, rfl⟩, hle⟩, rfl⟩

theorem nodup_due (q : Queue) (now : Nat) : (q.due now).Nodup := by
  have entries : ((TimerKey.all.filterMap fun key =>
      (q.deadline? key).map fun d => (d, key)).map (·.2)).Nodup := by
    cases he : q.deadline? .evaluate <;> cases hs : q.deadline? .stabilityCheck <;>
      simp [TimerKey.all, he, hs]
  unfold due
  exact ((List.mergeSort_perm _ _).map _).nodup_iff.mpr
    (entries.sublist (List.filter_sublist.map _))

theorem deadline?_foldl_disarm (q : Queue) (keys : List TimerKey) (k : TimerKey) :
    (keys.foldl (fun q key => (q.disarm key).1) q).deadline? k = if k ∈ keys then none else q.deadline? k := by
  induction keys generalizing q with
  | nil => simp
  | cons key rest ih =>
    rw [List.foldl_cons, ih, deadline?_disarm]
    by_cases hr : k ∈ rest
    · simp [hr]
    · by_cases hk : k = key <;> simp [hr, hk]

/-- Only the deadlines that have not passed are left. -/
theorem deadline?_dropDue (q : Queue) (now : Nat) (k : TimerKey) :
    (q.dropDue now).deadline? k = (q.deadline? k).filter (now < ·) := by
  rw [dropDue, deadline?_foldl_disarm]
  cases hd : q.deadline? k with
  | none => simp
  | some d =>
    by_cases hle : d ≤ now
    · have hm : k ∈ q.due now := mem_due.mpr ⟨d, hd, hle⟩
      simp [hm, Option.filter, hle]
    · have hm : k ∉ q.due now := by
        intro h
        obtain ⟨d', hd', hle'⟩ := mem_due.mp h
        rw [hd] at hd'
        cases hd'
        exact hle hle'
      simp [hm, Option.filter, Nat.lt_of_not_le hle]

theorem nextDeadline_eq_none_iff {q : Queue} :
    q.nextDeadline = none ↔ ∀ key, q.deadline? key = none := by
  simp [nextDeadline, TimerKey.mem_all]

theorem nextDeadline_eq_some_iff {q : Queue} {d : Nat} :
    q.nextDeadline = some d ↔
      (∃ key, q.deadline? key = some d) ∧ ∀ key d', q.deadline? key = some d' → d ≤ d' := by
  simp only [nextDeadline, List.min?_eq_some_iff, List.mem_filterMap, TimerKey.mem_all, true_and]
  refine and_congr_right fun _ => ⟨?_, ?_⟩
  · intro least key d' hd'
    exact least d' ⟨key, hd'⟩
  · intro least d' hd'
    obtain ⟨key, hd'⟩ := hd'
    exact least key d' hd'

end ModemSelect.Queue
