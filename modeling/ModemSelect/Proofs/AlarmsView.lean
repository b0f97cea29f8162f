import ModemSelect.Proofs.Lists
import ModemSelect.Schedule.Alarms

namespace ModemSelect.Alarms

/-- No timer has two listeners, no listener has two alarms, and each alarm calls a listener that
some timer has. -/
structure WellFormed (a : Alarms) : Prop where
  listeners : a.listeners.Nodup
  single : (a.outstanding.map (·.listener)).Nodup
  owned : ∀ x ∈ a.outstanding, x.listener < a.listeners.length

theorem wellFormed_empty : WellFormed {} :=
  ⟨List.nodup_nil, List.nodup_nil, fun _ h => absurd h List.not_mem_nil⟩

theorem getElem?_of_listener? {a : Alarms} {key : TimerKey} {l : Nat}
    (h : a.listener? key = some l) : a.listeners[l]? = some key := by
  obtain ⟨hl, hk, -⟩ := List.findIdx?_eq_some_iff_getElem.mp h
  rw [List.getElem?_eq_getElem hl]
  exact congrArg some (by simpa using hk)

theorem listener?_eq_some {a : Alarms} (h : a.listeners.Nodup) {key : TimerKey} {l : Nat} :
    a.listener? key = some l ↔ a.listeners[l]? = some key := by
  refine ⟨getElem?_of_listener?, fun hg => ?_⟩
  obtain ⟨hl, hk⟩ := List.getElem?_eq_some_iff.mp hg
  refine List.findIdx?_eq_some_iff_getElem.mpr ⟨hl, by simpa using hk, fun j hj hjk => ?_⟩
  have he : a.listeners[j] = a.listeners[l] := by
    rw [hk]
    simpa using hjk
  have := (List.getElem_inj h).mp he
  omega

/-- A timer is armed for the deadline of the alarm that calls its listener. -/
theorem deadline?_eq_some {a : Alarms} (h : a.WellFormed) {key : TimerKey} {d : Nat} :
    a.deadline? key = some d ↔ ∃ l, a.listeners[l]? = some key ∧ ⟨l, d⟩ ∈ a.outstanding := by
  simp only [deadline?, Option.map_eq_some_iff, Option.bind_eq_some_iff,
    listener?_eq_some h.listeners, alarm?, find?_key_eq_some h.single]
  constructor
  · intro hd
    obtain ⟨⟨l', d'⟩, ⟨l, hl, hx, rfl⟩, rfl⟩ := hd
    exact ⟨l', hl, hx⟩
  · intro hd
    obtain ⟨l, hl, hx⟩ := hd
    exact ⟨⟨l, d⟩, ⟨l, hl, hx, rfl⟩, rfl⟩

theorem wellFormed_of_sublist {a : Alarms} (h : a.WellFormed) {xs : List Alarm}
    (hs : xs.Sublist a.outstanding) : WellFormed { a with outstanding := xs } where
  listeners := h.listeners
  single := h.single.sublist (hs.map _)
  owned := fun x hx => h.owned x (hs.subset hx)

theorem wellFormed_unset {a : Alarms} (h : a.WellFormed) (l : Nat) : (a.unset l).WellFormed :=
  wellFormed_of_sublist h List.filter_sublist

theorem wellFormed_disarm {a : Alarms} (h : a.WellFormed) (key : TimerKey) :
    (a.disarm key).1.WellFormed := by
  unfold disarm
  split
  · exact wellFormed_unset h _
  · exact h

theorem wellFormed_dropDue {a : Alarms} (h : a.WellFormed) (now : Nat) :
    (a.dropDue now).WellFormed :=
  wellFormed_of_sublist h List.filter_sublist

theorem not_mem_listeners {a : Alarms} {key : TimerKey} (h : a.listener? key = none) :
    key ∉ a.listeners := by
  intro hm
  simpa using List.findIdx?_eq_none_iff.mp h key hm

theorem ne_of_mem_unset {a : Alarms} {l : Nat} :
    ∀ x ∈ (a.unset l).outstanding, x.listener ≠ l := by
  intro x hx
  simpa using (List.mem_filter.mp hx).2

section Arming

variable {a : Alarms} (h : a.WellFormed)
include h

theorem wellFormed_append {l : Nat} (hl : l < a.listeners.length)
    (free : ∀ x ∈ a.outstanding, x.listener ≠ l) (d : Nat) :
    WellFormed { a with outstanding := a.outstanding ++ [⟨l, d⟩] } where
  listeners := h.listeners
  single := by
    rw [List.map_append]
    refine List.nodup_append.mpr ⟨h.single, by simp, ?_⟩
    intro i hi b hb
    obtain ⟨x, hx, rfl⟩ := List.mem_map.mp hi
    cases List.mem_singleton.mp hb
    exact free x hx
  owned := by
    intro x hx
    rcases List.mem_append.mp hx with hx | hx
    · exact h.owned x hx
    · cases List.mem_singleton.mp hx
      exact hl

theorem deadline?_append {key : TimerKey} {l : Nat} (hl : a.listeners[l]? = some key)
    (free : ∀ x ∈ a.outstanding, x.listener ≠ l) (d : Nat) (k : TimerKey) :
    deadline? { a with outstanding := a.outstanding ++ [⟨l, d⟩] } k =
      if k = key then some d else a.deadline? k := by
  obtain ⟨hlt, -⟩ := List.getElem?_eq_some_iff.mp hl
  apply Option.ext
  intro d'
  rw [deadline?_eq_some (wellFormed_append h hlt free d)]
  simp only [List.mem_append, List.mem_singleton, Alarm.mk.injEq]
  split
  next he =>
    subst he
    constructor
    · intro hd
      obtain ⟨l', hl', hx | ⟨-, rfl⟩⟩ := hd
      · have same := ((listener?_eq_some h.listeners).mpr hl').symm.trans
          ((listener?_eq_some h.listeners).mpr hl)
        exact absurd (Option.some.inj same) (free _ hx)
      · rfl
    · intro hd
      exact ⟨l, hl, Or.inr ⟨rfl, (Option.some.inj hd).symm⟩⟩
  next hne =>
    rw [deadline?_eq_some h]
    constructor
    · intro hd
      obtain ⟨l', hl', hx | ⟨rfl, rfl⟩⟩ := hd
      · exact ⟨l', hl', hx⟩
      · rw [hl] at hl'
        exact absurd (Option.some.inj hl').symm hne
    · intro hd
      obtain ⟨l', hl', hx⟩ := hd
      exact ⟨l', hl', Or.inl hx⟩

theorem deadline?_unset {key : TimerKey} {l : Nat} (hl : a.listeners[l]? = some key)
    (k : TimerKey) : (a.unset l).deadline? k = if k = key then none else a.deadline? k := by
  apply Option.ext
  intro d
  rw [deadline?_eq_some (wellFormed_unset h l)]
  simp only [unset, List.mem_filter, bne_iff_ne, ne_eq]
  split
  next he =>
    subst he
    simp only [reduceCtorEq, iff_false]
    intro hd
    obtain ⟨l', hl', -, hne⟩ := hd
    have same := ((listener?_eq_some h.listeners).mpr hl').symm.trans
      ((listener?_eq_some h.listeners).mpr hl)
    exact hne (Option.some.inj same)
  next hne =>
    rw [deadline?_eq_some h]
    constructor
    · intro hd
      obtain ⟨l', hl', hx, -⟩ := hd
      exact ⟨l', hl', hx⟩
    · intro hd
      obtain ⟨l', hl', hx⟩ := hd
      refine ⟨l', hl', hx, fun he => hne ?_⟩
      rw [he, hl] at hl'
      exact (Option.some.inj hl').symm

/-- A new listener has no alarm yet. -/
theorem wellFormed_hire {key : TimerKey} (new : key ∉ a.listeners) :
    WellFormed { a with listeners := a.listeners ++ [key] } where
  listeners := by
    refine List.nodup_append.mpr ⟨h.listeners, by simp, ?_⟩
    intro k hk b hb
    cases List.mem_singleton.mp hb
    exact fun he => new (he ▸ hk)
  single := h.single
  owned := by
    intro x hx
    rw [List.length_append]
    exact Nat.lt_add_right _ (h.owned x hx)

theorem deadline?_hire {key : TimerKey} (new : key ∉ a.listeners) (k : TimerKey) :
    deadline? { a with listeners := a.listeners ++ [key] } k = a.deadline? k := by
  apply Option.ext
  intro d
  rw [deadline?_eq_some (wellFormed_hire h new), deadline?_eq_some h]
  constructor
  · intro hd
    obtain ⟨l, hl, hx⟩ := hd
    exact ⟨l, by rwa [List.getElem?_append_left (h.owned _ hx)] at hl, hx⟩
  · intro hd
    obtain ⟨l, hl, hx⟩ := hd
    exact ⟨l, by rwa [List.getElem?_append_left (h.owned _ hx)], hx⟩

theorem wellFormed_arm (key : TimerKey) (d : Nat) : (a.arm key d).WellFormed := by
  unfold arm
  split
  next l hl =>
    obtain ⟨hlt, -⟩ := List.getElem?_eq_some_iff.mp (getElem?_of_listener? hl)
    exact wellFormed_append (wellFormed_unset h l) hlt ne_of_mem_unset d
  next hn =>
    have hired := wellFormed_hire h (not_mem_listeners hn)
    have room : a.listeners.length < (a.listeners ++ [key]).length := by simp
    exact wellFormed_append hired room (fun x hx => Nat.ne_of_lt (h.owned x hx)) d

theorem deadline?_disarm (key k : TimerKey) :
    (a.disarm key).1.deadline? k = if k = key then none else a.deadline? k := by
  unfold disarm
  split
  next l hl => exact deadline?_unset h (getElem?_of_listener? hl) k
  next hn =>
    split
    next he =>
      subst he
      simp [deadline?, hn]
    next => rfl

theorem deadline?_arm (key k : TimerKey) (d : Nat) :
    (a.arm key d).deadline? k = if k = key then some d else a.deadline? k := by
  unfold arm
  split
  next l hl =>
    have hkey := getElem?_of_listener? hl
    refine (deadline?_append (wellFormed_unset h l) hkey ne_of_mem_unset d k).trans ?_
    rw [deadline?_unset h hkey]
    split <;> rfl
  next hn =>
    have hired := wellFormed_hire h (not_mem_listeners hn)
    have last : (a.listeners ++ [key])[a.listeners.length]? = some key :=
      List.getElem?_concat_length
    have free : ∀ x ∈ a.outstanding, x.listener ≠ a.listeners.length :=
      fun x hx => Nat.ne_of_lt (h.owned x hx)
    refine (deadline?_append hired last free d k).trans ?_
    rw [deadline?_hire h (not_mem_listeners hn)]

end Arming

theorem deadline?_dropDue {a : Alarms} (h : a.WellFormed) (now : Nat) (k : TimerKey) :
    (a.dropDue now).deadline? k = (a.deadline? k).filter (now < ·) := by
  apply Option.ext
  intro d
  rw [deadline?_eq_some (wellFormed_dropDue h now), Option.filter_eq_some_iff,
    deadline?_eq_some h]
  simp only [dropDue, List.mem_filter, decide_eq_true_eq]
  constructor
  · intro hd
    obtain ⟨l, hl, hx, hlt⟩ := hd
    exact ⟨⟨l, hl, hx⟩, hlt⟩
  · intro hd
    obtain ⟨⟨l, hl, hx⟩, hlt⟩ := hd
    exact ⟨l, hl, hx, hlt⟩

theorem mem_due {a : Alarms} (h : a.WellFormed) {now : Nat} {key : TimerKey} :
    key ∈ a.due now ↔ ∃ d, a.deadline? key = some d ∧ d ≤ now := by
  simp only [due, dueAlarms, List.mem_filterMap, List.mem_mergeSort, List.mem_filter,
    decide_eq_true_eq, deadline?_eq_some h]
  constructor
  · intro hk
    obtain ⟨x, ⟨hx, hle⟩, hl⟩ := hk
    exact ⟨x.deadline, ⟨x.listener, hl, hx⟩, hle⟩
  · intro hk
    obtain ⟨d, ⟨l, hl, hx⟩, hle⟩ := hk
    exact ⟨⟨l, d⟩, ⟨hx, hle⟩, hl⟩

theorem nodup_dueAlarms {a : Alarms} (h : a.WellFormed) (now : Nat) :
    ((a.dueAlarms now).map (·.listener)).Nodup := by
  unfold dueAlarms
  exact ((List.mergeSort_perm _ _).map _).nodup_iff.mpr
    (h.single.sublist (List.filter_sublist.map _))

/-- Alarms of different listeners are for different timers. -/
theorem nodup_keys {a : Alarms} (h : a.WellFormed) {xs : List Alarm}
    (distinct : (xs.map (·.listener)).Nodup) :
    (xs.filterMap fun x => a.listeners[x.listener]?).Nodup := by
  refine List.pairwise_filterMap.mpr ((List.pairwise_map.mp distinct).imp ?_)
  intro x y hne k hk k' hk' he
  subst he
  have hx := (listener?_eq_some h.listeners).mpr hk
  have hy := (listener?_eq_some h.listeners).mpr hk'
  rw [hx] at hy
  exact hne (Option.some.inj hy)

theorem nodup_due {a : Alarms} (h : a.WellFormed) (now : Nat) : (a.due now).Nodup :=
  nodup_keys h (nodup_dueAlarms h now)

theorem mem_deadlines {a : Alarms} (h : a.WellFormed) {d : Nat} :
    d ∈ a.outstanding.map (·.deadline) ↔ ∃ key, a.deadline? key = some d := by
  rw [List.mem_map]
  constructor
  · intro hd
    obtain ⟨x, hx, rfl⟩ := hd
    have hl := List.getElem?_eq_getElem (h.owned x hx)
    exact ⟨_, (deadline?_eq_some h).mpr ⟨x.listener, hl, hx⟩⟩
  · intro hd
    obtain ⟨key, hd⟩ := hd
    obtain ⟨l, -, hx⟩ := (deadline?_eq_some h).mp hd
    exact ⟨⟨l, d⟩, hx, rfl⟩

theorem nextDeadline_eq_none_iff {a : Alarms} (h : a.WellFormed) :
    a.nextDeadline = none ↔ ∀ key, a.deadline? key = none := by
  rw [nextDeadline, List.min?_eq_none_iff, List.eq_nil_iff_forall_not_mem]
  simp only [mem_deadlines h, not_exists, Option.eq_none_iff_forall_ne_some]
  exact forall_comm

theorem nextDeadline_eq_some_iff {a : Alarms} (h : a.WellFormed) {d : Nat} :
    a.nextDeadline = some d ↔
      (∃ key, a.deadline? key = some d) ∧ ∀ key d', a.deadline? key = some d' → d ≤ d' := by
  simp only [nextDeadline, List.min?_eq_some_iff, mem_deadlines h]
  refine and_congr_right fun _ => ⟨?_, ?_⟩
  · intro least key d' hd'
    exact least d' ⟨key, hd'⟩
  · intro least d' hd'
    obtain ⟨key, hd'⟩ := hd'
    exact least key d' hd'

end ModemSelect.Alarms
