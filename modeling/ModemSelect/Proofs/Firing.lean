import Mathlib.Data.List.Basic
import ModemSelect.Proofs.Ledger

namespace ModemSelect

/-- What is recorded of a timer that is armed for the delay. -/
def Scheduled.start (note : TimerNote) (delay : Nat) (clock : Clock) : Scheduled where
  note
  backend := Backend.forDelay delay
  delay
  deadline := Clock.deadline (clock.now (Backend.forDelay delay).timeBase) delay

namespace Timers

@[simp] theorem queue_claimAll (t : Timers) (keys : List TimerKey) :
    (t.claimAll keys).1.queue = t.queue := by
  induction keys generalizing t with
  | nil => rfl
  | cons key rest ih =>
    refine (ih (t.claim key).1).trans ?_
    unfold claim
    split <;> rfl

@[simp] theorem alarms_claimAll (t : Timers) (keys : List TimerKey) :
    (t.claimAll keys).1.alarms = t.alarms := by
  induction keys generalizing t with
  | nil => rfl
  | cons key rest ih =>
    refine (ih (t.claim key).1).trans ?_
    unfold claim
    split <;> rfl

theorem record?_claim (t : Timers) (key k : TimerKey) :
    (t.claim key).1.record? k = if k = key then none else t.record? k := by
  unfold claim
  split
  next => exact PerTimer.get_set ..
  next hn =>
    split
    next he => rw [he, hn]
    next => rfl

theorem record?_claimAll (t : Timers) (keys : List TimerKey) (k : TimerKey) :
    (t.claimAll keys).1.record? k = if k ∈ keys then none else t.record? k := by
  induction keys generalizing t with
  | nil => simp [claimAll]
  | cons key rest ih =>
    refine (ih (t.claim key).1).trans ?_
    rw [record?_claim]
    by_cases hr : k ∈ rest
    · simp [hr]
    · by_cases hk : k = key <;> simp [hr, hk]

theorem claim_note (t : Timers) (key : TimerKey) :
    (t.claim key).2 = (t.record? key).map fun s => (key, s.note) := by
  unfold claim
  cases t.record? key <;> rfl

theorem claimAll_notes (t : Timers) {keys : List TimerKey} (h : keys.Nodup) :
    (t.claimAll keys).2 =
      keys.filterMap fun key => (t.record? key).map fun s => (key, s.note) := by
  induction keys generalizing t with
  | nil => rfl
  | cons key rest ih =>
    obtain ⟨hk, hrest⟩ := List.nodup_cons.mp h
    have first := t.claim_note key
    have later : rest.filterMap (fun k => ((t.claim key).1.record? k).map fun s => (k, s.note)) =
        rest.filterMap fun k => (t.record? k).map fun s => (k, s.note) := by
      refine List.filterMap_congr fun k hm => ?_
      rw [record?_claim, if_neg (ne_of_mem_of_not_mem hm hk)]
    have tail := ih (t.claim key).1 hrest
    rw [later] at tail
    rw [claimAll, List.filterMap_cons]
    cases hr : t.record? key with
    | none => simp [first, hr, tail]
    | some s => simp [first, hr, tail]

/-- Only notes of recorded timers are handed over, whatever the backends held. -/
theorem mem_claimAll {t : Timers} {keys : List TimerKey} {key : TimerKey} {note : TimerNote}
    (h : (key, note) ∈ (t.claimAll keys).2) : ∃ s, t.record? key = some s ∧ s.note = note := by
  induction keys generalizing t with
  | nil => cases h
  | cons k rest ih =>
    change (key, note) ∈ (t.claim k).2.toList ++ ((t.claim k).1.claimAll rest).2 at h
    rcases List.mem_append.mp h with h | h
    · rw [claim_note, Option.mem_toList, Option.map_eq_some_iff] at h
      obtain ⟨s, hs, he⟩ := h
      cases he
      exact ⟨s, hs, rfl⟩
    · obtain ⟨s, hs, hn⟩ := ih h
      rw [record?_claim] at hs
      split at hs
      next => cases hs
      next => exact ⟨s, hs, hn⟩

theorem recorded_of_mem_fireDue {t : Timers} {clock : Clock} {key : TimerKey} {note : TimerNote}
    (h : (key, note) ∈ (t.fireDue clock).2) : ∃ s, t.record? key = some s ∧ s.note = note := by
  have recorded := mem_claimAll h
  exact recorded

theorem mem_dueKeys_iff_held {t : Timers} (h : t.alarms.WellFormed) {clock : Clock}
    {key : TimerKey} :
    key ∈ t.dueKeys clock ↔ ∃ b d, t.deadlineOn? b key = some d ∧ d ≤ clock.now b.timeBase := by
  rw [dueKeys, List.mem_append, Queue.mem_due, Alarms.mem_due h]
  constructor
  · intro hd
    rcases hd with ⟨d, hd, hle⟩ | ⟨d, hd, hle⟩
    · exact ⟨.deferred, d, hd, hle⟩
    · exact ⟨.alarm, d, hd, hle⟩
  · intro hd
    obtain ⟨b, d, hd, hle⟩ := hd
    cases b with
    | deferred => exact Or.inl ⟨d, hd, hle⟩
    | alarm => exact Or.inr ⟨d, hd, hle⟩

theorem wellFormed_fireDue {t : Timers} (h : t.alarms.WellFormed) (clock : Clock) :
    (t.fireDue clock).1.alarms.WellFormed := by
  rw [fireDue, alarms_claimAll]
  exact Alarms.wellFormed_dropDue h _

theorem deadlineOn?_fireDue {t : Timers} (h : t.alarms.WellFormed) (clock : Clock)
    (b : Backend) (k : TimerKey) :
    (t.fireDue clock).1.deadlineOn? b k =
      (t.deadlineOn? b k).filter (clock.now b.timeBase < ·) := by
  cases b with
  | deferred =>
    rw [deadlineOn?, fireDue, queue_claimAll]
    exact Queue.deadline?_dropDue ..
  | alarm =>
    rw [deadlineOn?, fireDue, alarms_claimAll]
    exact Alarms.deadline?_dropDue h ..

section Agreement

variable {t : Timers} {key : TimerKey} (wellFormed : t.alarms.WellFormed) (agrees : t.Agrees key)
include wellFormed agrees

theorem Agrees.mem_dueKeys {clock : Clock} :
    key ∈ t.dueKeys clock ↔
      ∃ s, t.record? key = some s ∧ s.deadline ≤ clock.now s.backend.timeBase := by
  rw [mem_dueKeys_iff_held wellFormed]
  simp only [agrees _, Option.map_eq_some_iff, Option.filter_eq_some_iff, decide_eq_true_eq]
  constructor
  · intro hd
    obtain ⟨b, d, ⟨s, ⟨hs, rfl⟩, rfl⟩, hle⟩ := hd
    exact ⟨s, hs, hle⟩
  · intro hd
    obtain ⟨s, hs, hle⟩ := hd
    exact ⟨s.backend, s.deadline, ⟨s, ⟨hs, rfl⟩, rfl⟩, hle⟩

theorem Agrees.record?_fireDue (clock : Clock) :
    (t.fireDue clock).1.record? key =
      (t.record? key).filter fun s => clock.now s.backend.timeBase < s.deadline := by
  refine (record?_claimAll _ _ _).trans ?_
  change (if key ∈ t.dueKeys clock then none else t.record? key) = _
  cases hr : t.record? key with
  | none => simp
  | some s =>
    by_cases hle : s.deadline ≤ clock.now s.backend.timeBase
    · have hm : key ∈ t.dueKeys clock := (agrees.mem_dueKeys wellFormed).mpr ⟨s, hr, hle⟩
      simp [hm, Option.filter, hle]
    · have hm : key ∉ t.dueKeys clock := by
        intro hm
        obtain ⟨s', hs', hle'⟩ := (agrees.mem_dueKeys wellFormed).mp hm
        rw [hr] at hs'
        cases hs'
        exact hle hle'
      simp [hm, Option.filter, Nat.lt_of_not_le hle]

theorem Agrees.fireDue (clock : Clock) : (t.fireDue clock).1.Agrees key := by
  intro b
  rw [deadlineOn?_fireDue wellFormed, agrees, agrees.record?_fireDue wellFormed]
  cases hr : t.record? key with
  | none => rfl
  | some s =>
    by_cases hb : s.backend = b
    · subst hb
      by_cases hlt : clock.now s.backend.timeBase < s.deadline <;> simp [Option.filter, hlt]
    · by_cases hlt : clock.now s.backend.timeBase < s.deadline <;>
        simp [Option.filter, hlt, hb]

end Agreement

theorem mem_dueKeys {t : Timers} (h : t.Sound) {clock : Clock} {key : TimerKey} :
    key ∈ t.dueKeys clock ↔
      ∃ s, t.record? key = some s ∧ s.deadline ≤ clock.now s.backend.timeBase :=
  (h.agrees key).mem_dueKeys h.alarms

/-- A timer is armed on one backend at most, so none is due twice. -/
theorem nodup_dueKeys {t : Timers} (h : t.Sound) (clock : Clock) : (t.dueKeys clock).Nodup := by
  refine List.nodup_append.mpr ⟨Queue.nodup_due _ _, Alarms.nodup_due h.alarms _, ?_⟩
  intro key hq k ha he
  subst he
  obtain ⟨d, hd, -⟩ := Queue.mem_due.mp hq
  obtain ⟨d', hd', -⟩ := (Alarms.mem_due h.alarms).mp ha
  have hq' := h.agrees key .deferred
  have ha' := h.agrees key .alarm
  rw [show t.deadlineOn? .deferred key = some d from hd] at hq'
  rw [show t.deadlineOn? .alarm key = some d' from hd'] at ha'
  cases hr : t.record? key with
  | none => simp [hr] at hq'
  | some s =>
    cases hb : s.backend <;> simp [hr, hb, Option.filter] at hq' ha'

/-- A poll leaves the timers on record whose deadline has not passed. -/
theorem record?_fireDue {t : Timers} (h : t.Sound) (clock : Clock) (k : TimerKey) :
    (t.fireDue clock).1.record? k =
      (t.record? k).filter fun s => clock.now s.backend.timeBase < s.deadline :=
  (h.agrees k).record?_fireDue h.alarms clock

theorem fireDue_notes {t : Timers} (h : t.Sound) (clock : Clock) :
    (t.fireDue clock).2 =
      (t.dueKeys clock).filterMap fun key => (t.record? key).map fun s => (key, s.note) :=
  claimAll_notes _ (nodup_dueKeys h clock)

theorem mem_fireDue {t : Timers} (h : t.Sound) {clock : Clock} {key : TimerKey}
    {note : TimerNote} :
    (key, note) ∈ (t.fireDue clock).2 ↔
      ∃ s, t.record? key = some s ∧ s.note = note ∧ s.deadline ≤ clock.now s.backend.timeBase := by
  rw [fireDue_notes h, List.mem_filterMap]
  constructor
  · intro hm
    obtain ⟨k, hk, hn⟩ := hm
    obtain ⟨s, hs, hle⟩ := (mem_dueKeys h).mp hk
    rw [hs] at hn
    cases hn
    exact ⟨s, hs, rfl, hle⟩
  · intro hm
    obtain ⟨s, hs, rfl, hle⟩ := hm
    exact ⟨key, (mem_dueKeys h).mpr ⟨s, hs, hle⟩, by rw [hs]; rfl⟩

theorem nodup_fireDue {t : Timers} (h : t.Sound) (clock : Clock) :
    ((t.fireDue clock).2.map (·.1)).Nodup := by
  have keys : (t.fireDue clock).2.map (·.1) =
      (t.dueKeys clock).filter fun key => (t.record? key).isSome := by
    rw [fireDue_notes h, List.map_filterMap]
    induction t.dueKeys clock with
    | nil => rfl
    | cons key rest ih =>
      rw [List.filterMap_cons, List.filter_cons, ih]
      cases t.record? key <;> rfl
  rw [keys]
  exact (nodup_dueKeys h clock).sublist List.filter_sublist

theorem sound_fireDue {t : Timers} (h : t.Sound) (clock : Clock) :
    (t.fireDue clock).1.Sound where
  alarms := wellFormed_fireDue h.alarms clock
  agrees k := (h.agrees k).fireDue h.alarms clock

/-- The given timer is on record and no other. -/
def Only (t : Timers) (key : TimerKey) (s : Scheduled) : Prop :=
  ∀ k, t.record? k = if k = key then some s else none

theorem only_schedule {t : Timers} (bare : ∀ k, t.record? k = none) (key : TimerKey)
    (note : TimerNote) (delay : Nat) (clock : Clock) :
    (t.schedule key note delay clock).1.Only key (.start note delay clock) := by
  intro k
  split
  next he =>
    subst he
    exact record?_schedule_of_bare (bare k) note delay clock
  next hne => rw [record?_schedule_of_ne hne, bare]

namespace Only

variable {t : Timers} {key : TimerKey} {s : Scheduled} (only : t.Only key s)
include only

theorem record? : t.record? key = some s := (only key).trans (if_pos rfl)

theorem eq_of_record? {k : TimerKey} {s' : Scheduled} (hs : t.record? k = some s') :
    k = key ∧ s' = s := by
  rw [only k] at hs
  split at hs
  next he => exact ⟨he, (Option.some.inj hs).symm⟩
  next => cases hs

theorem nextWakeup (h : t.Sound) (clock : Clock) :
    t.nextWakeup clock = some (s.deadline - clock.now s.backend.timeBase) := by
  refine (nextWakeup_eq_some_iff h).mpr ⟨⟨key, s, only.record?, rfl⟩, ?_⟩
  intro k s' hs'
  obtain ⟨-, rfl⟩ := only.eq_of_record? hs'
  exact Nat.le_refl _

theorem fireDue_notes (h : t.Sound) {clock : Clock}
    (due : s.deadline ≤ clock.now s.backend.timeBase) :
    (t.fireDue clock).2 = [(key, s.note)] := by
  have distinct : (t.fireDue clock).2.Nodup := (nodup_fireDue h clock).of_map
  refine List.perm_singleton.mp ((List.perm_ext_iff_of_nodup distinct (by simp)).mpr ?_)
  intro entry
  obtain ⟨k, note⟩ := entry
  rw [mem_fireDue h, List.mem_singleton]
  constructor
  · intro hm
    obtain ⟨s', hs', rfl, -⟩ := hm
    obtain ⟨rfl, rfl⟩ := only.eq_of_record? hs'
    rfl
  · intro he
    cases he
    exact ⟨s, only.record?, rfl, due⟩

theorem fireDue_bare (h : t.Sound) {clock : Clock}
    (due : s.deadline ≤ clock.now s.backend.timeBase) (k : TimerKey) :
    (t.fireDue clock).1.record? k = none := by
  rw [record?_fireDue h, only k]
  split
  next => simp [Option.filter, due]
  next => rfl

end Only

end Timers

end ModemSelect
