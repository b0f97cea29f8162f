import ModemSelect.Schedule.Timers

namespace ModemSelect

theorem Backend.timeBase_forDelay (delay : Nat) :
    (forDelay delay).timeBase = if delay < 60000 then TimeBase.uptime else .realtime := by
  unfold forDelay
  split <;> rfl

namespace Timers

theorem snd_cancel (t : Timers) (key : TimerKey) :
    (t.cancel key).2 = (t.queue.isArmed key || t.alarms.isArmed key || t.isScheduled key) := by
  rw [← Queue.snd_disarm, ← Alarms.snd_disarm]
  rfl

theorem record?_cancel (t : Timers) (key k : TimerKey) :
    (t.cancel key).1.record? k = if k = key then none else t.record? k :=
  PerTimer.get_set ..

theorem isScheduled_cancel (t : Timers) (key k : TimerKey) :
    (t.cancel key).1.isScheduled k = (t.isScheduled k && k != key) := by
  rw [isScheduled, record?_cancel]
  split
  next he => simp [he]
  next hne => simp [isScheduled, hne]

theorem record?_arm (t : Timers) (key k : TimerKey) (note : TimerNote) (delay : Nat)
    (clock : Clock) :
    (t.arm key note delay clock).record? k =
      if k = key then
        some ⟨note, Backend.forDelay delay, delay,
          Clock.deadline (clock.now (Backend.forDelay delay).timeBase) delay⟩
      else t.record? k := by
  have h : (t.arm key note delay clock).records = (t.cancel key).1.records.set key
      (some ⟨note, Backend.forDelay delay, delay,
        Clock.deadline (clock.now (Backend.forDelay delay).timeBase) delay⟩) := by
    unfold arm
    cases Backend.forDelay delay <;> rfl
  rw [record?, h, PerTimer.get_set]
  split
  next => rfl
  next hne =>
    have hc := record?_cancel t key k
    rw [if_neg hne] at hc
    exact hc

theorem carries_iff {t : Timers} {key : TimerKey} {note : TimerNote} :
    t.carries key note = true ↔ ∃ s, t.record? key = some s ∧ s.note = note := by
  unfold carries
  cases h : t.record? key with
  | none => simp
  | some s => simp

theorem schedule_of_carries {t : Timers} {key : TimerKey} {note : TimerNote}
    (h : t.carries key note = true) (delay : Nat) (clock : Clock) :
    t.schedule key note delay clock = (t, .alreadyScheduled) := by
  rw [schedule, if_pos h]

theorem record?_schedule_of_ne {key k : TimerKey} (h : k ≠ key) (t : Timers) (note : TimerNote)
    (delay : Nat) (clock : Clock) :
    (t.schedule key note delay clock).1.record? k = t.record? k := by
  unfold schedule
  split
  next => rfl
  next => rw [record?_arm, if_neg h]

theorem record?_schedule_of_bare {t : Timers} {key : TimerKey} (bare : t.record? key = none)
    (note : TimerNote) (delay : Nat) (clock : Clock) :
    (t.schedule key note delay clock).1.record? key =
      some ⟨note, Backend.forDelay delay, delay,
        Clock.deadline (clock.now (Backend.forDelay delay).timeBase) delay⟩ := by
  have fresh : t.carries key note = false := by simp [carries, bare]
  rw [schedule, fresh]
  exact (record?_arm ..).trans (if_pos rfl)

theorem carries_schedule (t : Timers) (key : TimerKey) (note : TimerNote) (delay : Nat)
    (clock : Clock) : (t.schedule key note delay clock).1.carries key note = true := by
  unfold schedule
  split
  next h => exact h
  next => exact carries_iff.mpr ⟨_, by rw [record?_arm, if_pos rfl], rfl⟩

end Timers

end ModemSelect
