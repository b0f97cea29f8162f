import ModemSelect.Proofs.Firing

namespace ModemSelect

/-- Neither clock reads the last word, past which no deadline lies. -/
def Clock.Runs (c : Clock) : Prop := ∀ base, c.now base < wordMax

namespace Timers

/-- Neither backend holds a deadline that has passed, recorded or not. -/
structure Ahead (t : Timers) (clock : Clock) : Prop where
  queue : ∀ key d, t.queue.deadline? key = some d → clock.uptime < d
  alarms : ∀ x ∈ t.alarms.outstanding, clock.realtime < x.deadline

theorem ahead_iff {t : Timers} {clock : Clock} : t.Ahead clock ↔ t.nextWakeup clock ≠ some 0 := by
  have due : t.nextWakeup clock = some 0 ↔
      ∃ b d, t.nextOn b = some d ∧ d - clock.now b.timeBase = 0 := by
    rw [nextWakeup, List.min?_eq_some_iff, mem_wakeups]
    simp
  rw [ne_eq, due]
  constructor
  · intro ahead late
    obtain ⟨b, d, hd, left⟩ := late
    cases b with
    | deferred =>
      obtain ⟨⟨key, held⟩, -⟩ := Queue.nextDeadline_eq_some_iff.mp hd
      have later := ahead.queue key d held
      change d - clock.uptime = 0 at left
      omega
    | alarm =>
      obtain ⟨x, hx, rfl⟩ := List.mem_map.mp (List.min?_eq_some_iff.mp hd).1
      have later := ahead.alarms x hx
      change x.deadline - clock.realtime = 0 at left
      omega
  · intro undue
    refine ⟨fun key d held => ?_, fun x hx => ?_⟩
    · cases next : t.queue.nextDeadline with
      | none => simp [Queue.nextDeadline_eq_none_iff.mp next key] at held
      | some first =>
        have least := (Queue.nextDeadline_eq_some_iff.mp next).2 key d held
        have left : first - clock.uptime ≠ 0 := fun none => undue ⟨.deferred, first, next, none⟩
        omega
    · have held : x.deadline ∈ t.alarms.outstanding.map (·.deadline) := List.mem_map_of_mem hx
      cases next : t.alarms.nextDeadline with
      | none => simp [List.min?_eq_none_iff.mp next] at held
      | some first =>
        have least := (List.min?_eq_some_iff.mp next).2 _ held
        have left : first - clock.realtime ≠ 0 := fun none => undue ⟨.alarm, first, next, none⟩
        omega

/-- Whatever the timers held, what has passed is gone once it was fired. -/
theorem ahead_fireDue (t : Timers) (clock : Clock) : (t.fireDue clock).1.Ahead clock where
  queue := by
    intro key d held
    rw [fireDue, queue_claimAll] at held
    have left : (t.queue.dropDue clock.uptime).deadline? key = some d := held
    rw [Queue.deadline?_dropDue, Option.filter_eq_some_iff] at left
    simpa using left.2
  alarms := by
    intro x hx
    rw [fireDue, alarms_claimAll] at hx
    simpa using (List.mem_filter.mp hx).2

namespace Ahead

variable {t : Timers} {clock : Clock} (ahead : t.Ahead clock)
include ahead

theorem fireDue : t.fireDue clock = (t, []) := by
  have queue : t.queue.due clock.uptime = [] := by
    refine List.eq_nil_iff_forall_not_mem.mpr fun key due => ?_
    obtain ⟨d, held, passed⟩ := Queue.mem_due.mp due
    have later := ahead.queue key d held
    omega
  have alarms : t.alarms.outstanding.filter (·.deadline ≤ clock.realtime) = [] := by
    refine List.filter_eq_nil_iff.mpr fun x hx => ?_
    have later := ahead.alarms x hx
    simpa using later
  have kept : t.alarms.dropDue clock.realtime = t.alarms := by
    have all : t.alarms.outstanding.filter (fun x => clock.realtime < x.deadline) =
        t.alarms.outstanding :=
      List.filter_eq_self.mpr fun x hx => by simpa using ahead.alarms x hx
    rw [Alarms.dropDue, all]
  have none : t.dueKeys clock = [] := by
    simp [dueKeys, queue, Alarms.due, Alarms.dueAlarms, alarms]
  have left : t.queue.dropDue clock.uptime = t.queue := by
    rw [Queue.dropDue, queue]
    rfl
  rw [Timers.fireDue, none, left, kept]
  rfl

theorem cancel (key : TimerKey) : (t.cancel key).1.Ahead clock where
  queue := by
    intro k d held
    change (t.queue.disarm key).1.deadline? k = some d at held
    rw [Queue.deadline?_disarm] at held
    split at held
    next => cases held
    next => exact ahead.queue k d held
  alarms := by
    intro x hx
    change x ∈ (t.alarms.disarm key).1.outstanding at hx
    unfold Alarms.disarm at hx
    split at hx
    next => exact ahead.alarms x (List.mem_filter.mp hx).1
    next => exact ahead.alarms x hx

/-- A timer armed for later is not due while there is a later moment. -/
theorem arm (runs : clock.Runs) {delay : Nat} (later : 0 < delay) (key : TimerKey)
    (note : TimerNote) : (t.arm key note delay clock).Ahead clock := by
  have cancelled := ahead.cancel key
  have fresh : ∀ base, clock.now base < Clock.deadline (clock.now base) delay :=
    fun base => Nat.lt_min.mpr ⟨by omega, runs base⟩
  unfold Timers.arm
  cases Backend.forDelay delay with
  | deferred =>
    refine ⟨fun k d held => ?_, cancelled.alarms⟩
    rw [Queue.deadline?_arm] at held
    split at held
    next =>
      cases held
      exact fresh .uptime
    next => exact cancelled.queue k d held
  | alarm =>
    refine ⟨cancelled.queue, fun x hx => ?_⟩
    dsimp only [Alarms.arm] at hx
    split at hx
    next =>
      rcases List.mem_append.mp hx with hx | hx
      · exact cancelled.alarms x (List.mem_filter.mp hx).1
      · cases List.mem_singleton.mp hx
        exact fresh .realtime
    next =>
      rcases List.mem_append.mp hx with hx | hx
      · exact cancelled.alarms x hx
      · cases List.mem_singleton.mp hx
        exact fresh .realtime

end Ahead

section Wakeup

variable {t : Timers} (h : t.Sound) {clock : Clock}
include h

/-- Something fires just when the next wakeup is now. -/
theorem fires_iff : (t.fireDue clock).2 ≠ [] ↔ t.nextWakeup clock = some 0 := by
  constructor
  · intro fires
    by_contra undue
    exact fires (by rw [(ahead_iff.mpr undue).fireDue])
  · intro due
    obtain ⟨⟨key, s, hs, left⟩, -⟩ := (nextWakeup_eq_some_iff h).mp due
    exact List.ne_nil_of_mem ((mem_fireDue h).mpr ⟨s, hs, rfl, Nat.le_of_sub_eq_zero left⟩)

variable (fits : clock.Fits) (words : ∀ key s, t.record? key = some s → s.deadline ≤ wordMax)
  {w : Nat} (next : t.nextWakeup clock = some w)
include fits words next

/-- Up to the next wakeup no clock that a timer goes by starts over. -/
theorem room_of_nextWakeup {key : TimerKey} {s : Scheduled} (hs : t.record? key = some s) :
    clock.now s.backend.timeBase + w ≤ wordMax := by
  have least := ((nextWakeup_eq_some_iff h).mp next).2 key s hs
  have reads := fits s.backend.timeBase
  have bounded := words key s hs
  omega

theorem nextWakeup_advance {d : Nat} (hd : d ≤ w) :
    t.nextWakeup (clock.advance d) = some (w - d) := by
  refine nextWakeup_later h (fun key s hs => ?_) next
  have room := room_of_nextWakeup h fits words next hs
  exact Clock.now_advance (by omega)

end Wakeup

end Timers

end ModemSelect
