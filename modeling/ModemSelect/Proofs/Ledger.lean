import ModemSelect.Proofs.AlarmsView
import ModemSelect.Proofs.QueueView
import ModemSelect.Schedule.TimerView

namespace ModemSelect.Timers

/-- The backends hold for the timer just the deadline on record, and only on the backend that the
record names. -/
def Agrees (t : Timers) (key : TimerKey) : Prop :=
  ∀ b, t.deadlineOn? b key = ((t.record? key).filter (·.backend = b)).map (·.deadline)

structure Sound (t : Timers) : Prop where
  alarms : t.alarms.WellFormed
  agrees : ∀ key, t.Agrees key

theorem sound_empty : Sound {} where
  alarms := Alarms.wellFormed_empty
  agrees := by
    intro key b
    cases key <;> cases b <;> rfl

theorem deadlineOn?_cancel {t : Timers} (h : t.alarms.WellFormed) (key k : TimerKey)
    (b : Backend) :
    (t.cancel key).1.deadlineOn? b k = if k = key then none else t.deadlineOn? b k := by
  cases b with
  | deferred => exact Queue.deadline?_disarm t.queue key k
  | alarm => exact Alarms.deadline?_disarm h key k

/-- A cancelled timer agrees, whatever was held for it before. -/
theorem agrees_cancel {t : Timers} (h : t.alarms.WellFormed) {key k : TimerKey}
    (agrees : k ≠ key → t.Agrees k) : (t.cancel key).1.Agrees k := by
  intro b
  rw [deadlineOn?_cancel h, record?_cancel]
  split
  next => rfl
  next hne => exact agrees hne b

theorem sound_cancel {t : Timers} (h : t.Sound) (key : TimerKey) : (t.cancel key).1.Sound where
  alarms := Alarms.wellFormed_disarm h.alarms key
  agrees k := agrees_cancel h.alarms fun _ => h.agrees k

theorem deadlineOn?_arm {t : Timers} (h : t.alarms.WellFormed) (key k : TimerKey)
    (note : TimerNote) (delay : Nat) (clock : Clock) (b : Backend) :
    (t.arm key note delay clock).deadlineOn? b k =
      if k = key then
        if Backend.forDelay delay = b then
          some (Clock.deadline (clock.now (Backend.forDelay delay).timeBase) delay)
        else none
      else t.deadlineOn? b k := by
  have hc := deadlineOn?_cancel h key k
  have hw := Alarms.wellFormed_disarm h key
  unfold arm
  cases hb : Backend.forDelay delay with
  | deferred =>
    cases b with
    | deferred =>
      refine (Queue.deadline?_arm ..).trans ?_
      split
      next => rfl
      next hne => exact (hc .deferred).trans (if_neg hne)
    | alarm => exact hc .alarm
  | alarm =>
    cases b with
    | deferred => exact hc .deferred
    | alarm =>
      refine (Alarms.deadline?_arm hw key k _).trans ?_
      split
      next => rfl
      next hne => exact (hc .alarm).trans (if_neg hne)

theorem wellFormed_arm {t : Timers} (h : t.alarms.WellFormed) (key : TimerKey) (note : TimerNote)
    (delay : Nat) (clock : Clock) : (t.arm key note delay clock).alarms.WellFormed := by
  have hw := Alarms.wellFormed_disarm h key
  unfold arm
  cases Backend.forDelay delay with
  | deferred => exact hw
  | alarm => exact Alarms.wellFormed_arm hw key _

/-- A timer armed afresh agrees, whatever was held for it before. -/
theorem agrees_arm {t : Timers} (h : t.alarms.WellFormed) {key k : TimerKey}
    (agrees : k ≠ key → t.Agrees k) (note : TimerNote) (delay : Nat) (clock : Clock) :
    (t.arm key note delay clock).Agrees k := by
  intro b
  rw [deadlineOn?_arm h, record?_arm]
  split
  next =>
    simp only [Option.filter, decide_eq_true_eq]
    split <;> rfl
  next hne => exact agrees hne b

theorem sound_arm {t : Timers} (h : t.Sound) (key : TimerKey) (note : TimerNote) (delay : Nat)
    (clock : Clock) : (t.arm key note delay clock).Sound where
  alarms := wellFormed_arm h.alarms key note delay clock
  agrees k := agrees_arm h.alarms (fun _ => h.agrees k) note delay clock

theorem wellFormed_schedule {t : Timers} (h : t.alarms.WellFormed) (key : TimerKey)
    (note : TimerNote) (delay : Nat) (clock : Clock) :
    (t.schedule key note delay clock).1.alarms.WellFormed := by
  unfold schedule
  split
  · exact h
  · exact wellFormed_arm h key note delay clock

theorem agrees_schedule {t : Timers} (h : t.alarms.WellFormed) {key k : TimerKey}
    (agrees : (k ≠ key ∨ ∃ s, t.record? k = some s) → t.Agrees k) (note : TimerNote)
    (delay : Nat) (clock : Clock) : (t.schedule key note delay clock).1.Agrees k := by
  unfold schedule
  split
  next carries =>
    by_cases he : k = key
    · obtain ⟨s, hs, -⟩ := carries_iff.mp carries
      exact agrees (Or.inr ⟨s, he ▸ hs⟩)
    · exact agrees (Or.inl he)
  next => exact agrees_arm h (fun other => agrees (Or.inl other)) note delay clock

theorem sound_schedule {t : Timers} (h : t.Sound) (key : TimerKey) (note : TimerNote)
    (delay : Nat) (clock : Clock) : (t.schedule key note delay clock).1.Sound where
  alarms := wellFormed_schedule h.alarms key note delay clock
  agrees k := agrees_schedule h.alarms (fun _ => h.agrees k) note delay clock

theorem isArmedOn_eq (t : Timers) (b : Backend) (key : TimerKey) :
    t.isArmedOn b key = (t.deadlineOn? b key).isSome := by
  cases b <;> rfl

theorem deadlineOn?_of_bare {t : Timers} (h : t.Sound) {key : TimerKey}
    (bare : t.record? key = none) (b : Backend) : t.deadlineOn? b key = none := by
  rw [h.agrees, bare]
  rfl

theorem isArmedOn_of_bare {t : Timers} (h : t.Sound) {key : TimerKey}
    (bare : t.record? key = none) (b : Backend) : t.isArmedOn b key = false := by
  rw [isArmedOn_eq, deadlineOn?_of_bare h bare]
  rfl

/-- The earliest deadline that a backend holds. -/
def nextOn (t : Timers) : Backend → Option Nat
  | .deferred => t.queue.nextDeadline
  | .alarm => t.alarms.nextDeadline

theorem nextOn_eq_some_iff {t : Timers} (h : t.alarms.WellFormed) {b : Backend} {d : Nat} :
    t.nextOn b = some d ↔
      (∃ key, t.deadlineOn? b key = some d) ∧ ∀ key d', t.deadlineOn? b key = some d' → d ≤ d' := by
  cases b with
  | deferred => exact Queue.nextDeadline_eq_some_iff
  | alarm => exact Alarms.nextDeadline_eq_some_iff h

theorem nextOn_eq_none_iff {t : Timers} (h : t.alarms.WellFormed) {b : Backend} :
    t.nextOn b = none ↔ ∀ key, t.deadlineOn? b key = none := by
  cases b with
  | deferred => exact Queue.nextDeadline_eq_none_iff
  | alarm => exact Alarms.nextDeadline_eq_none_iff h

theorem exists_nextOn {t : Timers} (h : t.alarms.WellFormed) {b : Backend} {key : TimerKey}
    {d : Nat} (hd : t.deadlineOn? b key = some d) : ∃ d', t.nextOn b = some d' ∧ d' ≤ d := by
  cases hn : t.nextOn b with
  | none =>
    rw [(nextOn_eq_none_iff h).mp hn key] at hd
    cases hd
  | some d' => exact ⟨d', rfl, ((nextOn_eq_some_iff h).mp hn).2 key d hd⟩

theorem mem_wakeups {t : Timers} {clock : Clock} {w : Nat} :
    w ∈ (t.queue.nextDeadline.map (· - clock.uptime)).toList ++
        (t.alarms.nextDeadline.map (· - clock.realtime)).toList ↔
      ∃ b d, t.nextOn b = some d ∧ d - clock.now b.timeBase = w := by
  simp only [List.mem_append, Option.mem_toList, Option.map_eq_some_iff]
  constructor
  · intro hw
    rcases hw with ⟨d, hd, he⟩ | ⟨d, hd, he⟩
    · exact ⟨.deferred, d, hd, he⟩
    · exact ⟨.alarm, d, hd, he⟩
  · intro hw
    obtain ⟨b, d, hd, he⟩ := hw
    cases b with
    | deferred => exact Or.inl ⟨d, hd, he⟩
    | alarm => exact Or.inr ⟨d, hd, he⟩

section Wakeup

variable {t : Timers} (h : t.Sound) {clock : Clock}
include h

theorem deadlineOn?_of_record {key : TimerKey} {s : Scheduled} (hs : t.record? key = some s) :
    t.deadlineOn? s.backend key = some s.deadline := by
  rw [h.agrees, hs]
  simp

theorem record?_of_deadlineOn {b : Backend} {key : TimerKey} {d : Nat}
    (hd : t.deadlineOn? b key = some d) :
    ∃ s, t.record? key = some s ∧ s.backend = b ∧ s.deadline = d := by
  rw [h.agrees, Option.map_eq_some_iff] at hd
  obtain ⟨s, hs, he⟩ := hd
  obtain ⟨hs, hb⟩ := Option.filter_eq_some_iff.mp hs
  exact ⟨s, hs, by simpa using hb, he⟩

/-- The next wakeup is the least time that a recorded timer has left. -/
theorem nextWakeup_eq_some_iff {w : Nat} :
    t.nextWakeup clock = some w ↔
      (∃ key s, t.record? key = some s ∧ s.deadline - clock.now s.backend.timeBase = w) ∧
      ∀ key s, t.record? key = some s → w ≤ s.deadline - clock.now s.backend.timeBase := by
  rw [nextWakeup, List.min?_eq_some_iff]
  simp only [mem_wakeups]
  have next : ∀ {key s}, t.record? key = some s →
      ∃ d, t.nextOn s.backend = some d ∧ d ≤ s.deadline := by
    intro key s hs
    exact exists_nextOn h.alarms (deadlineOn?_of_record h hs)
  have held : ∀ {b d}, t.nextOn b = some d →
      ∃ key s, t.record? key = some s ∧ s.backend = b ∧ s.deadline = d := by
    intro b d hd
    obtain ⟨⟨key, hkey⟩, -⟩ := (nextOn_eq_some_iff h.alarms).mp hd
    obtain ⟨s, hs, hb, he⟩ := record?_of_deadlineOn h hkey
    exact ⟨key, s, hs, hb, he⟩
  constructor
  · intro hw
    obtain ⟨⟨b, d, hd, rfl⟩, least⟩ := hw
    obtain ⟨key, s, hs, rfl, rfl⟩ := held hd
    refine ⟨⟨key, s, hs, rfl⟩, fun key' s' hs' => ?_⟩
    obtain ⟨d', hd', hle⟩ := next hs'
    exact Nat.le_trans (least _ ⟨_, d', hd', rfl⟩) (Nat.sub_le_sub_right hle _)
  · intro hw
    obtain ⟨⟨key, s, hs, rfl⟩, least⟩ := hw
    obtain ⟨d, hd, hle⟩ := next hs
    obtain ⟨key', s', hs', hb, rfl⟩ := held hd
    have other := least key' s' hs'
    rw [hb] at other
    refine ⟨⟨s.backend, s'.deadline, hd, ?_⟩, ?_⟩
    · exact Nat.le_antisymm (Nat.sub_le_sub_right hle _) other
    · intro w' hw'
      obtain ⟨b', d', hd', rfl⟩ := hw'
      obtain ⟨key'', s'', hs'', rfl, rfl⟩ := held hd'
      exact least key'' s'' hs''

theorem exists_nextWakeup {key : TimerKey} {s : Scheduled} (hs : t.record? key = some s)
    (clock : Clock) : ∃ w, t.nextWakeup clock = some w := by
  obtain ⟨d, next, -⟩ := exists_nextOn h.alarms (deadlineOn?_of_record h hs)
  have wakeup : d - clock.now s.backend.timeBase ∈
      (t.queue.nextDeadline.map (· - clock.uptime)).toList ++
        (t.alarms.nextDeadline.map (· - clock.realtime)).toList :=
    mem_wakeups.mpr ⟨s.backend, d, next, rfl⟩
  rw [← Option.isSome_iff_exists, ← Option.ne_none_iff_isSome, nextWakeup, Ne,
    List.min?_eq_none_iff]
  exact List.ne_nil_of_mem wakeup

theorem nextWakeup_later {c c' : Clock} {ms w : Nat}
    (later : ∀ key s, t.record? key = some s →
      c'.now s.backend.timeBase = c.now s.backend.timeBase + ms)
    (next : t.nextWakeup c = some w) : t.nextWakeup c' = some (w - ms) := by
  obtain ⟨⟨key, s, hs, first⟩, least⟩ := (nextWakeup_eq_some_iff h).mp next
  refine (nextWakeup_eq_some_iff h).mpr ⟨⟨key, s, hs, ?_⟩, fun key' s' hs' => ?_⟩
  · rw [later key s hs, Nat.sub_add_eq, first]
  · rw [later key' s' hs', Nat.sub_add_eq]
    exact Nat.sub_le_sub_right (least key' s' hs') ms

end Wakeup

theorem nextWakeup_of_bare {t : Timers} (h : t.Sound) (bare : ∀ key, t.record? key = none)
    (clock : Clock) : t.nextWakeup clock = none := by
  cases hw : t.nextWakeup clock with
  | none => rfl
  | some w =>
    obtain ⟨⟨key, s, hs, -⟩, -⟩ := (nextWakeup_eq_some_iff h).mp hw
    rw [bare] at hs
    cases hs

end ModemSelect.Timers
