import ModemSelect.Proofs.Ahead
import ModemSelect.Proofs.TimerRun

namespace ModemSelect

namespace Timers

section Wakeup

variable {t : Timers} (h : t.Sound) {clock : Clock}
include h

theorem nextWakeup_eq_none_iff :
    t.nextWakeup clock = none ↔ ∀ b key, t.isArmedOn b key = false := by
  constructor
  · intro none b key
    refine isArmedOn_of_bare h (Option.eq_none_iff_forall_ne_some.mpr ?_) b
    intro s hs
    obtain ⟨w, next⟩ := exists_nextWakeup h hs clock
    rw [none] at next
    cases next
  · intro unarmed
    refine nextWakeup_of_bare h (fun key => ?_) clock
    refine Option.eq_none_iff_forall_ne_some.mpr fun s hs => ?_
    have armed := unarmed s.backend key
    rw [isArmedOn_eq, deadlineOn?_of_record h hs] at armed
    cases armed

theorem nextWakeup_eq_zero_iff {w : Nat} (next : t.nextWakeup clock = some w) :
    w = 0 ↔ ∃ b key d, t.deadlineOn? b key = some d ∧ d ≤ clock.now b.timeBase := by
  obtain ⟨⟨key, s, hs, left⟩, least⟩ := (nextWakeup_eq_some_iff h).mp next
  constructor
  · intro now
    exact ⟨s.backend, key, s.deadline, deadlineOn?_of_record h hs, by omega⟩
  · intro due
    obtain ⟨b, k, d, held, passed⟩ := due
    obtain ⟨s', hs', rfl, rfl⟩ := record?_of_deadlineOn h held
    have first := least k s' hs'
    omega

end Wakeup

end Timers

namespace TimerRig

/-- What a poll would hand over now. -/
def fires (r : TimerRig) : List (TimerKey × TimerNote) := (r.timers.fireDue r.clock).2

/-- The clock reads words, and every deadline on record is one. -/
structure Worded (r : TimerRig) : Prop where
  clock : r.clock.Fits
  deadlines : ∀ key s, r.timers.record? key = some s → s.deadline ≤ wordMax

theorem worded_act {r : TimerRig} (h : r.Worded) (a : TimerAct) : (r.act a).Worded where
  clock := by
    cases a with
    | schedule => exact h.clock
    | cancel => exact h.clock
    | fire => exact h.clock
    | advance ms => exact r.clock.fits_advance ms
    | suspend ms => exact h.clock.suspend ms
  deadlines := by
    intro key s hs
    rcases record?_act hs with before | ⟨delay, -, -, made⟩
    · exact h.deadlines key s before
    · rw [made]
      exact Nat.min_le_right ..

theorem worded_after {r : TimerRig} (h : r.Worded) (acts : List TimerAct) :
    (r.after acts).Worded := by
  induction acts generalizing r with
  | nil => exact h
  | cons a rest ih => exact ih (worded_act h a)

end TimerRig

/-- The next wakeup is none just when neither backend holds anything. Else nothing fires after less
time than that, something does after just that time, and no clock that an armed timer goes by starts
over till then; the wakeup is now just when something is due. -/
theorem TimerRun.nextWakeup_exact (r : TimerRun) (words : r.clock.Fits) (n : Nat) :
    let rig := r.rigAt n
    (rig.timers.nextWakeup rig.clock = none ↔ ∀ b key, rig.timers.isArmedOn b key = false) ∧
    ∀ w, rig.timers.nextWakeup rig.clock = some w →
      (∀ d, d < w → (rig.act (.advance d)).fires = []) ∧
      (rig.act (.advance w)).fires ≠ [] ∧
      (∀ b key, rig.timers.isArmedOn b key = true → rig.clock.now b.timeBase + w ≤ wordMax) ∧
      (w = 0 ↔
        ∃ b key d, rig.timers.deadlineOn? b key = some d ∧ d ≤ rig.clock.now b.timeBase) := by
  intro rig
  have sound : rig.timers.Sound := r.sound_rigAt n
  have worded : rig.Worded := by
    refine TimerRig.worded_after ⟨words, fun key s hs => ?_⟩ _
    cases key <;> cases hs
  refine ⟨Timers.nextWakeup_eq_none_iff sound, fun w next => ⟨?_, ?_, ?_, ?_⟩⟩
  · intro d early
    by_contra fires
    have now := (Timers.fires_iff sound).mp fires
    have left := Timers.nextWakeup_advance sound worded.clock worded.deadlines next
      (Nat.le_of_lt early)
    have same := Option.some.inj (left.symm.trans now)
    omega
  · refine (Timers.fires_iff sound).mpr ?_
    have left := Timers.nextWakeup_advance sound worded.clock worded.deadlines next
      (Nat.le_refl w)
    rwa [Nat.sub_self] at left
  · intro b key armed
    rw [Timers.isArmedOn_eq, Option.isSome_iff_exists] at armed
    obtain ⟨d, held⟩ := armed
    obtain ⟨s, hs, rfl, -⟩ := Timers.record?_of_deadlineOn sound held
    exact Timers.room_of_nextWakeup sound worded.clock worded.deadlines next hs
  · exact Timers.nextWakeup_eq_zero_iff sound next

/-- A check is armed on the clock that stands still in sleep, shortly before the other one starts
over. -/
def TimerRun.turning : TimerRun where
  clock := ⟨0, wordMax - 10⟩
  acts := [.schedule .stabilityCheck (.stability ⟨1, false, true⟩) 1000]

theorem TimerRun.nextWakeup_exact_turning :
    let rig := TimerRun.turning.rigAt 1
    rig.timers.nextWakeup rig.clock = some 1000 ∧
      (rig.act (.advance 999)).fires = [] ∧ (rig.act (.advance 1000)).fires ≠ [] ∧
      (rig.act (.advance 1000)).clock = ⟨1000, 989⟩ ∧ rig.clock.uptime + 1000 ≤ wordMax := by
  intro rig
  have words : TimerRun.turning.clock.Fits := by
    intro base
    cases base <;> decide
  have next : rig.timers.nextWakeup rig.clock = some 1000 := by decide +kernel
  have armed : rig.timers.isArmedOn .deferred .stabilityCheck = true := by decide +kernel
  obtain ⟨early, due, room, -⟩ := (TimerRun.nextWakeup_exact turning words 1).2 1000 next
  exact ⟨next, early 999 (by decide), due, by decide +kernel, room .deferred _ armed⟩

end ModemSelect
