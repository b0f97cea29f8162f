import ModemSelect.Proofs.Firing
import ModemSelect.Proofs.Progress
import ModemSelect.Proofs.Turn

namespace ModemSelect

/-- The note is of the kind that the timer carries. -/
def TimerKey.Fits : TimerKey → TimerNote → Prop
  | .evaluate, .evaluate _ | .stabilityCheck, .stability _ => True
  | .evaluate, .stability _ | .stabilityCheck, .evaluate _ => False

namespace Timers

def Fitting (t : Timers) : Prop := ∀ key s, t.record? key = some s → key.Fits s.note

theorem fitting_cancel {t : Timers} (h : t.Fitting) (key : TimerKey) : (t.cancel key).1.Fitting := by
  intro k s hs
  rw [record?_cancel] at hs
  split at hs
  next => cases hs
  next => exact h k s hs

theorem fitting_arm {t : Timers} (h : t.Fitting) {key : TimerKey} {note : TimerNote}
    (fits : key.Fits note) (delay : Nat) (clock : Clock) :
    (t.arm key note delay clock).Fitting := by
  intro k s hs
  rw [record?_arm] at hs
  split at hs
  next he =>
    cases hs
    exact he ▸ fits
  next => exact h k s hs

theorem fitting_schedule {t : Timers} (h : t.Fitting) {key : TimerKey} {note : TimerNote}
    (fits : key.Fits note) (delay : Nat) (clock : Clock) :
    (t.schedule key note delay clock).1.Fitting := by
  unfold schedule
  split
  · exact h
  · exact fitting_arm h fits delay clock

theorem fitting_fireDue {t : Timers} (sound : t.Sound) (h : t.Fitting) (clock : Clock) :
    (t.fireDue clock).1.Fitting := by
  intro k s hs
  rw [record?_fireDue sound, Option.filter_eq_some_iff] at hs
  exact h k s hs.1

end Timers

namespace Course

/-- What every course of an engine keeps to: the records agree with the backends, each timer
carries notes of its kind, a validation has a target, and an evaluation is only scheduled after a
failure. -/
structure Sound (c : Course) : Prop where
  timers : c.timers.Sound
  fitting : c.timers.Fitting
  aimed : c.validating = true → c.target ≠ none
  failed : c.timers.record? .evaluate ≠ none → 0 < c.retry.failures

theorem sound_cleared {c : Course} (h : c.Sound) : c.cleared.Sound where
  timers := Timers.sound_cancel (Timers.sound_cancel h.timers _) _
  fitting := Timers.fitting_cancel (Timers.fitting_cancel h.fitting _) _
  aimed := fun hv => by cases hv
  failed := fun hr => by simp [Course.cleared, Timers.record?_cancel] at hr

end Course

theorem Beat.sound_after {b : Beat} (h : b.course.Sound) : b.after.course.Sound := by
  cases b.turn with
  | still course => rwa [course]
  | stopped d course =>
    rw [course]
    exact Course.sound_cleared h
  | disregarded p decides busy course => rwa [course]
  | kept p decides free carries course =>
    rw [course]
    exact ⟨h.timers, h.fitting, fun _ => by simp, h.failed⟩
  | armed p decides free fresh course =>
    rw [course]
    have fits : TimerKey.Fits .stabilityCheck (.stability p) := trivial
    refine ⟨Timers.sound_arm h.timers .., Timers.fitting_arm h.fitting fits _ _,
      fun _ => by simp, fun hr => h.failed ?_⟩
    rwa [Timers.record?_arm, if_neg (by decide)] at hr
  | retried delay task course =>
    rw [course]
    have fits : TimerKey.Fits .evaluate (.evaluate .retryValidation) := trivial
    exact ⟨Timers.sound_schedule h.timers .., Timers.fitting_schedule h.fitting fits _ _,
      fun hv => (by cases hv), fun _ => Nat.succ_pos _⟩
  | exhausted task course =>
    rw [course]
    exact ⟨Timers.sound_cancel h.timers _, Timers.fitting_cancel h.fitting _,
      fun hv => (by cases hv), fun hr => by simp [Timers.record?_cancel] at hr⟩
  | completed task course =>
    rw [course]
    exact ⟨Timers.sound_cancel h.timers _, Timers.fitting_cancel h.fitting _,
      fun hv => (by cases hv), fun hr => by simp [Timers.record?_cancel] at hr⟩
  | passed p task course =>
    rw [course]
    exact ⟨h.timers, h.fitting, fun _ => by simp, h.failed⟩
  | collected task course =>
    rw [course]
    refine ⟨Timers.sound_fireDue h.timers _, Timers.fitting_fireDue h.timers h.fitting _,
      h.aimed, fun hr => h.failed fun bare => hr ?_⟩
    refine (Timers.record?_fireDue h.timers b.moment.clock .evaluate).trans ?_
    rw [bare]
    rfl

theorem Underway.sound {h : List Beat} {e : Engine} {m : Moment}
    {tray : List (TimerKey × TimerNote)} (u : Underway h e m tray) : e.course.Sound := by
  induction u with
  | start settings scorer count phones m =>
    refine ⟨Timers.sound_empty, ?_, fun hv => (by cases hv), fun hr => absurd rfl hr⟩
    intro key s hs
    cases key <;> cases hs
  | beat _ _ ih => exact Beat.sound_after ih

theorem Engine.Reachable.sound {e : Engine} (h : e.Reachable) : e.course.Sound := by
  obtain ⟨r, rfl⟩ := h
  obtain ⟨m, u⟩ := r.underway
  exact u.sound

end ModemSelect
