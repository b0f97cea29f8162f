import ModemSelect.Proofs.Ahead
import ModemSelect.Proofs.Backoff
import ModemSelect.Proofs.Origin

namespace ModemSelect

namespace Timers

/-- No recorded timer comes due within the time. -/
def Waits (t : Timers) (clock : Clock) (ms : Nat) : Prop :=
  ∀ key s, t.record? key = some s → clock.now s.backend.timeBase + ms < s.deadline

section Sound

variable {t : Timers} (h : t.Sound)
include h

theorem ahead_of_waits {clock : Clock} (waits : t.Waits clock 0) : t.Ahead clock := by
  refine ahead_iff.mpr fun due => ?_
  obtain ⟨⟨key, s, hs, left⟩, -⟩ := (nextWakeup_eq_some_iff h).mp due
  have later := waits key s hs
  omega

theorem fireDue_of_waits {clock : Clock} (waits : t.Waits clock 0) :
    t.fireDue clock = (t, []) :=
  (ahead_of_waits h waits).fireDue

theorem load_eq : t.load = (if t.isScheduled .evaluate then 2 else 0) +
    (if t.isScheduled .stabilityCheck then 1 else 0) := by
  have weight : ∀ (key : TimerKey) (n : Nat),
      (if t.queue.isArmed key then n else 0) + (if t.alarms.isArmed key then n else 0) =
        if t.isScheduled key then n else 0 := by
    intro key n
    have deferred := t.isArmedOn_eq .deferred key
    have alarm := t.isArmedOn_eq .alarm key
    rw [h.agrees] at deferred alarm
    change t.queue.isArmed key = _ at deferred
    change t.alarms.isArmed key = _ at alarm
    rw [deferred, alarm, isScheduled]
    cases t.record? key with
    | none => rfl
    | some s => cases hb : s.backend <;> simp [Option.filter, hb]
  exact congrArg₂ (· + ·) (weight .evaluate 2) (weight .stabilityCheck 1)

theorem load_mono {t' : Timers} (h' : t'.Sound)
    (fewer : ∀ key, t'.isScheduled key = true → t.isScheduled key = true) : t'.load ≤ t.load := by
  have weight : ∀ (key : TimerKey) (n : Nat),
      (if t'.isScheduled key then n else 0) ≤ if t.isScheduled key then n else 0 := by
    intro key n
    split
    next held => exact Nat.le_of_eq (if_pos (fewer key held)).symm
    next => exact Nat.zero_le _
  rw [load_eq h, load_eq h']
  exact Nat.add_le_add (weight .evaluate 2) (weight .stabilityCheck 1)

end Sound

end Timers

theorem Underway.deadline_le {h : List Beat} {e : Engine} {m : Moment}
    {tray : List (TimerKey × TimerNote)} (u : Underway h e m tray) {key : TimerKey} {s : Scheduled}
    (hs : e.timers.record? key = some s) : s.deadline ≤ wordMax := by
  induction u with
  | start => cases key <;> cases hs
  | @beat h b m tray tray' u takes ih =>
    by_cases before : b.engine.timers.record? key = some s
    · exact ih before
    · cases key with
      | evaluate =>
        rcases Beat.evaluate_after u.sound hs with same | ⟨-, delay, rfl⟩
        · exact absurd same before
        · exact Nat.min_le_right ..
      | stabilityCheck =>
        obtain ⟨p, -, -, -, -, -, -, deadline⟩ := Beat.arms_spec u.sound ⟨hs, before⟩
        rw [deadline]
        exact Nat.min_le_right ..

namespace Engine

theorem Reachable.deadline_le {e : Engine} (h : e.Reachable) {key : TimerKey} {s : Scheduled}
    (hs : e.timers.record? key = some s) : s.deadline ≤ wordMax := by
  obtain ⟨r, rfl⟩ := h
  obtain ⟨m, u⟩ := r.underway
  exact u.deadline_le hs

/-- Delivering notes arms nothing but a stability check, and that only for an evaluation. -/
theorem record?_deliveries {e : Engine} (sound : e.course.Sound) (m : Moment)
    {tray : List (TimerKey × TimerNote)} {key : TimerKey} {s : Scheduled}
    (hs : (tray.foldl (fun e x => (e.deliver m x.2).engine) e).timers.record? key = some s) :
    e.timers.record? key = some s ∨
      key = .stabilityCheck ∧ ∃ x ∈ tray, ∃ reason, x.2 = .evaluate reason := by
  induction tray generalizing e with
  | nil => exact Or.inl hs
  | cons x rest ih =>
    let b : Beat := ⟨e, m, .deliver x.2⟩
    rcases ih (Beat.sound_after (b := b) sound) hs with held | ⟨check, y, hy, asks⟩
    · by_cases before : e.timers.record? key = some s
      · exact Or.inl before
      · cases key with
        | evaluate =>
          rcases Beat.evaluate_after (b := b) sound held with same | ⟨task, -⟩
          · exact absurd same before
          · cases task
        | stabilityCheck =>
          obtain ⟨p, ⟨e', reason, evaluates, -⟩, -⟩ :=
            Beat.arms_spec (b := b) sound ⟨held, before⟩
          refine Or.inr ⟨rfl, x, List.mem_cons_self, ?_⟩
          cases kind : x.2 with
          | evaluate reason => exact ⟨reason, rfl⟩
          | stability p => simp [b, Beat.evaluation?, kind] at evaluates
    · exact Or.inr ⟨check, y, List.mem_cons_of_mem x hy, asks⟩

theorem record?_poll {e : Engine} (sound : e.course.Sound) {m : Moment} {key : TimerKey}
    {s : Scheduled} (hs : (e.poll m).1.engine.timers.record? key = some s) :
    e.timers.record? key = some s ∧ m.clock.now s.backend.timeBase < s.deadline ∨
      key = .stabilityCheck ∧ ∃ s', e.timers.record? .evaluate = some s' ∧
        s'.deadline ≤ m.clock.now s'.backend.timeBase := by
  rw [poll_engine] at hs
  have collected := Beat.sound_after (b := ⟨e, m, .collect⟩) sound
  rcases record?_deliveries collected m hs with held | ⟨check, x, hx, reason, asks⟩
  · have left := Timers.record?_fireDue sound.timers m.clock key
    have kept := Option.filter_eq_some_iff.mp (left.symm.trans held)
    exact Or.inl ⟨kept.1, by simpa using kept.2⟩
  · obtain ⟨s', recorded, note, due⟩ := (Timers.mem_fireDue sound.timers).mp hx
    have fits := sound.fitting _ _ recorded
    rw [note, asks] at fits
    cases own : x.1 with
    | evaluate => exact Or.inr ⟨check, s', own ▸ recorded, due⟩
    | stabilityCheck =>
      rw [own] at fits
      exact fits.elim

theorem unscheduled_poll {e : Engine} (sound : e.course.Sound) {m : Moment} {key : TimerKey}
    {s : Scheduled} (hs : e.timers.record? key = some s)
    (due : s.deadline ≤ m.clock.now s.backend.timeBase)
    (unarmed : key = .stabilityCheck → ∀ s', e.timers.record? .evaluate = some s' →
      m.clock.now s'.backend.timeBase < s'.deadline) :
    (e.poll m).1.engine.timers.isScheduled key = false := by
  rw [Timers.isScheduled, Option.isSome_eq_false_iff, Option.isNone_iff_eq_none,
    Option.eq_none_iff_forall_ne_some]
  intro s' left
  rcases record?_poll sound left with ⟨same, ahead⟩ | ⟨check, retry, recorded, fired⟩
  · rw [hs] at same
    cases same
    omega
  · have ahead := unarmed check retry recorded
    omega

/-- A poll that finds something due leaves less to fire. -/
theorem load_poll_lt {e : Engine} (h : e.Reachable) {m : Moment} {key : TimerKey} {s : Scheduled}
    (hs : e.timers.record? key = some s) (due : s.deadline ≤ m.clock.now s.backend.timeBase) :
    (e.poll m).1.engine.timers.load < e.timers.load := by
  have sound := h.sound
  have before : e.timers.load = _ := Timers.load_eq sound.timers
  have after : (e.poll m).1.engine.timers.load = _ := Timers.load_eq (h.act m .poll).sound.timers
  rw [before, after]
  by_cases retry : ∃ s', e.timers.record? .evaluate = some s' ∧
      s'.deadline ≤ m.clock.now s'.backend.timeBase
  · -- The retry goes, and all that may take its place is a check, which counts less.
    obtain ⟨s', recorded, passed⟩ := retry
    have held : e.timers.isScheduled .evaluate = true := by simp [Timers.isScheduled, recorded]
    have gone := unscheduled_poll sound recorded passed (fun check => by cases check)
    rw [held, gone, if_pos rfl, if_neg Bool.false_ne_true]
    split <;> omega
  · have ahead : ∀ s', e.timers.record? .evaluate = some s' →
        m.clock.now s'.backend.timeBase < s'.deadline :=
      fun s' recorded => Nat.lt_of_not_le fun passed => retry ⟨s', recorded, passed⟩
    have check : key = .stabilityCheck := by
      cases key with
      | evaluate => exact absurd ⟨s, hs, due⟩ retry
      | stabilityCheck => rfl
    subst check
    have held : e.timers.isScheduled .stabilityCheck = true := by simp [Timers.isScheduled, hs]
    have gone := unscheduled_poll sound hs due fun _ => ahead
    have kept : (e.poll m).1.engine.timers.isScheduled .evaluate = true →
        e.timers.isScheduled .evaluate = true := by
      intro left
      obtain ⟨s', left⟩ := Option.isSome_iff_exists.mp left
      rcases record?_poll sound left with ⟨same, -⟩ | ⟨other, -⟩
      · simp [Timers.isScheduled, same]
      · cases other
    rw [held, gone, if_pos rfl, if_neg Bool.false_ne_true]
    by_cases left : (e.poll m).1.engine.timers.isScheduled .evaluate = true
    · rw [if_pos left, if_pos (kept left)]
      omega
    · rw [if_neg left]
      omega

end Engine

end ModemSelect
