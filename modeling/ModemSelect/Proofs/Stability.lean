import ModemSelect.Proofs.Origin

namespace ModemSelect

/-- At least the delay lies between the two beats. Short delays are counted on uptime, those of a
minute or more on realtime. -/
def Beat.Elapsed (a b : Beat) (delay : Nat) : Prop :=
  let base : TimeBase := if delay < 60000 then .uptime else .realtime
  a.moment.clock.now base + delay ≤ b.moment.clock.now base

/-- Whatever check the beat arms is due before the clock ends. -/
def Beat.Unsaturated (a : Beat) : Prop :=
  ∀ s, a.Arms s → a.moment.clock.now s.backend.timeBase + s.delay ≤ wordMax

instance (a : Beat) : Decidable a.Unsaturated :=
  decidable_of_iff
    (∀ s ∈ a.after.timers.record? .stabilityCheck,
      a.engine.timers.record? .stabilityCheck ≠ some s →
        a.moment.clock.now s.backend.timeBase + s.delay ≤ wordMax)
    ⟨fun h s arms => h s arms.1 arms.2, fun h s after before => h s ⟨after, before⟩⟩

/-- A check that was armed short of the end of the clock is delivered after its delay at least. -/
theorem Origin.elapsed {h : List Beat} {i : Nat} {p : Pending} {j c : Nat} {s : Scheduled}
    {a b : Beat} (o : Origin h i b.moment p j c s) (sound : a.course.Sound) (arms : a.Arms s)
    (unsaturated : a.Unsaturated) :
    a.Decides p ∧ a.Elapsed b (a.after.settings.stabilityDelay p.performance) := by
  obtain ⟨q, decides, -, -, note, delay, backend, deadline⟩ := Beat.arms_spec sound arms
  rw [o.note] at note
  cases note
  obtain ⟨d, -, -, -, -, due, -⟩ := o.collected
  rw [deadline, Clock.deadline, Nat.min_eq_left (unsaturated s arms), backend,
    Backend.timeBase_forDelay, delay] at due
  exact ⟨decides, due⟩

/-- No event asks for a validation by itself. Each validation that a poll asks for has a decision
for the same switch behind it that armed the check, at least its stability delay before, and no
two validations have the same one. -/
theorem stability_elapsed (r : Run)
    (unsaturated : ∀ a ∈ r.beats, a.Unsaturated) :
    (∀ (e : Engine) m event target needsValidation,
      .validationRequired target needsValidation ∉ (e.handle m event).directives) ∧
    ∃ arming : Nat → Nat,
      (∀ i b target needsValidation, r.beats[i]? = some b →
        .validationRequired target needsValidation ∈ b.directives →
        b.directives = [.validationRequired target needsValidation] ∧ arming i < i ∧
        ∃ a p s, r.beats[arming i]? = some a ∧ a.Decides p ∧ p.target = target ∧
          p.needsValidation = needsValidation ∧ a.Arms s ∧ s.note = .stability p ∧
          a.Elapsed b (a.after.settings.stabilityDelay p.performance)) ∧
      ∀ i i' b b' target target' needs needs', r.beats[i]? = some b → r.beats[i']? = some b' →
        .validationRequired target needs ∈ b.directives →
        .validationRequired target' needs' ∈ b'.directives → arming i = arming i' → i = i' := by
  refine ⟨?_, ?_⟩
  · intro e m event target needs asks
    obtain ⟨p, task, -⟩ := Beat.asks_spec (b := ⟨e, m, .event event⟩) asks
    cases task
  · have origins : ∀ i, ∃ j, ∀ b p, r.beats[i]? = some b → b.task = .deliver (.stability p) →
        ∃ c s, Origin r.beats i b.moment p j c s := by
      intro i
      by_cases delivered : ∃ b p, r.beats[i]? = some b ∧ b.task = .deliver (.stability p)
      · obtain ⟨b, p, hb, task⟩ := delivered
        obtain ⟨j, c, s, o⟩ := r.origin hb task
        refine ⟨j, fun b' p' hb' task' => ?_⟩
        rw [hb] at hb'
        cases hb'
        rw [task] at task'
        cases task'
        exact ⟨c, s, o⟩
      · exact ⟨0, fun b p hb task => absurd ⟨b, p, hb, task⟩ delivered⟩
    choose arming origin using origins
    refine ⟨arming, ?_, ?_⟩
    · intro i b target needs hb asks
      obtain ⟨p, task, htarget, hneeds, only⟩ := Beat.asks_spec asks
      obtain ⟨c, s, o⟩ := origin i b p hb task
      obtain ⟨a, ha, arms⟩ := o.armed
      have free := unsaturated a (List.mem_of_getElem? ha)
      obtain ⟨decides, elapsed⟩ := o.elapsed (r.sound_at ha) arms free
      have order := o.order
      exact ⟨only, by omega, a, p, s, ha, decides, htarget, hneeds, arms, o.note, elapsed⟩
    · intro i i' b b' target target' needs needs' hb hb' asks asks' same
      obtain ⟨p, task, -⟩ := Beat.asks_spec asks
      obtain ⟨p', task', -⟩ := Beat.asks_spec asks'
      obtain ⟨c, s, o⟩ := origin i b p hb task
      obtain ⟨c', s', o'⟩ := origin i' b' p' hb' task'
      rw [← same] at o'
      exact o.delivered_once o' hb task hb' task'

theorem stability_elapsed_debounced :
    ∃ b a p s, Run.debounced.beats[2]? = some b ∧
      Directive.validationRequired 1 true ∈ b.directives ∧ a ∈ Run.debounced.beats ∧
      a.Decides p ∧ a.Arms s ∧ a.Elapsed b (a.after.settings.stabilityDelay p.performance) := by
  obtain ⟨b, hb, asked⟩ := Run.debounced_asks
  obtain ⟨-, arming, assigned, -⟩ := stability_elapsed Run.debounced (by decide +kernel)
  obtain ⟨-, -, a, p, s, ha, decides, -, -, arms, -, elapsed⟩ := assigned 2 b 1 true hb asked
  exact ⟨b, a, p, s, hb, asked, List.mem_of_getElem? ha, decides, arms, elapsed⟩

end ModemSelect
