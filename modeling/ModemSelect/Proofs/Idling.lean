import ModemSelect.Proofs.Ahead
import ModemSelect.Proofs.Challengers
import ModemSelect.Proofs.Decided
import ModemSelect.Proofs.Disabled
import ModemSelect.Proofs.Returns
import ModemSelect.Worker

namespace ModemSelect

/-- No switch is made without a debounce: both kinds are debounced or turned off. -/
def Settings.Debounces (s : Settings) : Prop :=
  s.availabilityThreshold ≠ 0 ∧ s.performanceThreshold ≠ 0

namespace Engine

theorem stabilityDelay_pos {e : Engine} {phones : Readings} {p : Pending}
    (debounces : e.settings.Debounces) (h : e.decision? phones = some (.pending p)) :
    0 < e.settings.stabilityDelay p.performance := by
  obtain ⟨enabled, -, decided⟩ := decision?_eq_some_iff.mp h
  obtain ⟨availability, performance⟩ := debounces
  have compares : p.performance = true → e.settings.comparesScores = true := by
    generalize hd : Decision.pending p = d at decided
    cases decide_eq_ok.mp decided with
    | leaving => exact Situation.leaveDefault_performance hd.symm
    | returning => exact Situation.returnToDefault_performance hd.symm
  rw [Settings.stabilityDelay]
  split
  next performs =>
    have on := compares performs
    simp only [Settings.comparesScores, Bool.and_eq_true, decide_eq_true_eq] at on
    omega
  next =>
    simp only [Settings.enabled, decide_eq_true_eq] at enabled
    omega

/-- A note that is delivered leaves nothing due: an evaluation arms no more than a stability check,
and that after a debounce. -/
theorem ahead_deliver {e : Engine} {m : Moment} (debounces : e.settings.Debounces)
    (runs : m.clock.Runs) (ahead : e.timers.Ahead m.clock) (note : TimerNote) :
    (e.deliver m note).engine.timers.Ahead m.clock := by
  let b : Beat := ⟨e, m, .deliver note⟩
  have settings : b.after.settings = e.settings := settings_of_basis (basis_deliver e m note)
  have same {t : Timers} (timers : t.Ahead m.clock) (h : b.after.timers = t) :
      (e.deliver m note).engine.timers.Ahead m.clock := h ▸ timers
  cases b.turn with
  | still course => exact same ahead (timers_of_course course)
  | stopped d course =>
    exact same ((ahead.cancel .stabilityCheck).cancel .evaluate) (timers_of_course course)
  | disregarded p decides busy course => exact same ahead (timers_of_course course)
  | kept p decides free carries course => exact same ahead (timers_of_course course)
  | armed p decides free fresh course =>
    obtain ⟨e', reason, evaluates, pending⟩ := decides
    obtain ⟨-, after, -⟩ := Beat.evaluation_spec evaluates
    have evaluated : e'.settings = e.settings := by
      rw [← settings, after, settings_evaluate]
    have later := stabilityDelay_pos (evaluated ▸ debounces) pending
    rw [evaluated, ← settings] at later
    exact same (ahead.arm runs later _ _) (timers_of_course course)
  | retried _ task => cases task
  | exhausted task => cases task
  | completed task => cases task
  | passed p task course => exact same ahead (timers_of_course course)
  | collected task => cases task

/-- After a poll nothing is due, whatever was before. -/
theorem ahead_poll {e : Engine} {m : Moment} (debounces : e.settings.Debounces)
    (runs : m.clock.Runs) : (e.poll m).1.engine.timers.Ahead m.clock := by
  have deliveries : ∀ (tray : List (TimerKey × TimerNote)) (e : Engine), e.settings.Debounces →
      e.timers.Ahead m.clock →
      (tray.foldl (fun e x => (e.deliver m x.2).engine) e).timers.Ahead m.clock := by
    intro tray
    induction tray with
    | nil => exact fun _ _ ahead => ahead
    | cons x rest ih =>
      intro e debounces ahead
      have settings := settings_of_basis (basis_deliver e m x.2)
      exact ih _ (settings ▸ debounces) (ahead_deliver debounces runs ahead x.2)
  rw [poll_engine]
  exact deliveries _ _ debounces (Timers.ahead_fireDue e.timers m.clock)

theorem poll_of_ahead {e : Engine} {m : Moment} (ahead : e.timers.Ahead m.clock) :
    e.poll m = ({ engine := e }, 0) := by
  rw [poll, ahead.fireDue]
  rfl

end Engine

namespace Rig

/-- No timer is due, and none will be that is armed after a debounce. -/
structure Calm (r : Rig) : Prop where
  runs : r.clock.Runs
  ahead : r.engine.timers.Ahead r.clock
  debounces : r.engine.settings.Debounces

theorem calm_poll {r : Rig} (runs : r.clock.Runs) (debounces : r.engine.settings.Debounces) :
    r.poll.1.Calm where
  runs := runs
  ahead := Engine.ahead_poll (m := r.moment) debounces runs
  debounces := Engine.settings_of_basis (Engine.basis_poll r.engine r.moment) ▸ debounces

theorem Calm.poll {r : Rig} (calm : r.Calm) : r.poll = (r, [], 0) := by
  rw [Rig.poll, Engine.poll_of_ahead (m := r.moment) calm.ahead]
  rfl

end Rig

/-- What a worker meets with: mail, a wait for it in vain, or a change of the handset that nobody
announces. -/
inductive Encounter where
  | mail (mail : Mail)
  | timeout
  | meanwhile (change : Handset → Handset)

namespace Encounter

def isTimeout : Encounter → Bool
  | .timeout => true
  | .mail _ | .meanwhile _ => false

/-- The settings that it brings, if any, leave no switch without a debounce. -/
def Debounces (x : Encounter) : Prop :=
  ∀ settings, x = .mail (.event (.settingsChanged settings)) → settings.Debounces

end Encounter

namespace Rig

/-- The rig on its own, polled once after each event and never else. -/
def attend (r : Rig) : Encounter → Rig
  | .mail (.event event) => (r.handle event).1.poll.1
  | .meanwhile change => { r with handset := change r.handset }
  | .mail .snapshot | .mail .shutdown | .timeout => r

theorem Calm.attend {r : Rig} (calm : r.Calm) {x : Encounter} (fresh : x.Debounces) :
    (r.attend x).Calm := by
  cases x with
  | mail mail =>
    cases mail with
    | event event =>
      have settings : (r.handle event).1.engine.settings = (Act.tell event).inForce r.engine :=
        Engine.settings_act r.engine r.moment (.tell event)
      refine calm_poll calm.runs (settings ▸ ?_)
      cases event with
      | settingsChanged brought => exact fresh brought rfl
      | _ => exact calm.debounces
    | snapshot => exact calm
    | shutdown => exact calm
  | timeout => exact calm
  | meanwhile change => exact ⟨calm.runs, calm.ahead, calm.debounces⟩

end Rig

/-- A worker with the directives that it has given and the snapshots that it has returned. -/
structure Shift where
  worker : Worker
  directives : List Directive := []
  snapshots : List Rig := []

namespace Worker

def meet (w : Worker) : Encounter → Worker × Reply
  | .mail mail => w.receive mail
  | .timeout =>
    let (w, directives) := w.idle
    (w, { directives })
  | .meanwhile change => ({ w with rig := w.rig.attend (.meanwhile change) }, {})

theorem idle_of_calm {w : Worker} (calm : w.rig.Calm) : w.idle = (w, []) := by
  unfold idle
  split
  · rw [calm.poll]
  · rfl

theorem meet_of_open {w : Worker} (calm : w.rig.Calm) (running : w.isOpen = true) {x : Encounter}
    (stays : x ≠ .mail .shutdown) : (w.meet x).1 = ⟨w.rig.attend x, true⟩ := by
  obtain ⟨rig, isOpen⟩ := w
  subst running
  cases x with
  | mail mail =>
    cases mail with
    | event event => rfl
    | snapshot =>
      change (idle ⟨rig, true⟩).1 = ⟨rig, true⟩
      rw [idle_of_calm calm]
    | shutdown => exact absurd rfl stays
  | timeout =>
    change (idle ⟨rig, true⟩).1 = ⟨rig, true⟩
    rw [idle_of_calm calm]
  | meanwhile change => rfl

theorem calm_meet {w : Worker} (calm : w.rig.Calm) {x : Encounter} (fresh : x.Debounces) :
    (w.meet x).1.rig.Calm := by
  cases running : w.isOpen with
  | true =>
    by_cases stays : x = .mail .shutdown
    · subst stays
      simpa [meet, receive, running] using calm
    · rw [meet_of_open calm running stays]
      exact calm.attend fresh
  | false =>
    cases x with
    | mail mail => simpa [meet, receive, running] using calm
    | timeout => simpa [meet, idle_of_calm calm] using calm
    | meanwhile change => exact calm.attend fresh

end Worker

namespace Shift

def next (s : Shift) (x : Encounter) : Shift where
  worker := (s.worker.meet x).1
  directives := s.directives ++ (s.worker.meet x).2.directives
  snapshots := s.snapshots ++ (s.worker.meet x).2.snapshot.toList

theorem next_timeout {s : Shift} (calm : s.worker.rig.Calm) : s.next .timeout = s := by
  simp [next, Worker.meet, Worker.idle_of_calm calm]

theorem foldl_next_filter {s : Shift} (calm : s.worker.rig.Calm) {xs : List Encounter}
    (fresh : ∀ x ∈ xs, x.Debounces) :
    (xs.filter (!·.isTimeout)).foldl next s = xs.foldl next s := by
  induction xs generalizing s with
  | nil => rfl
  | cons x rest ih =>
    obtain ⟨first, later⟩ := List.forall_mem_cons.mp fresh
    have tail := ih (s := s.next x) (Worker.calm_meet calm first) later
    cases x with
    | timeout =>
      rw [next_timeout calm] at tail
      rw [List.foldl_cons, next_timeout calm]
      exact tail
    | mail mail => exact tail
    | meanwhile change => exact tail

/-- Until it is shut down, the worker is the rig on its own. -/
theorem worker_foldl_next {s : Shift} (calm : s.worker.rig.Calm)
    (running : s.worker.isOpen = true) {xs : List Encounter} (fresh : ∀ x ∈ xs, x.Debounces)
    (stays : .mail .shutdown ∉ xs) :
    (xs.foldl next s).worker = ⟨xs.foldl Rig.attend s.worker.rig, true⟩ := by
  induction xs generalizing s with
  | nil => exact congrArg (Worker.mk s.worker.rig) running
  | cons x rest ih =>
    obtain ⟨first, later⟩ := List.forall_mem_cons.mp fresh
    obtain ⟨other, others⟩ := List.ne_and_not_mem_of_not_mem_cons stays
    have worker : (s.next x).worker = ⟨s.worker.rig.attend x, true⟩ :=
      Worker.meet_of_open calm running (Ne.symm other)
    have tail := ih (Worker.calm_meet calm first) (congrArg Worker.isOpen worker) later others
    rw [worker] at tail
    exact tail

theorem snapshots_prefix (s : Shift) (xs : List Encounter) :
    s.snapshots <+: (xs.foldl next s).snapshots := by
  induction xs generalizing s with
  | nil => exact List.prefix_refl _
  | cons x rest ih => exact (List.prefix_append _ _).trans (ih (s.next x))

end Shift

namespace Worker

def work (w : Worker) (xs : List Encounter) : Shift := xs.foldl Shift.next { worker := w }

/-- Where no timer is due at first and every switch is debounced or turned off, it does not show
how often the worker waits in vain, and until the shutdown each snapshot is of the rig that was
polled just once after each event. No poll leaves a timer due. -/
theorem timeouts_invisible {w : Worker} {xs : List Encounter} (running : w.isOpen = true)
    (runs : w.rig.clock.Runs) (undue : w.rig.nextWakeup ≠ some 0)
    (debounces : w.rig.engine.settings.Debounces) (fresh : ∀ x ∈ xs, x.Debounces) :
    w.work xs = w.work (xs.filter (!·.isTimeout)) ∧
      (∀ before after, xs = before ++ .mail .snapshot :: after → .mail .shutdown ∉ before →
        (w.work before).snapshots ++ [before.foldl Rig.attend w.rig] <+: (w.work xs).snapshots) ∧
      ∀ (e : Engine) (phones later : Readings), e.settings.Debounces →
        (e.poll ⟨w.rig.clock, phones⟩).1.engine.nextWakeup w.rig.clock ≠ some 0 ∧
          (e.poll ⟨w.rig.clock, phones⟩).1.engine.poll ⟨w.rig.clock, later⟩ =
            ({ engine := (e.poll ⟨w.rig.clock, phones⟩).1.engine }, 0) := by
  have calm : w.rig.Calm := ⟨runs, Timers.ahead_iff.mpr undue, debounces⟩
  refine ⟨(Shift.foldl_next_filter (s := { worker := w }) calm fresh).symm, ?_, ?_⟩
  · intro before after same stays
    subst same
    have worker := Shift.worker_foldl_next (s := { worker := w }) calm running
      (fun x hx => fresh x (List.mem_append_left _ hx)) stays
    have answered : ((w.work before).next (.mail .snapshot)).snapshots =
        (w.work before).snapshots ++ [before.foldl Rig.attend w.rig] := by
      rw [work, Shift.next, worker]
      simp [meet, receive]
    have split : w.work (before ++ .mail .snapshot :: after) =
        after.foldl Shift.next ((w.work before).next (.mail .snapshot)) := List.foldl_append
    rw [split, ← answered]
    exact Shift.snapshots_prefix _ after
  · intro e phones later debounces
    have ahead := Engine.ahead_poll (m := ⟨w.rig.clock, phones⟩) debounces runs
    exact ⟨Timers.ahead_iff.mp ahead, Engine.poll_of_ahead (m := ⟨w.rig.clock, later⟩) ahead⟩

/-- The default slot is out of service, and a check for the other one is due in ten seconds. -/
def onDuty : Worker where
  rig :=
    let phones := (SlotMap.ofCount 2).set 0 { registration := { state := .outOfService } }
    let handset : Handset := {
      phones := phones.set 1 {}
      active := SlotSet.ofList [0, 1]
      defaultSlot := some 0 }
    ((Rig.mount {} none 2 handset {}).handle (.evaluationRequested .external)).1

/-- A failure is reported once switching is off, so that its retry is due at once. -/
def lateFailure : List Encounter := [
  .timeout,
  .mail (.event (.settingsChanged { availabilityThreshold := -1 })),
  .mail (.event .validationFailed),
  .timeout,
  .mail .snapshot,
  .timeout]

theorem timeouts_invisible_lateFailure :
    onDuty.rig.nextWakeup = some 10000 ∧
      (((lateFailure.take 2).foldl Rig.attend onDuty.rig).handle .validationFailed).1.nextWakeup =
        some 0 ∧
      onDuty.work lateFailure = onDuty.work (lateFailure.filter (!·.isTimeout)) ∧
      (onDuty.work (lateFailure.take 4)).snapshots ++
        [(lateFailure.take 4).foldl Rig.attend onDuty.rig] <+:
          (onDuty.work lateFailure).snapshots := by
  have wakeup : onDuty.rig.nextWakeup = some 10000 := by decide +kernel
  have due : (((lateFailure.take 2).foldl Rig.attend onDuty.rig).handle
      .validationFailed).1.nextWakeup = some 0 := by decide +kernel
  have runs : onDuty.rig.clock.Runs := by
    intro base
    cases base <;> decide +kernel
  have debounces : onDuty.rig.engine.settings.Debounces := by
    constructor <;> decide +kernel
  have fresh : ∀ x ∈ lateFailure, x.Debounces := by
    intro x hx settings brings
    subst brings
    simp only [lateFailure, List.mem_cons, Encounter.mail.injEq, Mail.event.injEq,
      Event.settingsChanged.injEq, reduceCtorEq, false_or, or_false, List.not_mem_nil] at hx
    subst hx
    constructor <;> decide
  have invisible := timeouts_invisible (by decide +kernel) runs (by simp [wakeup]) debounces fresh
  refine ⟨wakeup, due, invisible.1, invisible.2.1 (lateFailure.take 4) [.timeout] rfl ?_⟩
  simp [lateFailure]

end Worker

end ModemSelect
