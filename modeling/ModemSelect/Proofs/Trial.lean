import Mathlib.Algebra.Group.Nat.Defs
import Mathlib.Order.Monotone.Basic
import ModemSelect.Proofs.Cancellation

namespace ModemSelect

namespace Engine

theorem poll_of_single {e : Engine} {m : Moment} {key : TimerKey} {note : TimerNote}
    (fired : (e.timers.fireDue m.clock).2 = [(key, note)]) :
    let collected := { e with timers := (e.timers.fireDue m.clock).1 }
    (e.poll m).1.engine = (collected.deliver m note).engine ∧
      (e.poll m).1.directives = (collected.deliver m note).directives := by
  intro collected
  refine ⟨by rw [poll_engine, fired]; rfl, ?_⟩
  rw [poll_deliveries, beatsOf_poll, fired]
  simp [deliveries, Beat.directives, Beat.outcome, collected]

end Engine

namespace Clock

/-- The clock a while later, where it does not start over. -/
def later (c : Clock) (ms : Nat) : Clock := ⟨c.uptime + ms, c.realtime + ms⟩

/-- Neither reading starts over within the time. -/
def HasRoom (c : Clock) (ms : Nat) : Prop := ∀ base, c.now base + ms ≤ wordMax

@[simp] theorem now_later (c : Clock) (ms : Nat) (base : TimeBase) :
    (c.later ms).now base = c.now base + ms := by
  cases base <;> rfl

theorem later_later (c : Clock) (a b : Nat) : (c.later a).later b = c.later (a + b) := by
  simp [later, Nat.add_assoc]

theorem HasRoom.mono {c : Clock} {short long : Nat} (room : c.HasRoom long) (h : short ≤ long) :
    c.HasRoom short :=
  fun base => Nat.le_trans (Nat.add_le_add_left h _) (room base)

theorem HasRoom.after {c : Clock} {a b : Nat} (room : c.HasRoom (a + b)) :
    (c.later a).HasRoom b := by
  intro base
  rw [now_later, Nat.add_assoc]
  exact room base

theorem HasRoom.of_later {c c' : Clock} {a b r : Nat} (room : c.HasRoom (a + r))
    (h : c'.later b = c.later a) : c'.HasRoom (b + r) := by
  intro base
  rw [← Nat.add_assoc, ← now_later, h, now_later, Nat.add_assoc]
  exact room base

theorem advance_of_hasRoom {c : Clock} {ms : Nat} (room : c.HasRoom ms) :
    c.advance ms = c.later ms := by
  have up := now_advance (room .uptime)
  have real := now_advance (room .realtime)
  simp only [now] at up real
  rw [later, ← up, ← real]

end Clock

theorem backoff_of_le {base shift : Nat} (h : base * 2 ^ shift ≤ wordMax) :
    backoff base shift = base * 2 ^ shift := by
  rw [backoff_eq, Nat.shiftLeft_eq, Nat.min_eq_left h]

/-- Each validation that is asked for is answered at once by a failure. -/
def Outcome.refused (o : Outcome) (m : Moment) : Outcome :=
  o.directives.foldl
    (fun o d =>
      match d with
      | .validationRequired .. => o.andThen fun e => e.handle m .validationFailed
      | .immediateSwitch .. | .cancelPendingValidation => o)
    o

theorem Outcome.reachable_refused {o : Outcome} (h : o.engine.Reachable) (m : Moment) :
    (o.refused m).engine.Reachable := by
  unfold refused
  generalize o.directives = directives
  induction directives generalizing o with
  | nil => exact h
  | cons d rest ih =>
    cases d with
    | validationRequired target needs => exact ih (h.act m (.tell .validationFailed))
    | immediateSwitch target why trigger => exact ih h
    | cancelPendingValidation => exact ih h

/-- An engine under a clock moved by hand, with what it has directed so far and when. -/
structure Trial where
  engine : Engine
  clock : Clock
  trace : List (Clock × Directive) := []

namespace Trial

/-- Each validation that the act asks for fails at once. -/
def act (t : Trial) (m : Moment) (a : Act) : Trial :=
  let o := (t.engine.act m a).refused m
  { engine := o.engine, clock := m.clock, trace := t.trace ++ o.directives.map (m.clock, ·) }

/-- The clock moves on to just where the engine wants to be woken, if it does, and it is polled. -/
def wake (t : Trial) (phones : Readings) : Trial :=
  match t.engine.nextWakeup t.clock with
  | none => t
  | some ms => t.act ⟨t.clock.advance ms, phones⟩ .poll

/-- An evaluation is asked for and then the engine is woken the given number of times. The handset
may read differently at each point. -/
def drive (t : Trial) (phones : Nat → Readings) (reason : Reason) : Nat → Trial
  | 0 => t.act ⟨t.clock, phones 0⟩ (.tell (.evaluationRequested reason))
  | n + 1 => (t.drive phones reason n).wake (phones (n + 1))

theorem act_of_silent {t : Trial} {m : Moment} {a : Act}
    (silent : (t.engine.act m a).directives = []) :
    (t.act m a).engine = (t.engine.act m a).engine ∧ (t.act m a).trace = t.trace := by
  simp [act, Outcome.refused, silent]

theorem act_of_asks {t : Trial} {m : Moment} {a : Act} {target : Nat} {needs : Bool}
    (asks : (t.engine.act m a).directives = [.validationRequired target needs]) :
    (t.act m a).engine = (t.engine.act m a).engine.failValidation m.clock ∧
      (t.act m a).trace = t.trace ++ [(m.clock, .validationRequired target needs)] := by
  have failed : ∀ e : Engine, e.handle m .validationFailed =
      { engine := e.failValidation m.clock } := fun _ => rfl
  simp [act, Outcome.refused, asks, Outcome.andThen, failed]

end Trial

namespace Engine

section Bare

variable {e : Engine} (bare : ∀ key, e.timers.record? key = none)
include bare

theorem evaluate_debounces {m : Moment} {p : Pending} (free : e.validating = false)
    (decided : e.decision? m.phones = some (.pending p)) (reason : Reason) :
    let o := e.evaluate m reason
    o.directives = [] ∧ o.engine.basis = e.basis ∧ o.engine.retry = e.retry ∧
      o.engine.validating = false ∧ o.engine.timers.Only .stabilityCheck
        (.start (.stability p) (e.settings.stabilityDelay p.performance) m.clock) := by
  intro o
  have outcome : o = { engine := e.awaitStability m.clock reason p } :=
    evaluate_of_pending decided reason
  have course := course_awaitStability (e := e) (p := p) (by simp [free]) m.clock reason
  obtain ⟨timers, retry, -, validating⟩ := Course.mk.inj course
  rw [outcome]
  refine ⟨rfl, basis_awaitStability .., retry, validating.trans free, ?_⟩
  rw [timers]
  exact Timers.only_schedule bare _ _ _ _

theorem failValidation_retries (room : e.retry.failures < e.settings.maxRetries) (clock : Clock) :
    let failed := e.failValidation clock
    failed.validating = false ∧ failed.retry.failures = e.retry.failures + 1 ∧
      failed.timers.Only .evaluate (.start (.evaluate .retryValidation)
        (backoff (e.settings.stabilityDelay false) e.retry.failures) clock) := by
  intro failed
  obtain ⟨timers, retry, -, validating⟩ :=
    Course.mk.inj (course_failValidation_of_lt room clock)
  refine ⟨validating, congrArg Retry.failures retry, ?_⟩
  rw [timers]
  exact Timers.only_schedule bare _ _ _ _

theorem failValidation_gives_up (full : ¬ e.retry.failures < e.settings.maxRetries)
    (clock : Clock) : (e.failValidation clock).hasPending = false := by
  obtain ⟨timers, retry, target, -⟩ :=
    Course.mk.inj (course_failValidation_of_not_lt full clock)
  simp [hasPending, timers, retry, target, Timers.isScheduled, Timers.record?_cancel, bare]

end Bare

end Engine

namespace Trial

theorem reachable_act {t : Trial} (h : t.engine.Reachable) (m : Moment) (a : Act) :
    (t.act m a).engine.Reachable :=
  Outcome.reachable_refused (h.act m a) m

theorem wake_of_idle {t : Trial} (idle : t.engine.Idle) (phones : Readings) :
    t.wake phones = t := by
  rw [wake, idle.asleep]

/-- Just one timer is on record, armed right now, and no validation is under way. -/
structure Awaits (t : Trial) (b : Basis) (key : TimerKey) (note : TimerNote)
    (delay failures : Nat) : Prop where
  reachable : t.engine.Reachable
  basis : t.engine.basis = b
  free : t.engine.validating = false
  failures : t.engine.retry.failures = failures
  only : t.engine.timers.Only key (.start note delay t.clock)

namespace Awaits

variable {t : Trial} {b : Basis} {delay failures : Nat}

/-- The engine is woken when the delay is over, and all it then does is to deliver the note. -/
theorem wake {key : TimerKey} {note : TimerNote} (a : t.Awaits b key note delay failures)
    (room : t.clock.HasRoom delay) (phones : Readings) :
    let m : Moment := ⟨t.clock.later delay, phones⟩
    t.wake phones = t.act m .poll ∧ ∃ e : Engine, e.basis = b ∧ e.validating = false ∧
      e.retry.failures = failures ∧ (∀ k, e.timers.record? k = none) ∧
      (t.engine.act m .poll).engine = (e.deliver m note).engine ∧
      (t.engine.act m .poll).directives = (e.deliver m note).directives := by
  intro m
  have sound := a.reachable.sound.timers
  -- With room on both clocks the deadline is not cut short, whichever backend the delay is on.
  have deadline : (Scheduled.start note delay t.clock).deadline =
      t.clock.now (Backend.forDelay delay).timeBase + delay := Nat.min_eq_left (room _)
  have due : (Scheduled.start note delay t.clock).deadline ≤
      m.clock.now (Scheduled.start note delay t.clock).backend.timeBase := by
    rw [deadline]
    exact Nat.le_of_eq (Clock.now_later ..).symm
  have next : t.engine.nextWakeup t.clock = some delay := by
    rw [Engine.nextWakeup, a.only.nextWakeup sound, deadline]
    exact congrArg some (Nat.add_sub_cancel_left _ _)
  obtain ⟨engine, directives⟩ := Engine.poll_of_single (a.only.fireDue_notes sound due)
  refine ⟨?_, { t.engine with timers := (t.engine.timers.fireDue m.clock).1 }, a.basis, a.free,
    a.failures, a.only.fireDue_bare sound due, engine, directives⟩
  rw [Trial.wake, next]
  exact congrArg (fun clock => t.act ⟨clock, phones⟩ .poll) (Clock.advance_of_hasRoom room)

/-- When the debounce is over the validation is asked for and fails at once. A retry follows as
long as there is one, and otherwise nothing is left. -/
theorem passes {p : Pending} (a : t.Awaits b .stabilityCheck (.stability p) delay failures)
    (room : t.clock.HasRoom delay) (enabled : b.settings.enabled = true) {phones : Readings}
    (choice : phones.leavesChoice = true) :
    let t' := t.wake phones
    t'.clock = t.clock.later delay ∧
      t'.trace = t.trace ++
        [(t.clock.later delay, .validationRequired p.target p.needsValidation)] ∧
      (failures < b.settings.maxRetries → t'.Awaits b .evaluate (.evaluate .retryValidation)
        (backoff (b.settings.stabilityDelay false) failures) (failures + 1)) ∧
      (¬ failures < b.settings.maxRetries → t'.engine.Idle) := by
  intro t'
  obtain ⟨woken, e, rfl, free, rfl, bare, engine, directives⟩ := a.wake room phones
  let m : Moment := ⟨t.clock.later delay, phones⟩
  let passed : Engine := { e with target := some p.target, validating := true }.note m.clock
    (Message.requireValidation p)
  have passes : e.deliver m (.stability p) = {
      engine := passed
      directives := [.validationRequired p.target p.needsValidation] } :=
    if_pos (Bool.and_eq_true_iff.mpr ⟨enabled, choice⟩)
  rw [passes] at engine directives
  obtain ⟨failed, trace⟩ := act_of_asks directives
  rw [engine] at failed
  have reachable := reachable_act a.reachable m .poll
  rw [← woken] at failed trace reachable
  have clock : t'.clock = m.clock := congrArg Trial.clock woken
  refine ⟨clock, trace, ?_, ?_⟩
  · intro more
    obtain ⟨free, failures, only⟩ := passed.failValidation_retries bare more m.clock
    rw [← failed] at free failures only
    exact ⟨reachable, failed ▸ passed.basis_failValidation m.clock, free, failures, clock ▸ only⟩
  · intro full
    refine Engine.idle_of_not_hasPending reachable.sound ?_
    rw [failed]
    exact passed.failValidation_gives_up bare full m.clock

theorem evaluates {p : Pending}
    (a : t.Awaits b .evaluate (.evaluate .retryValidation) delay failures)
    (room : t.clock.HasRoom delay) {phones : Readings}
    (decides : ∀ e : Engine, e.basis = b → e.decision? phones = some (.pending p)) :
    let t' := t.wake phones
    t'.clock = t.clock.later delay ∧ t'.trace = t.trace ∧
      t'.Awaits b .stabilityCheck (.stability p) (b.settings.stabilityDelay p.performance)
        failures := by
  intro t'
  obtain ⟨woken, e, rfl, free, rfl, bare, engine, directives⟩ := a.wake room phones
  let m : Moment := ⟨t.clock.later delay, phones⟩
  obtain ⟨quiet, basis, retry, unvalidated, only⟩ :=
    Engine.evaluate_debounces bare (m := m) free (decides e rfl) .retryValidation
  obtain ⟨evaluated, trace⟩ := act_of_silent (directives.trans quiet)
  have reachable := reachable_act a.reachable m .poll
  rw [engine] at evaluated
  rw [← woken] at evaluated trace reachable
  have clock : t'.clock = m.clock := congrArg Trial.clock woken
  refine ⟨clock, trace, reachable, ?_, ?_, ?_, ?_⟩
  · exact evaluated ▸ basis
  · exact evaluated ▸ unvalidated
  · exact (congrArg (·.retry.failures) evaluated).trans (congrArg Retry.failures retry)
  · rw [evaluated, clock]
    exact only

/-- A validation that fails while a retry is left takes two wakeups, one for the debounce and one
for the backoff, and brings the next debounce. -/
theorem cycle {p : Pending} (a : t.Awaits b .stabilityCheck (.stability p) delay failures)
    (more : failures < b.settings.maxRetries)
    (room : t.clock.HasRoom (delay + b.settings.availabilityThreshold.toNat * 2 ^ failures))
    (enabled : b.settings.enabled = true) {phones phones' : Readings}
    (choice : phones.leavesChoice = true)
    (decides : ∀ e : Engine, e.basis = b → e.decision? phones' = some (.pending p)) :
    let t' := (t.wake phones).wake phones'
    t'.clock = t.clock.later (delay + b.settings.availabilityThreshold.toNat * 2 ^ failures) ∧
      t'.trace = t.trace ++
        [(t.clock.later delay, .validationRequired p.target p.needsValidation)] ∧
      t'.Awaits b .stabilityCheck (.stability p) (b.settings.stabilityDelay p.performance)
        (failures + 1) := by
  have doubled : backoff (b.settings.stabilityDelay false) failures =
      b.settings.availabilityThreshold.toNat * 2 ^ failures :=
    backoff_of_le (Nat.le_trans (Nat.le_add_left _ _) (room.after .uptime))
  obtain ⟨asked, trace, retries, -⟩ :=
    a.passes (room.mono (Nat.le_add_right _ _)) enabled choice
  have retry := retries more
  rw [doubled] at retry
  obtain ⟨retried, quiet, next⟩ := retry.evaluates (asked ▸ room.after) decides
  exact ⟨by rw [retried, asked, Clock.later_later], quiet.trans trace, next⟩

end Awaits

theorem awaits_of_idle {t : Trial} (reachable : t.engine.Reachable) (idle : t.engine.Idle)
    {phones : Readings} {p : Pending} (decided : t.engine.decision? phones = some (.pending p))
    (reason : Reason) :
    let t' := t.act ⟨t.clock, phones⟩ (.tell (.evaluationRequested reason))
    t'.trace = t.trace ∧ t'.Awaits t.engine.basis .stabilityCheck (.stability p)
      (t.engine.settings.stabilityDelay p.performance) 0 := by
  intro t'
  let m : Moment := ⟨t.clock, phones⟩
  obtain ⟨quiet, basis, retry, unvalidated, only⟩ :=
    Engine.evaluate_debounces idle.unrecorded (m := m) idle.unvalidated decided reason
  obtain ⟨evaluated, trace⟩ :=
    act_of_silent (t := t) (m := m) (a := .tell (.evaluationRequested reason)) quiet
  change t'.engine = (t.engine.evaluate m reason).engine at evaluated
  refine ⟨trace, reachable_act reachable m _, ?_, ?_, ?_, ?_⟩
  · exact evaluated ▸ basis
  · exact evaluated ▸ unvalidated
  · rw [evaluated, retry, idle.unfailed]
  · exact evaluated ▸ only

end Trial

/-- How long after the request the validation is asked for that comes after the given count of
failures. -/
def Settings.askTime (s : Settings) (p : Pending) : Nat → Nat
  | 0 => s.stabilityDelay p.performance
  | k + 1 =>
    s.askTime p k + (s.availabilityThreshold.toNat * 2 ^ k + s.stabilityDelay p.performance)

theorem Settings.askTime_mono (s : Settings) (p : Pending) : Monotone (s.askTime p) :=
  monotone_nat_of_le_succ fun _ => Nat.le_add_right _ _

namespace Trial

/-- The given count of validations of the switch, each asked for in its time after the request. -/
def asks (s : Settings) (clock : Clock) (p : Pending) (count : Nat) : List (Clock × Directive) :=
  (List.range count).map fun k =>
    (clock.later (s.askTime p k), .validationRequired p.target p.needsValidation)

theorem asks_succ (s : Settings) (clock : Clock) (p : Pending) (count : Nat) :
    asks s clock p (count + 1) = asks s clock p count ++
      [(clock.later (s.askTime p count), .validationRequired p.target p.needsValidation)] := by
  simp [asks, List.range_succ]

section Drive

variable {e : Engine} {clock : Clock} {phones : Nat → Readings} {p : Pending}
  (reachable : e.Reachable) (idle : e.Idle)
  (decides : ∀ n, e.decision? (phones n) = some (.pending p))
  (room : clock.HasRoom (e.settings.askTime p e.settings.maxRetries))
include reachable idle decides room

/-- Up to the last retry every second wakeup finds the next debounce just started, which ends when
the next validation is due. -/
theorem drive_debounces (reason : Reason) {k : Nat} (hk : k ≤ e.settings.maxRetries) :
    let t := drive ⟨e, clock, []⟩ phones reason (2 * k)
    let debounce := e.settings.stabilityDelay p.performance
    t.clock.later debounce = clock.later (e.settings.askTime p k) ∧
      t.trace = asks e.settings clock p k ∧
      t.Awaits e.basis .stabilityCheck (.stability p) debounce k := by
  -- The clock is followed by the end of the debounce, which is where the next wakeup takes it.
  induction k with
  | zero =>
    obtain ⟨trace, awaits⟩ := awaits_of_idle (t := ⟨e, clock, []⟩) reachable idle (decides 0) reason
    exact ⟨rfl, trace, awaits⟩
  | succ k ih =>
    intro t debounce
    let t₀ := drive ⟨e, clock, []⟩ phones reason (2 * k)
    have twice : t = (t₀.wake (phones (2 * k + 1))).wake (phones (2 * k + 2)) := rfl
    obtain ⟨due, trace, awaits⟩ := ih (Nat.le_of_succ_le hk)
    have rest := room.mono (e.settings.askTime_mono p hk)
    rw [Settings.askTime, ← Nat.add_assoc] at rest
    have wait := (rest.mono (Nat.le_add_right _ _)).of_later due
    obtain ⟨enabled, choice, -⟩ := Engine.decision?_eq_some_iff.mp (decides (2 * k + 1))
    obtain ⟨clock', trace', awaits'⟩ := awaits.cycle hk wait enabled choice fun e' same =>
      (Engine.decision?_of_basis same (phones (2 * k + 2))).trans (decides (2 * k + 2))
    rw [← twice] at clock' trace' awaits'
    refine ⟨?_, ?_, awaits'⟩
    · rw [clock', ← Clock.later_later, due, Clock.later_later, Clock.later_later]
      rfl
    · rw [trace', trace, due, asks_succ]

theorem drive_gives_up (reason : Reason) :
    let t := drive ⟨e, clock, []⟩ phones reason (2 * e.settings.maxRetries + 1)
    t.engine.Idle ∧ t.trace = asks e.settings clock p (e.settings.maxRetries + 1) := by
  intro t
  let n := 2 * e.settings.maxRetries
  obtain ⟨due, trace, awaits⟩ := drive_debounces reachable idle decides room reason (Nat.le_refl _)
  obtain ⟨enabled, choice, -⟩ := Engine.decision?_eq_some_iff.mp (decides (n + 1))
  obtain ⟨-, trace', -, ends⟩ := awaits.passes (room.of_later (r := 0) due) enabled choice
  refine ⟨ends (Nat.lt_irrefl _), ?_⟩
  rw [asks_succ, ← trace, ← due]
  exact trace'

end Drive

/-- As long as the policy keeps deciding on a switch and each validation of it fails, it is asked
for once more than there are retries, after its debounce at first and then each time after a backoff
twice as long as the last and its debounce. Nothing else is directed, and in the end nothing of the
switch is left and the engine sleeps. -/
theorem bounded_retries {e : Engine} (reachable : e.Reachable) (idle : e.Idle)
    (enabled : 0 ≤ e.settings.availabilityThreshold) {phones : Nat → Readings}
    (choice : ∀ n, 2 ≤ (phones n).active.size) {p : Pending}
    (decided : ∀ n, e.decide (phones n) = .ok (.pending p)) {clock : Clock}
    (room : clock.HasRoom (e.settings.askTime p e.settings.maxRetries)) (reason : Reason) {n : Nat}
    (hn : 2 * e.settings.maxRetries + 1 ≤ n) :
    let t := drive ⟨e, clock, []⟩ phones reason n
    t.engine.Idle ∧ t.trace = asks e.settings clock p (e.settings.maxRetries + 1) := by
  have decides : ∀ n, e.decision? (phones n) = some (.pending p) := by
    intro n
    exact Engine.decision?_eq_some_iff.mpr
      ⟨decide_eq_true enabled, decide_eq_true (choice n), decided n⟩
  -- An idle engine wants no wakeup, so whatever comes after the last failure changes nothing.
  induction n, hn using Nat.le_induction with
  | base => exact drive_gives_up reachable idle decides room reason
  | succ n _ ih =>
    let before := drive ⟨e, clock, []⟩ phones reason n
    have asleep : drive ⟨e, clock, []⟩ phones reason (n + 1) = before := wake_of_idle ih.1 _
    rw [asleep]
    exact ih

/-- The backoffs of half a minute and of a minute are kept on different backends. -/
theorem bounded_retries_doubled :
    let settings : Settings := { availabilityThreshold := 30000, maxRetries := 2 }
    let phones : Nat → Readings := fun _ => .sample .outOfService [0, 1]
    let e := (Engine.start settings none 2 (phones 0)).engine
    let t := drive ⟨e, {}, []⟩ phones .external 5
    t.engine.Idle ∧ t.trace = [
      (⟨30000, 30000⟩, .validationRequired 1 true),
      (⟨90000, 90000⟩, .validationRequired 1 true),
      (⟨180000, 180000⟩, .validationRequired 1 true)] := by
  intro settings phones e
  have reachable : e.Reachable := ⟨⟨settings, none, 2, phones 0, []⟩, rfl⟩
  have idle : e.Idle := Engine.idle_of_not_hasPending reachable.sound (by decide +kernel)
  have decision : e.decision? (phones 0) = some (.pending ⟨1, false, true⟩) := by decide +kernel
  have decided : ∀ n, e.decide (phones n) = .ok (.pending ⟨1, false, true⟩) :=
    fun _ => (Engine.decision?_eq_some_iff.mp decision).2.2
  have choice : ∀ n, 2 ≤ (phones n).active.size := fun _ => by decide
  have room : Clock.HasRoom {} (settings.askTime ⟨1, false, true⟩ settings.maxRetries) := by
    intro base
    cases base <;> decide
  obtain ⟨ends, trace⟩ :=
    bounded_retries reachable idle (by decide) choice decided room .external (Nat.le_refl 5)
  exact ⟨ends, trace.trans (by decide +kernel)⟩

end Trial

end ModemSelect
