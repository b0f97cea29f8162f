import ModemSelect.Proofs.Run
import ModemSelect.Scenario.Player

namespace ModemSelect

namespace Player

/-- A player of some scenario, after time has passed for it and actions were done in any order. -/
inductive Reachable : Player → Prop where
  | start (s : Scenario) (settings : Settings) : Reachable (start s settings)
  | advanced {p : Player} (reach : Reachable p) (time : Nat) : Reachable (p.advanceTo time)
  | performed {p : Player} (reach : Reachable p) (action : Action) : Reachable (p.perform action)

theorem reachable_steps (s : Scenario) (settings : Settings) (steps : List Step) :
    (steps.foldl play (start s settings)).Reachable := by
  have plays : ∀ (steps : List Step) (p : Player), p.Reachable →
      (steps.foldl play p).Reachable := by
    intro steps
    induction steps with
    | nil => exact fun _ reach => reach
    | cons step rest ih => exact fun p reach => ih _ (.performed (.advanced reach step.time) _)
  exact plays steps _ (.start s settings)

theorem reachable_run (s : Scenario) (settings : Settings) : (run s settings).Reachable := by
  have steps := reachable_steps s settings s.orderedSteps
  unfold run
  cases s.runUntil with
  | none => exact steps
  | some time => exact .advanced steps time

theorem obeyAll_kept {P : Player → Prop} (obey : ∀ p d, P p → P (p.obey d)) {p : Player} (h : P p)
    (directives : List Directive) : P (p.obeyAll directives) := by
  induction directives generalizing p with
  | nil => exact h
  | cons d rest ih => exact ih (obey p d h)

/-- What no wakeup upsets holds however far time moves on. -/
theorem advanceTo_kept {P : Player → Prop} (wake : ∀ p ms, P p → P (p.advance ms).poll)
    {p : Player} (h : P p) (time : Nat) : P (p.advanceTo time) := by
  have fires : ∀ (fuel : Nat) (p : Player), P p → P (fireWithin fuel p time) := by
    intro fuel
    induction fuel with
    | zero => exact fun _ h => h
    | succ fuel ih =>
      intro p h
      unfold fireWithin
      split
      · exact h
      · split
        · exact h
        · exact ih _ (wake p _ h)
  exact wake _ _ (fires _ p h)

/-- What neither an event nor a sleep upsets holds whatever is done, if it does not depend on the
handset nor on what the player waits for. -/
theorem perform_kept {P : Player → Prop} (send : ∀ p event, P p → P (p.send event))
    (sleep : ∀ p ms, P p → P (p.suspend ms).poll) (onHandset : ∀ p f, P p → P (p.onHandset f))
    (forget : ∀ p, P p → P { p with awaiting := none }) {p : Player} (h : P p) (action : Action) :
    P (p.perform action) := by
  cases action with
  | registration slot state satellite => exact send _ _ (onHandset p _ h)
  | signal slot level => exact send _ _ (onHandset p _ h)
  | display slot display => exact send _ _ (onHandset p _ h)
  | userData slot enabled => exact send _ _ (onHandset p _ h)
  | roamingData slot enabled => exact send _ _ (onHandset p _ h)
  | restrict slot reasons => exact send _ _ (onHandset p _ h)
  | subscriptions active => exact send _ _ (onHandset p _ h)
  | modemCount count => exact send _ _ (onHandset p _ h)
  | defaultCandidate slot => exact send _ _ (onHandset p _ h)
  | defaultNetwork transports hasInternet => exact send p _ h
  | validation result =>
    cases result with
    | failed => exact send _ _ (forget p h)
    | passed =>
      refine send _ _ ?_
      split
      next target _ => exact onHandset _ (·.setPreferred (some target)) (forget p h)
      next => exact h
  | evaluate => exact send p _ h
  | cancel => exact send p _ h
  | suspend ms => exact sleep p ms h

/-- What every player keeps to: its engine comes from a run and its clock reads words. -/
structure Steady (p : Player) : Prop where
  engine : p.rig.engine.Reachable
  clock : p.rig.clock.Fits

namespace Steady

variable {p : Player} (steady : p.Steady)
include steady

theorem obey (d : Directive) : (p.obey d).Steady := by
  cases d with
  | validationRequired target needs =>
    cases needs with
    | true => exact ⟨steady.engine, steady.clock⟩
    | false =>
      let moved := p.rig.handset.setPreferred (some target)
      exact ⟨steady.engine.act ⟨p.rig.clock, moved.readings⟩ (.tell .validationSucceeded),
        steady.clock⟩
  | immediateSwitch target why trigger => exact ⟨steady.engine, steady.clock⟩
  | cancelPendingValidation => exact ⟨steady.engine, steady.clock⟩

theorem obeyAll (directives : List Directive) : (p.obeyAll directives).Steady :=
  obeyAll_kept (fun _ d steady => steady.obey d) steady directives

theorem send (event : Event) : (p.send event).Steady :=
  obeyAll (p := { p with rig := (p.rig.handle event).1 })
    ⟨steady.engine.act p.rig.moment (.tell event), steady.clock⟩ _

theorem poll : p.poll.Steady :=
  obeyAll (p := { p with rig := p.rig.poll.1 })
    ⟨steady.engine.act p.rig.moment .poll, steady.clock⟩ _

theorem advance (ms : Nat) : (p.advance ms).Steady :=
  ⟨steady.engine, Clock.fits_advance p.rig.clock ms⟩

theorem onHandset (f : Handset → Handset) : (p.onHandset f).Steady :=
  ⟨steady.engine, steady.clock⟩

theorem advanceTo (time : Nat) : (p.advanceTo time).Steady :=
  advanceTo_kept (fun _ ms steady => (steady.advance ms).poll) steady time

theorem suspend (ms : Nat) : (p.suspend ms).Steady := ⟨steady.engine, steady.clock.suspend ms⟩

theorem perform (action : Action) : (p.perform action).Steady :=
  perform_kept (fun _ event steady => steady.send event)
    (fun _ ms steady => (steady.suspend ms).poll) (fun _ f steady => steady.onHandset f)
    (fun _ steady => ⟨steady.engine, steady.clock⟩) steady action

end Steady

theorem Reachable.steady {p : Player} (reach : p.Reachable) : p.Steady := by
  induction reach with
  | start s settings =>
    refine ⟨⟨⟨settings, none, s.slots, s.handset.readings, []⟩, rfl⟩, fun base => ?_⟩
    cases base <;> exact Nat.zero_le _
  | advanced _ time ih => exact ih.advanceTo time
  | performed _ action ih => exact ih.perform action

end Player

end ModemSelect
