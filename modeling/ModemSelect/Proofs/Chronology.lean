import ModemSelect.Proofs.Passage

namespace ModemSelect

/-- The same steps in another order, in which those at one time stand as they stood. -/
structure Reordered (xs ys : List Step) : Prop where
  perm : xs.Perm ys
  alike : ∀ time, xs.filter (·.time = time) = ys.filter (·.time = time)

section Alike

variable {x y : Step} {xs ys : List Step}

theorem time_head_le (sorted : (x :: xs).Pairwise (·.time ≤ ·.time))
    (alike : (x :: xs).filter (·.time = y.time) = (y :: ys).filter (·.time = y.time)) :
    x.time ≤ y.time := by
  have found : y ∈ (y :: ys).filter (·.time = y.time) := by simp
  rw [← alike] at found
  rcases List.mem_cons.mp (List.mem_filter.mp found).1 with rfl | later
  · exact Nat.le_refl _
  · exact List.rel_of_pairwise_cons sorted later

/-- Steps in the order of time are told by those that are at each time. -/
theorem eq_of_pairwise_of_alike (hx : xs.Pairwise (·.time ≤ ·.time))
    (hy : ys.Pairwise (·.time ≤ ·.time))
    (alike : ∀ time, xs.filter (·.time = time) = ys.filter (·.time = time)) : xs = ys := by
  induction xs generalizing ys with
  | nil =>
    cases ys with
    | nil => rfl
    | cons y ys =>
      have none := alike y.time
      simp at none
  | cons x xs ih =>
    cases ys with
    | nil =>
      have none := alike x.time
      simp at none
    | cons y ys =>
      have same : x.time = y.time :=
        Nat.le_antisymm (time_head_le hx (alike y.time)) (time_head_le hy (alike x.time).symm)
      have heads := alike x.time
      rw [List.filter_cons_of_pos (by simp), List.filter_cons_of_pos (by simp [same])] at heads
      cases List.head_eq_of_cons_eq heads
      refine congrArg (x :: ·) (ih hx.of_cons hy.of_cons fun time => ?_)
      have rest := alike time
      by_cases at_x : x.time = time
      · rw [List.filter_cons_of_pos (by simp [at_x]), List.filter_cons_of_pos (by simp [at_x])]
          at rest
        exact List.tail_eq_of_cons_eq rest
      · rwa [List.filter_cons_of_neg (by simp [at_x]), List.filter_cons_of_neg (by simp [at_x])]
          at rest

end Alike

namespace Scenario

private theorem time_le_trans (a b c : Step) (h : decide (a.time ≤ b.time) = true)
    (h' : decide (b.time ≤ c.time) = true) : decide (a.time ≤ c.time) = true :=
  decide_eq_true (Nat.le_trans (of_decide_eq_true h) (of_decide_eq_true h'))

private theorem time_le_total (a b : Step) :
    (decide (a.time ≤ b.time) || decide (b.time ≤ a.time)) = true := by
  simpa using Nat.le_total a.time b.time

theorem perm_orderedSteps (s : Scenario) : s.orderedSteps.Perm s.steps :=
  List.mergeSort_perm _ _

theorem pairwise_orderedSteps (s : Scenario) : s.orderedSteps.Pairwise (·.time ≤ ·.time) :=
  (List.pairwise_mergeSort time_le_trans time_le_total s.steps).imp of_decide_eq_true

theorem filter_orderedSteps (s : Scenario) (time : Nat) :
    s.orderedSteps.filter (·.time = time) = s.steps.filter (·.time = time) := by
  -- Those at one time are in order as they stand, so the sort has them in that order.
  have level : (s.steps.filter (·.time = time)).Pairwise fun a b => decide (a.time ≤ b.time) := by
    refine List.pairwise_of_forall_mem_list fun a ha b hb => decide_eq_true ?_
    have at_a := of_decide_eq_true (List.mem_filter.mp ha).2
    have at_b := of_decide_eq_true (List.mem_filter.mp hb).2
    omega
  have kept : (s.steps.filter (·.time = time)).Sublist s.orderedSteps :=
    List.sublist_mergeSort time_le_trans time_le_total level List.filter_sublist
  have among := kept.filter (·.time = time)
  simp only [List.filter_filter, Bool.and_self] at among
  exact (among.eq_of_length ((s.perm_orderedSteps.filter _).length_eq).symm).symm

/-- The order in the file tells nothing but the order of the steps at one time. -/
theorem orderedSteps_eq_iff {s s' : Scenario} :
    s.orderedSteps = s'.orderedSteps ↔ Reordered s.steps s'.steps := by
  constructor
  · intro same
    refine ⟨s.perm_orderedSteps.symm.trans (same ▸ s'.perm_orderedSteps), fun time => ?_⟩
    rw [← filter_orderedSteps, same, filter_orderedSteps]
  · intro reordered
    refine eq_of_pairwise_of_alike s.pairwise_orderedSteps s'.pairwise_orderedSteps
      fun time => ?_
    rw [filter_orderedSteps, filter_orderedSteps]
    exact reordered.alike time

end Scenario

namespace Player

/-- Time passes until the given uptime, if there is one. -/
def runOut (p : Player) : Option Nat → Player
  | some time => p.advanceTo time
  | none => p

theorem run_eq (s : Scenario) (settings : Settings) :
    run s settings = (s.orderedSteps.foldl play (start s settings)).runOut s.runUntil := by
  unfold run runOut
  cases s.runUntil <;> rfl

theorem Reaches.steady {time : Nat} {p q : Player} (reaches : Reaches time p q)
    (steady : p.Steady) : q.Steady := by
  induction reaches with
  | rested => exact steady
  | woken _ _ _ ih => exact ih (steady.advance _).poll

theorem clock_send (p : Player) (event : Event) : (p.send event).rig.clock = p.rig.clock :=
  clock_obeyAll _ _

/-- Whatever is done, no uptime passes meanwhile. -/
theorem continues_perform (p : Player) (action : Action) :
    p.Continues (p.perform action) ∧
      (p.perform action).rig.clock.uptime = p.rig.clock.uptime := by
  let kept := fun q : Player => p.Continues q ∧ q.rig.clock.uptime = p.rig.clock.uptime
  have send : ∀ q event, kept q → kept (q.send event) := by
    intro q event h
    exact ⟨h.1.trans (continues_send q event), by rw [clock_send]; exact h.2⟩
  have sleep : ∀ q ms, kept q → kept (q.suspend ms).poll := by
    intro q ms h
    have asleep : p.Continues (q.suspend ms) := ⟨h.1.uptime, h.1.trace⟩
    exact ⟨asleep.trans (continues_poll _), by rw [clock_poll]; exact h.2⟩
  exact perform_kept send sleep (fun q f h => ⟨⟨h.1.uptime, h.1.trace⟩, h.2⟩)
    (fun q h => ⟨⟨h.1.uptime, h.1.trace⟩, h.2⟩) ⟨.refl p, rfl⟩ action

namespace Steady

variable {p : Player} (steady : p.Steady)
include steady

theorem play (step : Step) : (p.play step).Steady := (steady.advanceTo step.time).perform _

theorem playAll (steps : List Step) : (steps.foldl Player.play p).Steady := by
  induction steps generalizing p with
  | nil => exact steady
  | cons step rest ih => exact ih (steady.play step)

section Room

variable {time : Nat} (room : time < wordMax)
include room

theorem continues_advanceTo : p.Continues (p.advanceTo time) := by
  have reaches := steady.reaches_fireWithin time (Nat.le_refl _)
  obtain ⟨polls, wakes⟩ := exists_wakes_iff.mpr reaches
  have fits := (reaches.steady steady).clock .uptime
  refine (wakes.continues room).trans ((continues_advance ?_).trans (continues_poll _))
  change (fireWithin p.rig.engine.timers.load p time).rig.clock.uptime ≤ wordMax at fits
  omega

theorem uptime_advanceTo :
    (p.advanceTo time).rig.clock.uptime = max p.rig.clock.uptime time := by
  have reaches := steady.reaches_fireWithin time (Nat.le_refl _)
  rcases Nat.lt_or_ge time p.rig.clock.uptime with past | current
  · -- The given uptime is over: nothing is waited for, and the clock stays as it is.
    have fits : p.rig.clock.uptime ≤ wordMax := steady.clock .uptime
    have rests : p.Rests time := fun wait _ =>
      Nat.lt_of_lt_of_le past (Clock.le_deadline fits wait)
    rw [Player.advanceTo, reaches.unique (.rested rests), clock_poll, uptime_advance (by omega)]
    omega
  · obtain ⟨-, current'⟩ := steady.of_reaches current room reaches
    rw [steady.advanceTo_eq current room reaches, uptime_advance (by omega)]
    omega

end Room

theorem continues_runOut {limit : Option Nat} (room : ∀ time, limit = some time → time < wordMax) :
    p.Continues (p.runOut limit) := by
  cases limit with
  | none => exact .refl p
  | some time => exact steady.continues_advanceTo (room time rfl)

section Steps

variable {steps : List Step} (room : ∀ step ∈ steps, step.time < wordMax)
include room

theorem continues_playAll : p.Continues (steps.foldl Player.play p) := by
  induction steps generalizing p with
  | nil => exact .refl p
  | cons step rest ih =>
    obtain ⟨now, later⟩ := List.forall_mem_cons.mp room
    have done := (continues_perform (p.advanceTo step.time) step.action).1
    exact ((steady.continues_advanceTo now).trans done).trans (ih (steady.play step) later)

/-- No more uptime passes than the steps ask for. -/
theorem uptime_playAll_le {time : Nat} (current : p.rig.clock.uptime ≤ time)
    (within : ∀ step ∈ steps, step.time ≤ time) :
    (steps.foldl Player.play p).rig.clock.uptime ≤ time := by
  induction steps generalizing p with
  | nil => exact current
  | cons step rest ih =>
    obtain ⟨now, later⟩ := List.forall_mem_cons.mp room
    obtain ⟨first, others⟩ := List.forall_mem_cons.mp within
    refine ih (steady.play step) later ?_ others
    rw [Player.play, (continues_perform _ _).2, steady.uptime_advanceTo now]
    exact Nat.max_le.mpr ⟨current, first⟩

end Steps

end Steady

theorem steady_start (s : Scenario) (settings : Settings) : (start s settings).Steady :=
  (Reachable.start s settings).steady

theorem run_of_reordered {s : Scenario} {steps : List Step} (reordered : Reordered steps s.steps)
    (settings : Settings) : run { s with steps } settings = run s settings := by
  have same : Scenario.orderedSteps { s with steps } = s.orderedSteps :=
    Scenario.orderedSteps_eq_iff.mpr reordered
  rw [run_eq, run_eq, same]
  rfl

section Run

variable {s : Scenario} (settings : Settings) (room : ∀ step ∈ s.steps, step.time < wordMax)
include room

/-- From wherever it is broken off, a scenario goes on in the order of time to its end. -/
theorem continues_run (room' : ∀ time, s.runUntil = some time → time < wordMax)
    (before : List Step) {after : List Step} (split : s.orderedSteps = before ++ after) :
    (before.foldl play (start s settings)).Continues (run s settings) := by
  have played := (steady_start s settings).playAll before
  have later : ∀ step ∈ after, step.time < wordMax := fun step hs =>
    room step (s.perm_orderedSteps.mem_iff.mp (split ▸ List.mem_append_right before hs))
  rw [run_eq, split, List.foldl_append]
  exact (played.continues_playAll later).trans ((played.playAll after).continues_runOut room')

/-- The steps before leave no more than the time of the step gone by. -/
theorem uptime_advanceTo_step {before after : List Step} {step : Step}
    (split : s.orderedSteps = before ++ step :: after) :
    ((before.foldl play (start s settings)).advanceTo step.time).rig.clock.uptime =
      step.time := by
  have start := steady_start s settings
  have room : ∀ a ∈ before ++ step :: after, a.time < wordMax := fun a ha =>
    room a (s.perm_orderedSteps.mem_iff.mp (split ▸ ha))
  have sorted := s.pairwise_orderedSteps
  rw [split] at sorted
  obtain ⟨past, ahead⟩ := List.forall_mem_append.mp room
  have earlier : ∀ a ∈ before, a.time ≤ step.time := fun a ha =>
    (List.pairwise_append.mp sorted).2.2 a ha step List.mem_cons_self
  rw [(start.playAll before).uptime_advanceTo (ahead step List.mem_cons_self)]
  exact Nat.max_eq_right (start.uptime_playAll_le past (Nat.zero_le _) earlier)

end Run

end Player

/-- The order of the steps in a scenario's file counts only among those at one time: any order that
keeps these as they stand is played alike. What a step brings about is put on the trace at the time
of the step, and the trace is in the order of time from its start to its end. -/
theorem order_counts_within_times (s : Scenario) (settings : Settings)
    (room : ∀ step ∈ s.steps, step.time < wordMax)
    (room' : ∀ time, s.runUntil = some time → time < wordMax) :
    (∀ steps, Reordered steps s.steps →
      Player.run { s with steps } settings = Player.run s settings) ∧
    (∀ before step after, s.orderedSteps = before ++ step :: after →
      let p := (before.foldl Player.play (Player.start s settings)).advanceTo step.time
      p.rig.clock.uptime = step.time ∧
      ∃ entries later, (p.perform step.action).trace = p.trace ++ entries ∧
        (∀ x ∈ entries, x.time = step.time) ∧
        (Player.run s settings).trace = p.trace ++ entries ++ later) ∧
    (Player.run s settings).trace.Pairwise (·.time ≤ ·.time) := by
  refine ⟨fun steps reordered => Player.run_of_reordered reordered settings,
    fun before step after split => ?_, ?_⟩
  · intro p
    have uptime : p.rig.clock.uptime = step.time := Player.uptime_advanceTo_step settings room split
    obtain ⟨⟨-, entries, own, -, within⟩, still⟩ := Player.continues_perform p step.action
    have rest := Player.continues_run settings room room' (before ++ [step])
      (split.trans (List.append_cons ..))
    rw [List.foldl_append, List.foldl_cons, List.foldl_nil] at rest
    obtain ⟨later, whole, -⟩ := rest.trace
    have done : (p.perform step.action).trace ++ later = p.trace ++ entries ++ later := by rw [own]
    refine ⟨uptime, entries, later, own, fun x hx => ?_, whole.trans done⟩
    have bounds := within x hx
    omega
  · have whole := Player.continues_run settings room room' [] rfl
    obtain ⟨entries, trace, sorted, -⟩ := whole.trace
    rw [trace]
    exact sorted

namespace Scenario

/-- A file whose steps stand in no order of time, to be played until before its last step. -/
def shuffled : Scenario where
  default := some 0
  active := [0, 1]
  phones := [{ slot := 0, level := 0 }, { slot := 1, level := 4 }]
  steps := [⟨150000, .validation .failed⟩, ⟨0, .cancel⟩, ⟨0, .evaluate⟩, ⟨60000, .suspend 30000⟩]
  runUntil := some 1000

theorem orderedSteps_shuffled : shuffled.orderedSteps =
    [⟨0, .cancel⟩, ⟨0, .evaluate⟩, ⟨60000, .suspend 30000⟩, ⟨150000, .validation .failed⟩] := by
  simp [orderedSteps, shuffled, List.mergeSort]

end Scenario

/-- The cancellation comes before the evaluation at its time in either file. Where it comes after,
no check is left to be delivered. -/
theorem order_counts_within_times_shuffled :
    let s := Scenario.shuffled
    let steps : List Step :=
      [⟨60000, .suspend 30000⟩, ⟨0, .cancel⟩, ⟨150000, .validation .failed⟩, ⟨0, .evaluate⟩]
    let swapped : List Step :=
      [⟨150000, .validation .failed⟩, ⟨0, .evaluate⟩, ⟨0, .cancel⟩, ⟨60000, .suspend 30000⟩]
    (∀ step ∈ s.steps, step.time < wordMax) ∧
      (∀ time, s.runUntil = some time → time < wordMax) ∧
      Reordered steps s.steps ∧ Player.run { s with steps } {} = Player.run s {} ∧
      (Player.run s {}).trace =
        [⟨0, .cancelPendingValidation⟩, ⟨90000, .validationRequired 1 true⟩] ∧
      (Player.run s {}).trace.Pairwise (·.time ≤ ·.time) ∧
      (Player.run s {}).rig.clock = ⟨150000, 180000⟩ ∧
      (Player.run { s with steps := swapped } {}).trace = [⟨0, .cancelPendingValidation⟩] := by
  intro s steps swapped
  have room : ∀ step ∈ s.steps, step.time < wordMax := by
    change ∀ step ∈ Scenario.shuffled.steps, step.time < wordMax
    simp [Scenario.shuffled, wordMax]
  have room' : ∀ time, s.runUntil = some time → time < wordMax := by
    intro time h
    cases h
    decide
  have reordered : Reordered steps s.steps := by
    refine Scenario.orderedSteps_eq_iff (s := { s with steps }).mp ?_
    rw [show s.orderedSteps = _ from Scenario.orderedSteps_shuffled]
    simp [Scenario.orderedSteps, steps, List.mergeSort]
  have swap : Scenario.orderedSteps { s with steps := swapped } =
      [⟨0, .evaluate⟩, ⟨0, .cancel⟩, ⟨60000, .suspend 30000⟩, ⟨150000, .validation .failed⟩] := by
    simp [Scenario.orderedSteps, swapped, List.mergeSort]
  obtain ⟨alike, -, sorted⟩ := order_counts_within_times s {} room room'
  have played : (Player.run s {}).trace =
        [⟨0, .cancelPendingValidation⟩, ⟨90000, .validationRequired 1 true⟩] ∧
      (Player.run s {}).rig.clock = ⟨150000, 180000⟩ := by
    rw [Player.run_eq, show s.orderedSteps = _ from Scenario.orderedSteps_shuffled]
    decide +kernel
  refine ⟨room, room', reordered, alike steps reordered, played.1, sorted, played.2, ?_⟩
  rw [Player.run_eq, swap]
  decide +kernel

end ModemSelect
