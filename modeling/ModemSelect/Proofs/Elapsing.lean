import ModemSelect.Proofs.Playing
import ModemSelect.Proofs.Waking

namespace ModemSelect

namespace Player

theorem clock_obeyAll (p : Player) (directives : List Directive) :
    (p.obeyAll directives).rig.clock = p.rig.clock := by
  have obey : ∀ (p : Player) (d : Directive), (p.obey d).rig.clock = p.rig.clock := by
    intro p d
    cases d with
    | validationRequired target needs => cases needs <;> rfl
    | immediateSwitch target why trigger => rfl
    | cancelPendingValidation => rfl
  exact obeyAll_kept (P := fun q => q.rig.clock = p.rig.clock)
    (fun q d same => (obey q d).trans same) rfl directives

theorem clock_poll (p : Player) : p.poll.rig.clock = p.rig.clock := clock_obeyAll _ _

theorem advance_advance (p : Player) (a b : Nat) :
    (p.advance a).advance b = p.advance (a + b) := by
  simp only [advance, Clock.advance_advance]

theorem uptime_advance {p : Player} {ms : Nat} (room : p.rig.clock.uptime + ms ≤ wordMax) :
    (p.advance ms).rig.clock.uptime = p.rig.clock.uptime + ms := by
  change (p.rig.clock.advance ms).now .uptime = p.rig.clock.now .uptime + ms
  exact Clock.now_advance room

/-- The player has nothing to do up to the given uptime. -/
def Rests (p : Player) (time : Nat) : Prop :=
  ∀ wait, p.rig.nextWakeup = some wait → time < Clock.deadline p.rig.clock.uptime wait

/-- The player goes from deadline to deadline, as far as the given uptime. -/
inductive Reaches (time : Nat) : Player → Player → Prop where
  | rested {p : Player} (rests : p.Rests time) : Reaches time p p
  | woken {p q : Player} {wait : Nat} (next : p.rig.nextWakeup = some wait)
      (due : Clock.deadline p.rig.clock.uptime wait ≤ time)
      (later : Reaches time (p.advance wait).poll q) : Reaches time p q

namespace Reaches

variable {p q r : Player} {a b : Nat}

theorem rests (h : Reaches a p q) : q.Rests a := by
  induction h with
  | rested rests => exact rests
  | woken _ _ _ ih => exact ih

/-- To get far one passes through all that is nearer. -/
theorem split (near : Reaches a p q) (order : a ≤ b) (far : Reaches b p r) : Reaches b q r := by
  induction near with
  | rested => exact far
  | woken next due later ih =>
    cases far with
    | rested rests =>
      have early := rests _ next
      omega
    | woken next' due' later' =>
      rw [next] at next'
      cases next'
      exact ih later'

theorem unique (h : Reaches a p q) (h' : Reaches a p r) : q = r := by
  cases h.split (Nat.le_refl a) h' with
  | rested => rfl
  | woken next due =>
    have early := h.rests _ next
    omega

end Reaches

namespace Steady

variable {p : Player} (steady : p.Steady)
include steady

theorem load_obeyAll (directives : List Directive) :
    (p.obeyAll directives).rig.engine.timers.load ≤ p.rig.engine.timers.load := by
  have obey : ∀ (p : Player) (d : Directive), p.Steady →
      (p.obey d).rig.engine.timers.load ≤ p.rig.engine.timers.load := by
    intro p d steady
    cases d with
    | validationRequired target needs =>
      cases needs with
      | true => exact Nat.le_refl _
      | false =>
        have sound := steady.engine.sound.timers
        refine Timers.load_mono sound (Timers.sound_cancel sound .evaluate) fun key held => ?_
        change (p.rig.engine.timers.cancel .evaluate).1.isScheduled key = true at held
        rw [Timers.isScheduled_cancel, Bool.and_eq_true] at held
        exact held.1
    | immediateSwitch target why trigger => exact Nat.le_refl _
    | cancelPendingValidation => exact Nat.le_refl _
  let less := fun q : Player => q.rig.engine.timers.load ≤ p.rig.engine.timers.load
  have kept : less (p.obeyAll directives) ∧ (p.obeyAll directives).Steady :=
    obeyAll_kept (P := fun q => less q ∧ q.Steady)
      (fun q d h => ⟨Nat.le_trans (obey q d h.2) h.1, h.2.obey d⟩) ⟨Nat.le_refl _, steady⟩
      directives
  exact kept.1

/-- Up to the next wakeup no clock that a timer goes by starts over. -/
theorem now_of_nextWakeup {wait : Nat} (next : p.rig.nextWakeup = some wait) {key : TimerKey}
    {s : Scheduled} (hs : p.rig.engine.timers.record? key = some s) :
    (p.advance wait).rig.clock.now s.backend.timeBase =
      p.rig.clock.now s.backend.timeBase + wait :=
  Clock.now_advance (Timers.room_of_nextWakeup steady.engine.sound.timers steady.clock
    (fun _ _ => steady.engine.deadline_le) next hs)

/-- Each wakeup fires something, and what it arms weighs less. -/
theorem load_wake {wait : Nat} (next : p.rig.nextWakeup = some wait) :
    (p.advance wait).poll.rig.engine.timers.load < p.rig.engine.timers.load := by
  have sound := steady.engine.sound.timers
  obtain ⟨⟨key, s, hs, first⟩, -⟩ := (Timers.nextWakeup_eq_some_iff sound).mp next
  have due : s.deadline ≤ (p.advance wait).rig.clock.now s.backend.timeBase := by
    rw [steady.now_of_nextWakeup next hs]
    omega
  have fired := Engine.load_poll_lt (m := (p.advance wait).rig.moment) steady.engine hs due
  have steady' := steady.advance wait
  have obeyed := load_obeyAll (p := { p.advance wait with rig := (p.advance wait).rig.poll.1 })
    ⟨steady'.engine.act (p.advance wait).rig.moment .poll, steady'.clock⟩
    (p.advance wait).rig.poll.2.1
  exact Nat.lt_of_le_of_lt obeyed fired

theorem reaches_fireWithin (time : Nat) {fuel : Nat}
    (enough : p.rig.engine.timers.load ≤ fuel) :
    Reaches time p (Player.fireWithin fuel p time) := by
  -- Every wakeup lowers the load, so the fuel lasts until the player rests.
  induction fuel generalizing p with
  | zero =>
    refine .rested fun wait next => ?_
    have less := steady.load_wake next
    omega
  | succ fuel ih =>
    unfold Player.fireWithin
    split
    next none =>
      refine .rested fun wait next => ?_
      rw [none] at next
      cases next
    next wait next =>
      split
      next early =>
        refine .rested fun wait' next' => ?_
        rw [next] at next'
        cases next'
        exact early
      next due =>
        have less := steady.load_wake next
        exact .woken next (Nat.le_of_not_lt due) (ih (steady.advance wait).poll (by omega))

theorem poll_of_waits (waits : p.rig.engine.timers.Waits p.rig.clock 0) : p.poll = p := by
  have silent : p.rig.engine.poll p.rig.moment = ({ engine := p.rig.engine }, 0) := by
    have none : p.rig.engine.timers.fireDue p.rig.moment.clock = (p.rig.engine.timers, []) :=
      Timers.fireDue_of_waits steady.engine.sound.timers waits
    rw [Engine.poll, none]
    rfl
  rw [Player.poll, Rig.poll, silent]
  rfl

section Room

variable {time : Nat} (current : p.rig.clock.uptime ≤ time) (room : time < wordMax)
include current room

theorem rests_iff_waits :
    p.Rests time ↔ p.rig.engine.timers.Waits p.rig.clock (time - p.rig.clock.uptime) := by
  have sound := steady.engine.sound.timers
  constructor
  · intro rests key s hs
    obtain ⟨wait, next⟩ := Timers.exists_nextWakeup sound hs p.rig.clock
    have early := rests wait next
    have least := ((Timers.nextWakeup_eq_some_iff sound).mp next).2 key s hs
    rw [Clock.deadline] at early
    omega
  · intro waits wait next
    obtain ⟨⟨key, s, hs, first⟩, -⟩ := (Timers.nextWakeup_eq_some_iff sound).mp next
    have ahead := waits key s hs
    rw [Clock.deadline]
    omega

theorem of_reaches {q : Player} (reaches : Reaches time p q) :
    q.Steady ∧ q.rig.clock.uptime ≤ time := by
  induction reaches with
  | rested => exact ⟨steady, current⟩
  | @woken p q wait next due later ih =>
    rw [Clock.deadline] at due
    have uptime : (p.advance wait).poll.rig.clock.uptime = p.rig.clock.uptime + wait := by
      rw [clock_poll]
      exact uptime_advance (by omega)
    exact ih (steady.advance wait).poll (by omega)

/-- A rest as long as the time allows makes nothing due. -/
theorem waits_of_rests (rests : p.Rests time) :
    p.rig.engine.timers.Waits (p.rig.clock.advance (time - p.rig.clock.uptime)) 0 := by
  intro key s hs
  have ahead := (steady.rests_iff_waits current room).mp rests key s hs
  have bounded := steady.engine.deadline_le hs
  rw [Clock.now_advance (by omega)]
  omega

/-- Nothing but the time changes while the player rests. -/
theorem advanceTo_eq {q : Player} (reaches : Reaches time p q) :
    p.advanceTo time = q.advance (time - q.rig.clock.uptime) := by
  have fires := steady.reaches_fireWithin time (Nat.le_refl _)
  have same : Player.fireWithin p.rig.engine.timers.load p time = q := fires.unique reaches
  obtain ⟨steady', current'⟩ := steady.of_reaches current room reaches
  rw [Player.advanceTo, same]
  exact (steady'.advance _).poll_of_waits (steady'.waits_of_rests current' room reaches.rests)

end Room

section Rest

variable {a : Nat} (current : p.rig.clock.uptime ≤ a) (room : a < wordMax)
include current room

/-- While the player rests, no clock that a timer goes by starts over. -/
theorem now_of_rests (rests : p.Rests a) {key : TimerKey} {s : Scheduled}
    (hs : p.rig.engine.timers.record? key = some s) :
    (p.rig.clock.advance (a - p.rig.clock.uptime)).now s.backend.timeBase =
      p.rig.clock.now s.backend.timeBase + (a - p.rig.clock.uptime) := by
  have ahead := (steady.rests_iff_waits current room).mp rests key s hs
  have bounded := steady.engine.deadline_le hs
  exact Clock.now_advance (by omega)

/-- Wherever a rest is broken off, the player gets to where it would have got. -/
theorem reaches_of_rests (rests : p.Rests a) {b : Nat} (order : a ≤ b) (room' : b < wordMax)
    {q : Player} (reaches : Reaches b p q) :
    ∃ r, Reaches b (p.advance (a - p.rig.clock.uptime)) r ∧
      r.advance (b - r.rig.clock.uptime) = q.advance (b - q.rig.clock.uptime) := by
  have uptime : (p.advance (a - p.rig.clock.uptime)).rig.clock.uptime = a := by
    rw [uptime_advance (by omega)]
    omega
  cases reaches with
  | rested rests' =>
    have waits := (steady.rests_iff_waits (by omega) room').mp rests'
    refine ⟨_, .rested ?_, ?_⟩
    · refine ((steady.advance _).rests_iff_waits (by omega) room').mpr fun key s hs => ?_
      have ahead := waits key s hs
      have moved := steady.now_of_rests current room rests hs
      rw [uptime]
      change (p.rig.clock.advance _).now _ + _ < _
      omega
    · rw [advance_advance, uptime]
      congr 1
      omega
  | @woken _ _ wait next due later =>
    have early := rests wait next
    rw [Clock.deadline] at early due
    have next' : (p.advance (a - p.rig.clock.uptime)).rig.nextWakeup =
        some (wait - (a - p.rig.clock.uptime)) :=
      Timers.nextWakeup_later steady.engine.sound.timers
        (fun key s hs => steady.now_of_rests current room rests hs) next
    refine ⟨q, .woken next' ?_ ?_, rfl⟩
    · rw [uptime, Clock.deadline]
      omega
    · rw [advance_advance, Nat.add_sub_cancel' (by omega)]
      exact later

end Rest

end Steady

end Player

/-- Time may pass in one go or with a stop anywhere in between. -/
theorem advanceTo_advanceTo {p : Player} (reach : p.Reachable) {a b : Nat}
    (current : p.rig.clock.uptime ≤ a) (order : a ≤ b) (room : b < wordMax) :
    (p.advanceTo a).advanceTo b = p.advanceTo b := by
  have steady := reach.steady
  have stop := steady.reaches_fireWithin a (Nat.le_refl _)
  have goal := steady.reaches_fireWithin b (Nat.le_refl _)
  obtain ⟨steady', current'⟩ := steady.of_reaches current (by omega) stop
  obtain ⟨r, onward, same⟩ :=
    steady'.reaches_of_rests current' (by omega) stop.rests order room (stop.split order goal)
  rw [steady.advanceTo_eq current (by omega) stop, steady.advanceTo_eq (by omega) room goal,
    ← same]
  refine (steady'.advance _).advanceTo_eq ?_ room onward
  rw [Player.uptime_advance (by omega)]
  omega

/-- A validation of the slot with the better signal has failed and the same switch is decided on
anew. Then the handset sleeps, so that the clocks of the retry and of the check part. -/
def Player.resumed : Player :=
  let s : Scenario := {
    default := some 0
    active := [0, 1]
    phones := [{ slot := 0, level := 0 }, { slot := 1, level := 4 }] }
  ((((((start s {}).perform .evaluate).advanceTo 120000).perform (.validation .failed)).perform
    .evaluate).perform (.suspend 30000))

theorem Player.reachable_resumed : Player.resumed.Reachable := by
  unfold resumed
  exact .performed (.performed (.performed (.advanced (.performed (.start _ _) _) _) _) _) _

/-- The stop is after the retry has fired and before the check does. -/
theorem advanceTo_advanceTo_resumed :
    let p := Player.resumed
    p.Reachable ∧ p.rig.clock = ⟨120000, 150000⟩ ∧
      (p.advanceTo 150000).advanceTo 300000 = p.advanceTo 300000 ∧
      p.rig.nextWakeup = some 10000 ∧ (p.advanceTo 150000).rig.nextWakeup = some 60000 ∧
      (p.advanceTo 300000).trace.map (·.time) = [120000, 210000] := by
  intro p
  have reach : p.Reachable := Player.reachable_resumed
  have clock : p.rig.clock = ⟨120000, 150000⟩ := by decide +kernel
  have current : p.rig.clock.uptime ≤ 150000 := by rw [clock]; decide
  exact ⟨reach, clock, advanceTo_advanceTo reach current (by decide) (by decide),
    by decide +kernel, by decide +kernel, by decide +kernel⟩

end ModemSelect
