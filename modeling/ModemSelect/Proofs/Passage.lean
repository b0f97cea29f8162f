import ModemSelect.Proofs.Elapsing

namespace ModemSelect

/-- No deadline on record has passed. -/
def Timers.Timely (t : Timers) (clock : Clock) : Prop :=
  ∀ key s, t.record? key = some s → clock.now s.backend.timeBase ≤ s.deadline

theorem Clock.le_deadline {now : Nat} (fits : now ≤ wordMax) (delay : Nat) :
    now ≤ deadline now delay :=
  Nat.le_min.mpr ⟨Nat.le_add_right now delay, fits⟩

/-- What is armed is armed for no time before now. -/
theorem Beat.timely_after {b : Beat} (sound : b.course.Sound) (fits : b.moment.clock.Fits)
    (timely : b.engine.timers.Timely b.moment.clock) :
    b.after.timers.Timely b.moment.clock := by
  intro key s hs
  by_cases before : b.engine.timers.record? key = some s
  · exact timely key s before
  · cases key with
    | evaluate =>
      rcases evaluate_after sound hs with same | ⟨-, delay, rfl⟩
      · exact absurd same before
      · exact Clock.le_deadline (fits _) delay
    | stabilityCheck =>
      obtain ⟨p, -, -, -, -, -, -, deadline⟩ := arms_spec sound ⟨hs, before⟩
      rw [deadline]
      exact Clock.le_deadline (fits _) s.delay

namespace Engine

theorem timely_deliveries {e : Engine} (sound : e.course.Sound) {m : Moment} (fits : m.clock.Fits)
    (timely : e.timers.Timely m.clock) (tray : List (TimerKey × TimerNote)) :
    (tray.foldl (fun e x => (e.deliver m x.2).engine) e).timers.Timely m.clock := by
  induction tray generalizing e with
  | nil => exact timely
  | cons x rest ih =>
    let b : Beat := ⟨e, m, .deliver x.2⟩
    exact ih (Beat.sound_after (b := b) sound) (Beat.timely_after (b := b) sound fits timely)

/-- A poll leaves nothing overdue, whatever it found. -/
theorem timely_poll {e : Engine} (sound : e.course.Sound) {m : Moment} (fits : m.clock.Fits) :
    (e.poll m).1.engine.timers.Timely m.clock := by
  rw [poll_engine]
  refine timely_deliveries (Beat.sound_after (b := ⟨e, m, .collect⟩) sound) fits ?_ _
  intro key s hs
  have left := Timers.record?_fireDue sound.timers m.clock key
  have kept := (Option.filter_eq_some_iff.mp (left.symm.trans hs)).2
  exact Nat.le_of_lt (by simpa using kept)

end Engine

namespace Player

/-- What a poll would hand over now. -/
def fires (p : Player) : List (TimerKey × TimerNote) :=
  (p.rig.engine.timers.fireDue p.rig.clock).2

/-- The player wakes at one deadline after the other, as far as the given uptime, and rests then.
The list has the player before each of the polls. -/
inductive Wakes (time : Nat) : Player → List Player → Player → Prop where
  | rested {p : Player} (rests : p.Rests time) : Wakes time p [] p
  | woken {p q : Player} {polls : List Player} {wait : Nat} (next : p.rig.nextWakeup = some wait)
      (due : Clock.deadline p.rig.clock.uptime wait ≤ time)
      (later : Wakes time (p.advance wait).poll polls q) : Wakes time p (p.advance wait :: polls) q

/-- The trace goes on with entries in the order of time, all from the time in between. -/
structure Continues (p q : Player) : Prop where
  uptime : p.rig.clock.uptime ≤ q.rig.clock.uptime
  trace : ∃ entries, q.trace = p.trace ++ entries ∧ entries.Pairwise (·.time ≤ ·.time) ∧
    ∀ x ∈ entries, p.rig.clock.uptime ≤ x.time ∧ x.time ≤ q.rig.clock.uptime

theorem Continues.refl (p : Player) : p.Continues p where
  uptime := Nat.le_refl _
  trace := ⟨[], by simp⟩

theorem Continues.trans {p q r : Player} (h : p.Continues q) (h' : q.Continues r) :
    p.Continues r where
  uptime := Nat.le_trans h.uptime h'.uptime
  trace := by
    obtain ⟨xs, hx, sorted, within⟩ := h.trace
    obtain ⟨ys, hy, sorted', within'⟩ := h'.trace
    have first := h.uptime
    have second := h'.uptime
    refine ⟨xs ++ ys, by rw [hy, hx, List.append_assoc], ?_, fun x hx => ?_⟩
    · refine List.pairwise_append.mpr ⟨sorted, sorted', fun x hx y hy => ?_⟩
      exact Nat.le_trans (within x hx).2 (within' y hy).1
    · rcases List.mem_append.mp hx with hx | hx
      · have bounds := within x hx
        omega
      · have bounds := within' x hx
        omega

theorem trace_obeyAll (p : Player) (directives : List Directive) :
    (p.obeyAll directives).trace =
      p.trace ++ directives.map fun d => ⟨p.rig.clock.uptime, d⟩ := by
  have obey : ∀ (p : Player) (d : Directive), (p.obey d).trace =
      p.trace ++ [⟨p.rig.clock.uptime, d⟩] := by
    intro p d
    cases d with
    | validationRequired target needs => cases needs <;> rfl
    | immediateSwitch target why trigger => rfl
    | cancelPendingValidation => rfl
  induction directives generalizing p with
  | nil => simp [obeyAll]
  | cons d rest ih =>
    have clock : (p.obey d).rig.clock = p.rig.clock := clock_obeyAll p [d]
    change ((p.obey d).obeyAll rest).trace = _
    rw [ih, obey, clock, List.map_cons, List.append_assoc]
    rfl

/-- What is obeyed goes on the trace at the time that the clock reads. -/
theorem continues_obeyAll (p : Player) (directives : List Directive) :
    p.Continues (p.obeyAll directives) where
  uptime := Nat.le_of_eq (congrArg Clock.uptime (clock_obeyAll p directives).symm)
  trace := by
    refine ⟨_, trace_obeyAll p directives, ?_, fun x hx => ?_⟩
    · exact List.pairwise_map.mpr (List.pairwise_of_forall fun _ _ => Nat.le_refl _)
    · obtain ⟨d, -, rfl⟩ := List.mem_map.mp hx
      rw [clock_obeyAll]
      exact ⟨Nat.le_refl _, Nat.le_refl _⟩

theorem continues_poll (p : Player) : p.Continues p.poll :=
  have h := continues_obeyAll { p with rig := p.rig.poll.1 } p.rig.poll.2.1
  ⟨h.uptime, h.trace⟩

theorem continues_send (p : Player) (event : Event) : p.Continues (p.send event) :=
  have h := continues_obeyAll { p with rig := (p.rig.handle event).1 } (p.rig.handle event).2
  ⟨h.uptime, h.trace⟩

theorem continues_advance {p : Player} {ms : Nat} (room : p.rig.clock.uptime + ms ≤ wordMax) :
    p.Continues (p.advance ms) where
  uptime := by
    rw [uptime_advance room]
    exact Nat.le_add_right ..
  trace := ⟨[], by simp [advance]⟩

/-- Every timer that fires for the second player is on record there, and its clock reads just its
deadline, or what it read for the first player where the timer was overdue already. -/
def FiresOnTime (p w : Player) : Prop :=
  ∀ key note, (key, note) ∈ w.fires → ∃ s, w.rig.engine.timers.record? key = some s ∧
    s.note = note ∧ (w.rig.clock.now s.backend.timeBase = s.deadline ∨
      p.rig.engine.timers.record? key = some s ∧
        s.deadline < p.rig.clock.now s.backend.timeBase ∧
        w.rig.clock.now s.backend.timeBase = p.rig.clock.now s.backend.timeBase)

/-- No timer of the player is overdue. -/
def Timely (p : Player) : Prop := p.rig.engine.timers.Timely p.rig.clock

theorem Timely.obeyAll {p : Player} (timely : p.Timely) (directives : List Directive) :
    (p.obeyAll directives).Timely := by
  refine obeyAll_kept (P := Timely) (fun q d timely => ?_) timely directives
  cases d with
  | validationRequired target needs =>
    cases needs with
    | true => exact timely
    | false =>
      intro key s hs
      change (q.rig.engine.timers.cancel .evaluate).1.record? key = some s at hs
      rw [Timers.record?_cancel] at hs
      split at hs
      · cases hs
      · exact timely key s hs
  | immediateSwitch target why trigger => exact timely
  | cancelPendingValidation => exact timely

theorem exists_wakes_iff {time : Nat} {p q : Player} :
    (∃ polls, Wakes time p polls q) ↔ Reaches time p q := by
  constructor
  · rintro ⟨polls, wakes⟩
    induction wakes with
    | rested rests => exact .rested rests
    | woken next due _ ih => exact .woken next due ih
  · intro reaches
    induction reaches with
    | rested rests => exact ⟨[], .rested rests⟩
    | woken next due _ ih =>
      obtain ⟨polls, wakes⟩ := ih
      exact ⟨_, .woken next due wakes⟩

namespace Steady

variable {p : Player} (steady : p.Steady)
include steady

theorem timely_poll : p.poll.Timely :=
  Timely.obeyAll (p := { p with rig := p.rig.poll.1 })
    (Engine.timely_poll steady.engine.sound (m := p.rig.moment) steady.clock) _

theorem timely_send (timely : p.Timely) (event : Event) : (p.send event).Timely := by
  refine Timely.obeyAll (p := { p with rig := (p.rig.handle event).1 }) ?_ _
  let b : Beat := ⟨p.rig.engine, p.rig.moment, .event event⟩
  exact Beat.timely_after (b := b) steady.engine.sound steady.clock timely

section Next

variable {wait : Nat} (next : p.rig.nextWakeup = some wait)
include next

theorem fires_advance : (p.advance wait).fires ≠ [] := by
  have sound := steady.engine.sound.timers
  have left := Timers.nextWakeup_advance sound steady.clock
    (fun _ _ => steady.engine.deadline_le) next (Nat.le_refl wait)
  rw [Nat.sub_self] at left
  exact (Timers.fires_iff sound).mpr left

theorem firesOnTime_advance : p.FiresOnTime (p.advance wait) := by
  intro key note fires
  have sound := steady.engine.sound.timers
  obtain ⟨s, hs, own, due⟩ : ∃ s, p.rig.engine.timers.record? key = some s ∧ s.note = note ∧
      s.deadline ≤ (p.advance wait).rig.clock.now s.backend.timeBase :=
    (Timers.mem_fireDue sound).mp fires
  have least := ((Timers.nextWakeup_eq_some_iff sound).mp next).2 key s hs
  have moved := steady.now_of_nextWakeup next hs
  rw [moved] at due
  refine ⟨s, hs, own, ?_⟩
  by_cases overdue : s.deadline < p.rig.clock.now s.backend.timeBase
  · exact Or.inr ⟨hs, overdue, by omega⟩
  · exact Or.inl (by omega)

end Next

end Steady

/-- While a scenario is played, time moves on only with polls, so that no timer is ever overdue. -/
theorem Reachable.timely {p : Player} (reach : p.Reachable) : p.Timely := by
  let kept := fun q : Player => q.Steady ∧ q.Timely
  have poll : ∀ q : Player, q.Steady → kept q.poll :=
    fun _ steady => ⟨steady.poll, steady.timely_poll⟩
  induction reach with
  | start s settings =>
    intro key r hr
    cases key <;> cases hr
  | advanced reach time ih =>
    have both : kept (Player.advanceTo _ time) :=
      advanceTo_kept (fun _ ms h => poll _ (h.1.advance ms)) ⟨reach.steady, ih⟩ time
    exact both.2
  | performed reach action ih =>
    have both : kept (Player.perform _ action) :=
      perform_kept (fun _ event h => ⟨h.1.send event, h.1.timely_send h.2 event⟩)
        (fun _ ms h => poll _ (h.1.suspend ms)) (fun _ f h => ⟨h.1.onHandset f, h.2⟩)
        (fun _ h => ⟨⟨h.1.engine, h.1.clock⟩, h.2⟩) ⟨reach.steady, ih⟩ action
    exact both.2

namespace Wakes

variable {time : Nat} {p q : Player} {polls : List Player} (wakes : Wakes time p polls q)
include wakes

theorem continues (room : time < wordMax) : p.Continues q := by
  induction wakes with
  | rested => exact .refl _
  | @woken p q polls wait next due later ih =>
    rw [Clock.deadline] at due
    exact ((continues_advance (by omega)).trans (continues_poll _)).trans ih

section Steady

variable (steady : p.Steady)
include steady

/-- There are no more wakeups than the load, which each of them lowers. -/
theorem length_le : polls.length ≤ p.rig.engine.timers.load := by
  induction wakes with
  | rested => exact Nat.zero_le _
  | @woken p q polls wait next due later ih =>
    have less := steady.load_wake next
    have rest := ih (steady.advance wait).poll
    rw [List.length_cons]
    omega

theorem fires_of_mem {w : Player} (hw : w ∈ polls) : w.fires ≠ [] := by
  induction wakes with
  | rested => cases hw
  | woken next due later ih =>
    rcases List.mem_cons.mp hw with rfl | hw
    · exact steady.fires_advance next
    · exact ih (steady.advance _).poll hw

/-- Where nothing is overdue, as in a scenario, whatever fires does so at just its deadline. -/
theorem now_of_timely (timely : p.Timely) {w : Player} (hw : w ∈ polls) {key : TimerKey}
    {note : TimerNote} (fires : (key, note) ∈ w.fires) :
    ∃ s, w.rig.engine.timers.record? key = some s ∧ s.note = note ∧
      w.rig.clock.now s.backend.timeBase = s.deadline := by
  induction wakes with
  | rested => cases hw
  | @woken p q polls wait next due later ih =>
    rcases List.mem_cons.mp hw with rfl | hw
    · obtain ⟨s, hs, own, onTime⟩ := steady.firesOnTime_advance next key note fires
      refine ⟨s, hs, own, onTime.resolve_right fun late => ?_⟩
      have early := timely key s late.1
      omega
    · exact ih (steady.advance wait).poll (steady.advance wait).timely_poll hw

theorem firesOnTime {w : Player} (hw : w ∈ polls) : p.FiresOnTime w := by
  cases wakes with
  | rested => cases hw
  | @woken _ _ polls wait next due later =>
    rcases List.mem_cons.mp hw with rfl | hw
    · exact steady.firesOnTime_advance next
    · intro key note fires
      -- A poll has come before, so nothing is overdue any more.
      have timely := (steady.advance wait).timely_poll
      obtain ⟨s, hs, own, onTime⟩ :=
        later.now_of_timely (steady.advance wait).poll timely hw fires
      exact ⟨s, hs, own, Or.inl onTime⟩

end Steady

end Wakes

end Player

/-- Time moves on in wakeups that come to an end. Each fires something, and whatever fires does so
by a clock that reads just its deadline, or what it read at the start where it was overdue then. The
last poll fires nothing: the uptime is the given one, nothing is due, and the trace went on in the
order of time. The player is any that a scenario leads to, also with its clocks moved on by hand. -/
theorem advanceTo_hits_deadlines {p : Player} (steady : p.Steady) {time : Nat}
    (current : p.rig.clock.uptime ≤ time) (room : time < wordMax) :
    ∃ polls q, Player.Wakes time p polls q ∧ polls.length ≤ p.rig.engine.timers.load ∧
      (∀ w ∈ polls, w.fires ≠ [] ∧ p.FiresOnTime w) ∧
      (q.advance (time - q.rig.clock.uptime)).fires = [] ∧
      p.advanceTo time = (q.advance (time - q.rig.clock.uptime)).poll ∧
      (p.advanceTo time).rig.clock.uptime = time ∧
      (p.advanceTo time).rig.engine.timers.Ahead (p.advanceTo time).rig.clock ∧
      p.Continues (p.advanceTo time) := by
  have reaches := steady.reaches_fireWithin time (Nat.le_refl _)
  obtain ⟨polls, wakes⟩ := Player.exists_wakes_iff.mpr reaches
  obtain ⟨steady', current'⟩ := steady.of_reaches current room reaches
  have waits := steady'.waits_of_rests current' room reaches.rests
  have rested := steady.advanceTo_eq current room reaches
  generalize Player.fireWithin p.rig.engine.timers.load p time = q at *
  have silent : (q.advance (time - q.rig.clock.uptime)).fires = [] :=
    congrArg Prod.snd (Timers.fireDue_of_waits steady'.engine.sound.timers waits)
  have polled := (steady'.advance (time - q.rig.clock.uptime)).poll_of_waits waits
  have uptime : (q.advance (time - q.rig.clock.uptime)).rig.clock.uptime = time := by
    rw [Player.uptime_advance (by omega)]
    omega
  refine ⟨polls, q, wakes, wakes.length_le steady,
    fun w hw => ⟨wakes.fires_of_mem steady hw, wakes.firesOnTime steady hw⟩, silent,
    rested.trans polled.symm, ?_⟩
  rw [rested]
  exact ⟨uptime, Timers.ahead_of_waits steady'.engine.sound.timers waits,
    (wakes.continues room).trans (Player.continues_advance (by omega))⟩

/-- The retry of the resumed handset is overdue by five seconds: it fires at once, and the check
beside it when the other clock reads its deadline. -/
theorem advanceTo_hits_deadlines_overdue :
    let p := Player.resumed.advance 15000
    p.Steady ∧ p.rig.clock = ⟨135000, 165000⟩ ∧ p.rig.engine.timers.load = 3 ∧
      (p.rig.engine.timers.record? .evaluate).map (·.deadline) = some 130000 ∧
      (p.rig.engine.timers.record? .stabilityCheck).map (·.deadline) = some 240000 ∧
      (∃ polls q, Player.Wakes 300000 p polls q ∧ polls.length ≤ p.rig.engine.timers.load ∧
        (∀ w ∈ polls, w.fires ≠ [] ∧ p.FiresOnTime w) ∧
        (q.advance (300000 - q.rig.clock.uptime)).fires = [] ∧
        p.advanceTo 300000 = (q.advance (300000 - q.rig.clock.uptime)).poll ∧
        (p.advanceTo 300000).rig.clock.uptime = 300000 ∧
        (p.advanceTo 300000).rig.engine.timers.Ahead (p.advanceTo 300000).rig.clock ∧
        p.Continues (p.advanceTo 300000)) ∧
      (p.advanceTo 300000).trace.map (·.time) = [120000, 210000] := by
  intro p
  have steady : p.Steady := Player.reachable_resumed.steady.advance 15000
  have clock : p.rig.clock = ⟨135000, 165000⟩ := by decide +kernel
  have current : p.rig.clock.uptime ≤ 300000 := by rw [clock]; decide
  exact ⟨steady, clock, by decide +kernel, by decide +kernel, by decide +kernel,
    advanceTo_hits_deadlines steady current (by decide), by decide +kernel⟩

end ModemSelect
