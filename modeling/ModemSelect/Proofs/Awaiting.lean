import ModemSelect.Proofs.Gate
import ModemSelect.Proofs.Passage
import ModemSelect.Proofs.Validation

namespace ModemSelect

/-- The directive asks for a validation. All others end one. -/
def Directive.asks : Directive → Bool
  | .validationRequired .. => true
  | .immediateSwitch .. | .cancelPendingValidation => false

/-- Whether a validation is under way after the directives, by whether one was before. -/
def Directive.validatingAfter (before : Bool) (directives : List Directive) : Bool :=
  directives.foldl (fun _ d => d.asks) before

theorem Directive.validatingAfter_append (before : Bool) (xs ys : List Directive) :
    validatingAfter before (xs ++ ys) = validatingAfter (validatingAfter before xs) ys :=
  List.foldl_append

open Directive

namespace Beat

variable {b : Beat}

/-- The last directive of a beat tells whether a validation is under way. -/
theorem validating_after_directives (unanswered : ¬ b.Answers) :
    b.after.validating = validatingAfter b.engine.validating b.directives := by
  have flag : ∀ c : Course, b.after.course = c → b.after.validating = c.validating :=
    fun _ => Engine.validating_of_course
  have kept : b.directives = [] → b.after.validating = b.engine.validating →
      b.after.validating = validatingAfter b.engine.validating b.directives := by
    intro directives same
    rw [same, directives]
    rfl
  cases b.turn with
  | still course directives => exact kept directives (flag _ course)
  | stopped d course directives stops =>
    rw [flag _ course, directives]
    cases d with
    | validationRequired target needs => exact stops.elim
    | immediateSwitch target why trigger => rfl
    | cancelPendingValidation => rfl
  | disregarded p _ _ course directives => exact kept directives (flag _ course)
  | kept p _ _ _ course directives => exact kept directives (flag _ course)
  | armed p _ _ _ course directives => exact kept directives (flag _ course)
  | retried delay task => exact absurd (Or.inl task) unanswered
  | exhausted task => exact absurd (Or.inl task) unanswered
  | completed task => exact absurd (Or.inr task) unanswered
  | passed p task course directives =>
    rw [flag _ course, directives]
    rfl
  | collected task course directives => exact kept directives (flag _ course)

/-- An answer ends the validation and gives no directive. -/
theorem quiet_of_answers (answers : b.Answers) :
    b.after.validating = false ∧ b.directives = [] := by
  have directives : b.directives = [] := by
    rcases answers with task | task <;> rw [Beat.directives, outcome, task] <;> rfl
  refine ⟨Bool.eq_false_iff.mpr fun validating => ?_, directives⟩
  rcases b.validating_after.mp validating with ⟨target, needs, hm⟩ | ⟨-, unclosed⟩
  · simp [directives] at hm
  · exact unclosed (Or.inl answers)

end Beat

namespace Engine

theorem validating_deliveries (e : Engine) (m : Moment) (tray : List (TimerKey × TimerNote)) :
    (tray.foldl (fun e note => (e.deliver m note.2).engine) e).validating =
      validatingAfter e.validating ((e.deliveries m tray).flatMap (·.directives)) := by
  induction tray generalizing e with
  | nil => rfl
  | cons entry rest ih =>
    have first := Beat.validating_after_directives (b := ⟨e, m, .deliver entry.2⟩)
      (by rintro (task | task) <;> cases task)
    rw [List.foldl_cons, ih, deliveries, List.flatMap_cons, validatingAfter_append]
    exact congrArg (validatingAfter · _) first

theorem validating_act {e : Engine} {m : Moment} {a : Act}
    (unanswered : a ≠ .tell .validationFailed ∧ a ≠ .tell .validationSucceeded) :
    (e.act m a).engine.validating = validatingAfter e.validating (e.act m a).directives := by
  cases a with
  | tell event =>
    refine Beat.validating_after_directives (b := ⟨e, m, .event event⟩) fun answers => ?_
    rcases answers with task | task <;> cases task
    · exact unanswered.1 rfl
    · exact unanswered.2 rfl
  | poll =>
    change (e.poll m).1.engine.validating = validatingAfter _ (e.poll m).1.directives
    rw [poll_engine, poll_deliveries, validating_deliveries]
    rfl

/-- What an act asks for is what the check on record says. -/
theorem recorded_of_asks {e : Engine} (sound : e.course.Sound) {m : Moment} {a : Act}
    {d : Directive} (hd : d ∈ (e.act m a).directives) (asks : d.asks = true) :
    ∃ s p, e.timers.record? .stabilityCheck = some s ∧ s.note = .stability p ∧
      d = .validationRequired p.target p.needsValidation := by
  rw [act_directives, List.mem_flatMap] at hd
  obtain ⟨b, hb, hd⟩ := hd
  cases d with
  | immediateSwitch target why trigger => cases asks
  | cancelPendingValidation => cases asks
  | validationRequired target needs =>
    obtain ⟨p, task, rfl, rfl, -⟩ := Beat.asks_spec hd
    cases a with
    | tell event =>
      cases List.mem_singleton.mp hb
      cases task
    | poll =>
      rcases List.mem_cons.mp hb with rfl | hb
      · cases task
      · obtain ⟨-, -, key, note, fired, delivers⟩ := mem_deliveries hb
        rw [task] at delivers
        cases delivers
        obtain ⟨s, hs, note, -⟩ := (Timers.mem_fireDue sound.timers).mp fired
        have fits := sound.fitting key s hs
        rw [note] at fits
        cases key with
        | evaluate => exact fits.elim
        | stabilityCheck => exact ⟨s, p, hs, note, rfl⟩

theorem asks_once {e : Engine} (sound : e.course.Sound) {m : Moment} {a : Act} {d d' : Directive}
    (hd : d ∈ (e.act m a).directives) (hd' : d' ∈ (e.act m a).directives) (asks : d.asks = true)
    (asks' : d'.asks = true) : d = d' := by
  obtain ⟨s, p, hs, note, rfl⟩ := recorded_of_asks sound hd asks
  obtain ⟨s', p', hs', note', rfl⟩ := recorded_of_asks sound hd' asks'
  cases hs.symm.trans hs'
  cases note.symm.trans note'
  rfl

end Engine

namespace Player

/-- The last directive was a switch that needed no validation. -/
def Overtaken (p : Player) : Prop :=
  ∃ before time target, p.trace = before ++ [⟨time, .validationRequired target false⟩]

/-- The player waits just while the engine holds that a validation is under way, but for a switch
without validation that has come last. -/
def Matched (p : Player) : Prop :=
  p.rig.engine.validating = true ↔ p.awaiting.isSome = true ∧ ¬ p.Overtaken

/-- What the player waits for has been asked for, and only switches without validation since. -/
def Asked (p : Player) : Prop :=
  ∀ target, p.awaiting = some target → ∃ before time since,
    p.trace = before ++ ⟨time, .validationRequired target true⟩ :: since ∧
      ∀ x ∈ since, ∃ target', x.directive = .validationRequired target' false

theorem trace_obey (p : Player) (d : Directive) :
    (p.obey d).trace = p.trace ++ [⟨p.rig.clock.uptime, d⟩] :=
  trace_obeyAll p [d]

theorem overtaken_obey {p : Player} {d : Directive} :
    (p.obey d).Overtaken ↔ ∃ target, d = .validationRequired target false := by
  rw [Overtaken, trace_obey]
  constructor
  · intro overtaken
    obtain ⟨before, time, target, last⟩ := overtaken
    cases List.singleton_inj.mp (List.append_inj_right' last rfl)
    exact ⟨target, rfl⟩
  · intro needless
    obtain ⟨target, rfl⟩ := needless
    exact ⟨_, _, target, rfl⟩

/-- A switch without validation is all that tells the engine of an end. -/
theorem validating_obeyAll {p : Player} {directives : List Directive}
    (h : ∀ target, .validationRequired target false ∉ directives) :
    (p.obeyAll directives).rig.engine.validating = p.rig.engine.validating := by
  induction directives generalizing p with
  | nil => rfl
  | cons d rest ih =>
    have first : (p.obey d).rig.engine.validating = p.rig.engine.validating := by
      cases d with
      | validationRequired target needs =>
        cases needs with
        | true => rfl
        | false => exact absurd (.head _) (h target)
      | immediateSwitch target why trigger => rfl
      | cancelPendingValidation => rfl
    exact (ih fun target hm => h target (.tail _ hm)).trans first

theorem validating_obeyAll_of_not {p : Player} (down : p.rig.engine.validating = false)
    (directives : List Directive) : (p.obeyAll directives).rig.engine.validating = false := by
  refine obeyAll_kept (P := fun q => q.rig.engine.validating = false) (fun q d down => ?_) down
    directives
  cases d with
  | validationRequired target needs =>
    cases needs with
    | true => exact down
    | false => rfl
  | immediateSwitch target why trigger => exact down
  | cancelPendingValidation => exact down

theorem matched_obey {p : Player} {d : Directive}
    (flag : (∀ target, d ≠ .validationRequired target false) →
      p.rig.engine.validating = d.asks) : (p.obey d).Matched := by
  rw [Matched, overtaken_obey]
  cases d with
  | validationRequired target needs =>
    cases needs with
    | false => exact iff_of_false nofun fun waits => waits.2 ⟨target, rfl⟩
    | true => exact iff_of_true (flag nofun) ⟨rfl, nofun⟩
  | immediateSwitch target why trigger =>
    exact iff_of_false (ne_true_of_eq_false (flag nofun)) nofun
  | cancelPendingValidation => exact iff_of_false (ne_true_of_eq_false (flag nofun)) nofun

theorem Matched.obeyAll {p : Player} (matched : p.Matched) (rig : Rig)
    {directives : List Directive}
    (flag : rig.engine.validating = validatingAfter p.rig.engine.validating directives)
    (once : ∀ d ∈ directives, ∀ d' ∈ directives, d.asks = true → d'.asks = true → d = d') :
    ({ p with rig }.obeyAll directives).Matched := by
  rcases List.eq_nil_or_concat directives with rfl | ⟨directives, last, rfl⟩
  · change rig.engine.validating = true ↔ _
    rw [flag]
    exact matched
  rw [List.concat_eq_append] at flag once ⊢
  rw [validatingAfter_append] at flag
  change rig.engine.validating = last.asks at flag
  have concat : ({ p with rig }.obeyAll (directives ++ [last])) =
      ({ p with rig }.obeyAll directives).obey last := List.foldl_append
  rw [concat]
  refine matched_obey fun needs => ?_
  cases asks : last.asks with
  | false => exact validating_obeyAll_of_not (p := { p with rig }) (flag.trans asks) _
  | true =>
    -- A switch without validation in the same act would have been asked for besides the last one.
    have alone : ∀ target, .validationRequired target false ∉ directives := fun target hm =>
      needs target (once last (by simp) _ (List.mem_append_left _ hm) asks rfl)
    exact (validating_obeyAll (p := { p with rig }) alone).trans (flag.trans asks)

section Steps

variable {p : Player} (steady : p.Steady) (matched : p.Matched)
include steady matched

theorem Matched.poll : p.poll.Matched :=
  matched.obeyAll p.rig.poll.1
    (Engine.validating_act (a := .poll) ⟨nofun, nofun⟩)
    fun _ hd _ hd' => Engine.asks_once (m := p.rig.moment) (a := .poll) steady.engine.sound hd hd'

theorem Matched.send {event : Event}
    (unanswered : event ≠ .validationFailed ∧ event ≠ .validationSucceeded) :
    (p.send event).Matched :=
  matched.obeyAll (p.rig.handle event).1
    (Engine.validating_act (a := .tell event)
      ⟨fun h => unanswered.1 (Act.tell.inj h), fun h => unanswered.2 (Act.tell.inj h)⟩)
    fun _ hd _ hd' =>
      Engine.asks_once (m := p.rig.moment) (a := .tell event) steady.engine.sound hd hd'

end Steps

/-- An answer comes when the player waits no more, and gives it nothing to do. -/
theorem matched_answered {p : Player} (given : p.awaiting = none) {event : Event}
    (answers : event = .validationFailed ∨ event = .validationSucceeded) :
    (p.send event).Matched := by
  have told : (Beat.mk p.rig.engine p.rig.moment (.event event)).Answers :=
    answers.imp (congrArg Task.event) (congrArg Task.event)
  obtain ⟨down, directives⟩ := Beat.quiet_of_answers told
  have sent : p.send event = { p with rig := (p.rig.handle event).1 } :=
    congrArg ({ p with rig := (p.rig.handle event).1 } : Player).obeyAll directives
  rw [sent]
  refine iff_of_false (ne_true_of_eq_false down) fun waits => ?_
  have waits : p.awaiting.isSome = true := waits.1
  simp [given] at waits

section Steps

variable {p : Player} (steady : p.Steady) (matched : p.Matched)
include steady matched

theorem Matched.advanceTo (time : Nat) : (p.advanceTo time).Matched := by
  have both : (p.advanceTo time).Steady ∧ (p.advanceTo time).Matched :=
    advanceTo_kept (P := fun q => q.Steady ∧ q.Matched)
      (fun q ms h => ⟨(h.1.advance ms).poll, Matched.poll (h.1.advance ms) h.2⟩)
      ⟨steady, matched⟩ time
  exact both.2

theorem Matched.perform (action : Action) : (p.perform action).Matched := by
  have handset (f : Handset → Handset) {event : Event}
      (unanswered : event ≠ .validationFailed ∧ event ≠ .validationSucceeded) :
      ((p.onHandset f).send event).Matched :=
    Matched.send (p := p.onHandset f) (steady.onHandset f) matched unanswered
  cases action with
  | registration slot state satellite => exact handset _ ⟨nofun, nofun⟩
  | signal slot level => exact handset _ ⟨nofun, nofun⟩
  | display slot display => exact handset _ ⟨nofun, nofun⟩
  | userData slot enabled => exact handset _ ⟨nofun, nofun⟩
  | roamingData slot enabled => exact handset _ ⟨nofun, nofun⟩
  | restrict slot reasons => exact handset _ ⟨nofun, nofun⟩
  | subscriptions active => exact handset _ ⟨nofun, nofun⟩
  | modemCount count => exact handset _ ⟨nofun, nofun⟩
  | defaultCandidate slot => exact handset _ ⟨nofun, nofun⟩
  | defaultNetwork transports hasInternet => exact Matched.send steady matched ⟨nofun, nofun⟩
  | validation result =>
    cases result with
    | failed => exact matched_answered rfl (Or.inl rfl)
    | passed =>
      refine matched_answered ?_ (Or.inr rfl)
      split
      next => rfl
      next idle => exact idle
  | evaluate => exact Matched.send steady matched ⟨nofun, nofun⟩
  | cancel => exact Matched.send steady matched ⟨nofun, nofun⟩
  | suspend ms => exact Matched.poll (p := p.suspend ms) (steady.suspend ms) matched

end Steps

theorem Reachable.matched {p : Player} (reach : p.Reachable) : p.Matched := by
  induction reach with
  | start s settings => exact iff_of_false nofun fun waits => nomatch waits.1
  | advanced reach time ih => exact ih.advanceTo reach.steady time
  | performed reach action ih => exact ih.perform reach.steady action

theorem Asked.obey {p : Player} (asked : p.Asked) (d : Directive) : (p.obey d).Asked := by
  intro target waits
  rw [trace_obey]
  cases d with
  | validationRequired target' needs =>
    cases needs with
    | true =>
      cases waits
      exact ⟨p.trace, _, [], rfl, nofun⟩
    | false =>
      obtain ⟨before, time, since, trace, needless⟩ := asked target waits
      rw [trace, List.append_assoc]
      refine ⟨before, time, since ++ [⟨_, _⟩], rfl, fun x hx => ?_⟩
      rcases List.mem_append.mp hx with hx | hx
      · exact needless x hx
      · cases List.mem_singleton.mp hx
        exact ⟨target', rfl⟩
  | immediateSwitch target' why trigger => cases waits
  | cancelPendingValidation => cases waits

theorem Asked.obeyAll {p : Player} (asked : p.Asked) (directives : List Directive) :
    (p.obeyAll directives).Asked :=
  obeyAll_kept (fun _ d asked => asked.obey d) asked directives

theorem Asked.poll {p : Player} (asked : p.Asked) : p.poll.Asked :=
  obeyAll (p := { p with rig := p.rig.poll.1 }) asked _

theorem Asked.send {p : Player} (asked : p.Asked) (event : Event) : (p.send event).Asked :=
  obeyAll (p := { p with rig := (p.rig.handle event).1 }) asked _

theorem Reachable.asked {p : Player} (reach : p.Reachable) : p.Asked := by
  induction reach with
  | start s settings => exact nofun
  | advanced _ time ih =>
    exact advanceTo_kept (fun q ms asked => Asked.poll (p := q.advance ms) asked) ih time
  | performed _ action ih =>
    exact perform_kept (fun _ event asked => asked.send event)
      (fun q ms asked => Asked.poll (p := q.suspend ms) asked) (fun _ _ asked => asked)
      (fun _ _ => nofun) ih action

theorem handset_passed (p : Player) :
    (p.perform (.validation .passed)).rig.handset =
      match p.awaiting with
      | some target => p.rig.handset.setPreferred (some target)
      | none => p.rig.handset := by
  rw [perform]
  cases p.awaiting <;> rfl

end Player

/-- At every point of a scenario the player waits for just the validation that the engine holds to
be under way, the last that was asked for, unless the last directive was a switch without
validation: what the player waited for before that, it goes on waiting for. A validation that passes
moves data to what the player waits for and to nothing else. -/
theorem awaiting_iff {p : Player} (reach : p.Reachable) :
    let passed := (p.perform (.validation .passed)).rig.handset
    (p.rig.engine.validating = true ↔ p.awaiting.isSome = true ∧ ¬ p.Overtaken) ∧
      (∀ target, p.awaiting = some target →
        passed = p.rig.handset.setPreferred (some target) ∧
        ∃ before time since, p.trace = before ++ ⟨time, .validationRequired target true⟩ :: since ∧
          ∀ x ∈ since, ∃ target', x.directive = .validationRequired target' false) ∧
      (p.awaiting = none → passed = p.rig.handset) ∧
      (p.rig.engine.validating = true → ∃ target before time, p.awaiting = some target ∧
        p.trace = before ++ [⟨time, .validationRequired target true⟩]) := by
  intro passed
  have moves : passed = _ := p.handset_passed
  refine ⟨reach.matched, fun target waits => ⟨?_, reach.asked target waits⟩, fun idle => ?_, ?_⟩
  · rw [moves, waits]
  · rw [moves, idle]
  · intro validating
    obtain ⟨waits, current⟩ := reach.matched.mp validating
    obtain ⟨target, waits⟩ := Option.isSome_iff_exists.mp waits
    obtain ⟨before, time, since, trace, needless⟩ := reach.asked target waits
    refine ⟨target, before, time, waits, ?_⟩
    rcases List.eq_nil_or_concat since with rfl | ⟨since, ⟨later, d⟩, rfl⟩
    · exact trace
    · rw [List.concat_eq_append] at trace needless
      obtain ⟨target', rfl⟩ : ∃ target', d = .validationRequired target' false :=
        needless _ (List.mem_append_right _ (.head _))
      rw [← List.cons_append, ← List.append_assoc] at trace
      exact absurd ⟨_, later, target', trace⟩ current

namespace Player

/-- While slot 1 is validated, slot 2 becomes the default, to which data goes without validation. -/
def rerouted : Player :=
  let s : Scenario := {
    slots := 3
    default := some 0
    preferred := some 0
    active := [0, 1, 2]
    phones := [{ slot := 0, state := .outOfService, level := 0 }, { slot := 1, level := 4 },
      { slot := 2, level := 1 }] }
  ((((start s { allowRoaming := false }).perform .evaluate).advanceTo 11000).perform
    (.defaultCandidate (some 2))).advanceTo 21000

theorem reachable_rerouted : rerouted.Reachable := by
  unfold rerouted
  exact .advanced (.performed (.advanced (.performed (.start _ _) _) _) _) _

theorem trace_rerouted : rerouted.trace =
    [⟨10000, .validationRequired 1 true⟩, ⟨21000, .validationRequired 2 false⟩] := by
  decide +kernel

theorem awaiting_rerouted : rerouted.awaiting = some 1 ∧
    rerouted.rig.engine.validating = false ∧
    rerouted.rig.handset.preferredSlot = some 2 := by
  decide +kernel

end Player

/-- Data has gone to slot 2, and then the validation of slot 1 passes. -/
theorem awaiting_iff_overtaken :
    let p := Player.rerouted
    p.Reachable ∧ p.Overtaken ∧ p.rig.engine.validating = false ∧
      p.rig.handset.preferredSlot = some 2 ∧
      (p.perform (.validation .passed)).rig.handset.preferredSlot = some 1 := by
  intro p
  have reach : p.Reachable := Player.reachable_rerouted
  obtain ⟨waits, -, moved⟩ := Player.awaiting_rerouted
  obtain ⟨flag, passes, -⟩ := awaiting_iff reach
  have overtaken : p.Overtaken := ⟨[_], _, 2, Player.trace_rerouted⟩
  refine ⟨reach, overtaken, ?_, moved, ?_⟩
  · exact Bool.eq_false_iff.mpr fun validating => (flag.mp validating).2 overtaken
  · rw [(passes 1 waits).1]
    rfl

/-- The player waits where nothing is validated, and data goes to what it waits for. -/
theorem awaiting_outdated :
    ¬ (∀ p : Player, p.Reachable →
        (p.awaiting.isSome = true ↔ p.rig.engine.validating = true)) ∧
      ¬ ∀ p : Player, p.Reachable → p.rig.engine.validating = false →
        (p.perform (.validation .passed)).rig.handset.preferredSlot =
          p.rig.handset.preferredSlot := by
  have reach := Player.reachable_rerouted
  obtain ⟨waits, down, moved⟩ := Player.awaiting_rerouted
  constructor
  · intro always
    have validating := (always _ reach).mp (by rw [waits]; rfl)
    rw [down] at validating
    cases validating
  · intro always
    have still := always _ reach down
    rw [Player.handset_passed, waits, moved] at still
    cases still

end ModemSelect
