import ModemSelect.Proofs.Firing

namespace ModemSelect

/-- What can be done to timers and to their clock. -/
inductive TimerAct where
  | schedule (key : TimerKey) (note : TimerNote) (delay : Nat)
  | cancel (key : TimerKey)
  | fire
  | advance (ms : Nat)
  | suspend (ms : Nat)

/-- The act is a request about the timer. -/
def TimerAct.Concerns (key : TimerKey) : TimerAct → Prop
  | .schedule k _ _ | .cancel k => k = key
  | .fire | .advance _ | .suspend _ => False

/-- Timers and the clock that they read, which is moved by hand. -/
structure TimerRig where
  timers : Timers := {}
  clock : Clock := {}

/-- What always holds of the record of one timer, whatever the backends held at first. -/
structure Timers.Kept (t : Timers) (key : TimerKey) : Prop where
  alarms : t.alarms.WellFormed
  agrees : ∀ s, t.record? key = some s → t.Agrees key
  placed : ∀ s, t.record? key = some s → s.backend = Backend.forDelay s.delay

namespace TimerRig

def act (r : TimerRig) : TimerAct → TimerRig
  | .schedule key note delay =>
    { r with timers := (r.timers.schedule key note delay r.clock).1 }
  | .cancel key => { r with timers := (r.timers.cancel key).1 }
  | .fire => { r with timers := (r.timers.fireDue r.clock).1 }
  | .advance ms => { r with clock := r.clock.advance ms }
  | .suspend ms => { r with clock := r.clock.suspend ms }

def after (r : TimerRig) (acts : List TimerAct) : TimerRig := acts.foldl act r

/-- A record was there before the act, or the act has just made it. -/
theorem record?_act {r : TimerRig} {a : TimerAct} {key : TimerKey} {s : Scheduled}
    (h : (r.act a).timers.record? key = some s) :
    r.timers.record? key = some s ∨ ∃ delay, a = .schedule key s.note delay ∧
      r.timers.carries key s.note = false ∧
      s = ⟨s.note, Backend.forDelay delay, delay,
        Clock.deadline (r.clock.now (Backend.forDelay delay).timeBase) delay⟩ := by
  cases a with
  | schedule k note delay =>
    change (r.timers.schedule k note delay r.clock).1.record? key = some s at h
    unfold Timers.schedule at h
    split at h
    next => exact Or.inl h
    next fresh =>
      rw [Timers.record?_arm] at h
      split at h
      next he =>
        cases h
        exact Or.inr ⟨delay, by rw [he], by simpa [he] using fresh, rfl⟩
      next => exact Or.inl h
  | cancel k =>
    refine Or.inl ?_
    change (r.timers.cancel k).1.record? key = some s at h
    rw [Timers.record?_cancel] at h
    split at h
    next => cases h
    next => exact h
  | fire =>
    refine Or.inl ?_
    replace h := (Timers.record?_claimAll ..).symm.trans h
    split at h
    next => cases h
    next => exact h
  | advance => exact Or.inl h
  | suspend => exact Or.inl h

theorem wellFormed_act {r : TimerRig} (h : r.timers.alarms.WellFormed) (a : TimerAct) :
    (r.act a).timers.alarms.WellFormed := by
  cases a with
  | schedule key note delay => exact Timers.wellFormed_schedule h key note delay r.clock
  | cancel key => exact Alarms.wellFormed_disarm h key
  | fire => exact Timers.wellFormed_fireDue h r.clock
  | advance => exact h
  | suspend => exact h

/-- The records of a timer agree with the backends once they do, or once a request is made about
it, and go on doing so. -/
theorem agrees_act {r : TimerRig} {key : TimerKey} (h : r.timers.Kept key) {a : TimerAct}
    (agrees : r.timers.Agrees key ∨ a.Concerns key) : (r.act a).timers.Agrees key := by
  cases a with
  | schedule k note delay =>
    refine Timers.agrees_schedule h.alarms ?_ note delay r.clock
    intro other
    rcases agrees with agrees | rfl
    · exact agrees
    · rcases other with other | ⟨s, hs⟩
      · exact absurd rfl other
      · exact h.agrees s hs
  | cancel k =>
    refine Timers.agrees_cancel h.alarms fun other => ?_
    exact agrees.resolve_right fun concerns => other concerns.symm
  | fire => exact (agrees.resolve_right id).fireDue h.alarms r.clock
  | advance => exact agrees.resolve_right id
  | suspend => exact agrees.resolve_right id

theorem kept_act {r : TimerRig} {key : TimerKey} (h : r.timers.Kept key) (a : TimerAct) :
    (r.act a).timers.Kept key where
  alarms := wellFormed_act h.alarms a
  agrees := by
    intro s hs
    refine agrees_act h ?_
    rcases record?_act hs with before | ⟨delay, rfl, -, -⟩
    · exact Or.inl (h.agrees s before)
    · exact Or.inr rfl
  placed := by
    intro s hs
    rcases record?_act hs with before | ⟨delay, -, -, made⟩
    · exact h.placed s before
    · rw [made]

theorem kept_after {r : TimerRig} {key : TimerKey} (h : r.timers.Kept key)
    (acts : List TimerAct) : (r.after acts).timers.Kept key := by
  induction acts generalizing r with
  | nil => exact h
  | cons a rest ih => exact ih (kept_act h a)

theorem agrees_after {r : TimerRig} {key : TimerKey} (h : r.timers.Kept key)
    {acts : List TimerAct}
    (agrees : r.timers.Agrees key ∨ ∃ a ∈ acts, a.Concerns key) :
    (r.after acts).timers.Agrees key := by
  induction acts generalizing r with
  | nil =>
    rcases agrees with agrees | ⟨a, hm, -⟩
    · exact agrees
    · cases hm
  | cons a rest ih =>
    refine ih (kept_act h a) ?_
    rcases agrees with agrees | ⟨b, hm, concerns⟩
    · exact Or.inl (agrees_act h (Or.inl agrees))
    · rcases List.mem_cons.mp hm with rfl | hm
      · exact Or.inl (agrees_act h (Or.inr concerns))
      · exact Or.inr ⟨b, hm, concerns⟩

end TimerRig

/-- Backends that hold any deadlines at all, of which the timers know nothing yet. -/
structure Stock where
  queue : Queue
  alarms : Alarms
  wellFormed : alarms.WellFormed

namespace Stock

def timers (s : Stock) : Timers := { queue := s.queue, alarms := s.alarms }

theorem record?_timers (s : Stock) (key : TimerKey) : s.timers.record? key = none := by
  cases key <;> rfl

theorem kept_timers (s : Stock) (key : TimerKey) : s.timers.Kept key where
  alarms := s.wellFormed
  agrees := by simp [record?_timers]
  placed := by simp [record?_timers]

/-- There is a stock for any deadlines whatever. -/
theorem exists_holding (held : Backend → TimerKey → Option Nat) :
    ∃ s : Stock, ∀ b key, s.timers.deadlineOn? b key = held b key := by
  have put : ∀ a : Alarms, a.WellFormed → ∀ key (d : Option Nat), ∃ a' : Alarms,
      a'.WellFormed ∧ ∀ k, a'.deadline? k = if k = key then d else a.deadline? k := by
    intro a h key d
    cases d with
    | none => exact ⟨(a.disarm key).1, Alarms.wellFormed_disarm h key, Alarms.deadline?_disarm h key⟩
    | some d =>
      exact ⟨a.arm key d, Alarms.wellFormed_arm h key d, fun k => Alarms.deadline?_arm h key k d⟩
  obtain ⟨a, ha, first⟩ := put {} Alarms.wellFormed_empty .evaluate (held .alarm .evaluate)
  obtain ⟨a', ha', second⟩ := put a ha .stabilityCheck (held .alarm .stabilityCheck)
  refine ⟨⟨⟨held .deferred .evaluate, held .deferred .stabilityCheck⟩, a', ha'⟩, ?_⟩
  intro b key
  cases b with
  | deferred => cases key <;> rfl
  | alarm =>
    refine (second key).trans ?_
    cases key with
    | evaluate => exact (if_neg (by decide)).trans ((first .evaluate).trans (if_pos rfl))
    | stabilityCheck => exact if_pos rfl

/-- Whatever the backends held at first: a recorded timer is armed on the backend for its delay at
just the deadline on record, and not on the other one. A timer without a record is armed on
neither, if it was ever scheduled or cancelled or nothing was held for it at first. And only
recorded timers fire. -/
theorem records_match_backends (stock : Stock) (clock : Clock) (acts : List TimerAct)
    (key : TimerKey) :
    let r := TimerRig.after ⟨stock.timers, clock⟩ acts
    (∀ s, r.timers.record? key = some s →
      s.backend = Backend.forDelay s.delay ∧
      r.timers.deadlineOn? s.backend key = some s.deadline ∧
      ∀ b, b ≠ s.backend → r.timers.isArmedOn b key = false) ∧
    (r.timers.record? key = none →
      ((∃ a ∈ acts, a.Concerns key) ∨ ∀ b, stock.timers.isArmedOn b key = false) →
      ∀ b, r.timers.isArmedOn b key = false) ∧
    ∀ note, (key, note) ∈ (r.timers.fireDue r.clock).2 →
      ∃ s, r.timers.record? key = some s ∧ s.note = note := by
  intro r
  have kept : r.timers.Kept key := TimerRig.kept_after (stock.kept_timers key) acts
  refine ⟨?_, ?_, fun note fires => Timers.recorded_of_mem_fireDue fires⟩
  · intro s hs
    have held := kept.agrees s hs
    refine ⟨kept.placed s hs, ?_, ?_⟩
    · rw [held, hs]
      simp [Option.filter]
    · intro b other
      rw [Timers.isArmedOn_eq, held, hs]
      simp [Option.filter, other.symm]
  · intro bare cause b
    have held : r.timers.Agrees key := by
      refine TimerRig.agrees_after (stock.kept_timers key) ?_
      rcases cause with concerned | empty
      · exact Or.inr concerned
      · refine Or.inl fun b => ?_
        have unarmed := empty b
        rw [Timers.isArmedOn_eq, Option.isSome_eq_false_iff, Option.isNone_iff_eq_none] at unarmed
        rw [unarmed, record?_timers]
        rfl
    rw [Timers.isArmedOn_eq, held, bare]
    rfl

/-- Alarms that nobody recorded are set for both timers. -/
def stray : Stock where
  queue := {}
  alarms := { listeners := TimerKey.all, outstanding := [⟨0, 500⟩, ⟨1, 500⟩] }
  wellFormed := ⟨by decide, by decide, by decide⟩

/-- A timer that is scheduled loses its stray alarm; one that is left alone keeps it and does not
fire by it. -/
theorem records_match_backends_stray :
    let r := TimerRig.after ⟨stray.timers, {}⟩
      [.schedule .stabilityCheck (.stability ⟨1, false, true⟩) 1000, .advance 500]
    r.timers.deadlineOn? .deferred .stabilityCheck = some 1000 ∧
      r.timers.isArmedOn .alarm .stabilityCheck = false ∧
      r.timers.isArmedOn .alarm .evaluate = true ∧
      ∀ note, (TimerKey.evaluate, note) ∉ (r.timers.fireDue r.clock).2 := by
  intro r
  have recorded : r.timers.record? .stabilityCheck =
      some ⟨.stability ⟨1, false, true⟩, .deferred, 1000, 1000⟩ := by decide +kernel
  have bare : r.timers.record? .evaluate = none := by decide +kernel
  obtain ⟨armed, -, -⟩ := records_match_backends stray {} _ .stabilityCheck
  obtain ⟨-, -, fires⟩ := records_match_backends stray {} _ .evaluate
  obtain ⟨-, held, other⟩ := armed _ recorded
  refine ⟨held, other .alarm (by decide), by decide +kernel, fun note fired => ?_⟩
  obtain ⟨s, hs, -⟩ := fires note fired
  rw [bare] at hs
  cases hs

end Stock

end ModemSelect
