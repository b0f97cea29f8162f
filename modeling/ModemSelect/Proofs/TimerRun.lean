import ModemSelect.Proofs.Bookkeeping

namespace ModemSelect

namespace TimerRig

/-- The act schedules the timer with the note and the delay, and that arms it. -/
def Arms (r : TimerRig) (key : TimerKey) (note : TimerNote) (delay : Nat) (a : TimerAct) : Prop :=
  a = .schedule key note delay ∧
    (r.timers.schedule key note delay r.clock).2 = .armed (Backend.forDelay delay)

/-- The act ends what is armed for the timer with the note: it fires, it is cancelled where there is
something to cancel, or it makes way for another note. -/
inductive Ends (r : TimerRig) (key : TimerKey) (note : TimerNote) : TimerAct → Prop where
  | fired {handed : TimerNote} (hands : (key, handed) ∈ (r.timers.fireDue r.clock).2) :
      Ends r key note .fire
  | cancelled (held : (r.timers.cancel key).2 = true) : Ends r key note (.cancel key)
  | replaced {other : TimerNote} {delay : Nat} (differs : other ≠ note)
      (recorded : r.timers.isScheduled key = true) : Ends r key note (.schedule key other delay)

variable {r : TimerRig} {key : TimerKey} {note : TimerNote} {delay : Nat} {a : TimerAct}

theorem arms_iff : r.Arms key note delay a ↔
    a = .schedule key note delay ∧ r.timers.carries key note = false := by
  refine and_congr_right fun _ => ?_
  unfold Timers.schedule
  split
  next carries => simp [carries]
  next fresh => simp [fresh]

theorem Arms.record? (h : r.Arms key note delay a) :
    (r.act a).timers.record? key = some ⟨note, Backend.forDelay delay, delay,
      Clock.deadline (r.clock.now (Backend.forDelay delay).timeBase) delay⟩ := by
  obtain ⟨rfl, fresh⟩ := arms_iff.mp h
  change (r.timers.schedule key note delay r.clock).1.record? key = _
  rw [Timers.schedule, if_neg (by simp [fresh]), Timers.record?_arm, if_pos rfl]

/-- A timer that is armed while it has a record makes way for another note. -/
theorem Arms.ends {s : Scheduled} (h : r.Arms key note delay a)
    (hs : r.timers.record? key = some s) : r.Ends key s.note a := by
  obtain ⟨rfl, fresh⟩ := arms_iff.mp h
  refine .replaced (fun same => ?_) (by simp [Timers.isScheduled, hs])
  have carries := Timers.carries_iff.mpr ⟨s, hs, same.symm⟩
  rw [fresh] at carries
  cases carries

theorem unrecorded_act (bare : r.timers.record? key = none)
    (unarmed : ∀ note delay, ¬ r.Arms key note delay a) :
    (r.act a).timers.record? key = none := by
  cases h : (r.act a).timers.record? key with
  | none => rfl
  | some s =>
    rcases record?_act h with before | ⟨delay, act, fresh, -⟩
    · rw [bare] at before
      cases before
    · exact absurd (arms_iff.mpr ⟨act, fresh⟩) (unarmed s.note delay)

section Sound

variable (sound : r.timers.Sound)
include sound

theorem Ends.recorded (h : r.Ends key note a) : ∃ s, r.timers.record? key = some s := by
  cases h with
  | fired hands =>
    obtain ⟨s, hs, -⟩ := Timers.recorded_of_mem_fireDue hands
    exact ⟨s, hs⟩
  | cancelled held =>
    refine Option.ne_none_iff_exists'.mp fun bare => ?_
    have deferred := Timers.isArmedOn_of_bare sound bare .deferred
    have alarm := Timers.isArmedOn_of_bare sound bare .alarm
    simp only [Timers.isArmedOn] at deferred alarm
    simp [Timers.snd_cancel, deferred, alarm, Timers.isScheduled, bare] at held
  | replaced differs recorded => exact Option.isSome_iff_exists.mp recorded

/-- What ends leaves no record, unless the timer is armed at once for another note. -/
theorem Ends.unrecorded (h : r.Ends key note a) (unarmed : ∀ note delay, ¬ r.Arms key note delay a)
    (hn : ∀ s, r.timers.record? key = some s → s.note = note) :
    (r.act a).timers.record? key = none := by
  cases h with
  | @fired handed hands =>
    obtain ⟨s, hs, -, due⟩ := (Timers.mem_fireDue sound).mp hands
    refine (Timers.record?_fireDue sound r.clock key).trans ?_
    simp [hs, Option.filter, due]
  | cancelled held => exact (Timers.record?_cancel ..).trans (if_pos rfl)
  | @replaced other delay differs recorded =>
    refine absurd (arms_iff.mpr ⟨rfl, ?_⟩) (unarmed other delay)
    rw [Bool.eq_false_iff]
    intro carries
    obtain ⟨s, hs, same⟩ := Timers.carries_iff.mp carries
    exact differs (same.symm.trans (hn s hs))

/-- A record that nothing ends stays as it is. -/
theorem record?_act_of_not_ends {s : Scheduled} (hs : r.timers.record? key = some s)
    (lasts : ¬ r.Ends key s.note a) : (r.act a).timers.record? key = some s := by
  cases a with
  | schedule k note delay =>
    change (r.timers.schedule k note delay r.clock).1.record? key = some s
    by_cases he : k = key
    · subst he
      have same : note = s.note := by
        by_contra differs
        exact lasts (.replaced differs (by simp [Timers.isScheduled, hs]))
      rw [Timers.schedule_of_carries (Timers.carries_iff.mpr ⟨s, hs, same.symm⟩)]
      exact hs
    · rw [Timers.record?_schedule_of_ne (Ne.symm he), hs]
  | cancel k =>
    change (r.timers.cancel k).1.record? key = some s
    by_cases he : k = key
    · subst he
      exact absurd (.cancelled (by simp [Timers.snd_cancel, Timers.isScheduled, hs])) lasts
    · rw [Timers.record?_cancel, if_neg (Ne.symm he), hs]
  | fire =>
    have early : r.clock.now s.backend.timeBase < s.deadline := by
      by_contra due
      have hands := (Timers.mem_fireDue sound).mpr ⟨s, hs, rfl, Nat.le_of_not_lt due⟩
      exact lasts (.fired hands)
    refine (Timers.record?_fireDue sound r.clock key).trans ?_
    simp [hs, Option.filter, early]
  | advance => exact hs
  | suspend => exact hs

end Sound

end TimerRig

/-- A run of new timers: where their clock starts and what is done. -/
structure TimerRun where
  clock : Clock := {}
  acts : List TimerAct

namespace TimerRun

/-- The rig before the act of the given number. -/
def rigAt (r : TimerRun) (n : Nat) : TimerRig :=
  TimerRig.after { clock := r.clock } (r.acts.take n)

/-- What a poll at the act of the given number hands over. -/
def firedAt (r : TimerRun) (n : Nat) : List (TimerKey × TimerNote) :=
  ((r.rigAt n).timers.fireDue (r.rigAt n).clock).2

def ArmsAt (r : TimerRun) (key : TimerKey) (note : TimerNote) (delay i : Nat) : Prop :=
  ∃ a, r.acts[i]? = some a ∧ (r.rigAt i).Arms key note delay a

/-- The timer is not armed again between the two acts. -/
def Unrenewed (r : TimerRun) (key : TimerKey) (i n : Nat) : Prop :=
  ∀ j, i < j → j < n → ∀ note delay, ¬ r.ArmsAt key note delay j

/-- What act `i` armed for the timer comes to its end in act `k`. -/
def Ends (r : TimerRun) (key : TimerKey) (note : TimerNote) (i k : Nat) : Prop :=
  i < k ∧ r.Unrenewed key i k ∧ ∃ a, r.acts[k]? = some a ∧ (r.rigAt k).Ends key note a

/-- What act `i` armed for the timer has not come to its end before act `n`. -/
def Lasts (r : TimerRun) (key : TimerKey) (note : TimerNote) (i n : Nat) : Prop :=
  i < n ∧ ∀ k, r.Ends key note i k → n ≤ k

theorem rigAt_succ {r : TimerRun} {n : Nat} {a : TimerAct} (h : r.acts[n]? = some a) :
    r.rigAt (n + 1) = (r.rigAt n).act a := by
  rw [rigAt, List.take_add_one, h, TimerRig.after, List.foldl_append]
  rfl

theorem rigAt_succ_of_none {r : TimerRun} {n : Nat} (h : r.acts[n]? = none) :
    r.rigAt (n + 1) = r.rigAt n := by
  rw [rigAt, List.take_add_one, h]
  simp [rigAt]

theorem armsAt_iff {r : TimerRun} {n : Nat} {a : TimerAct} (h : r.acts[n]? = some a)
    {key : TimerKey} {note : TimerNote} {delay : Nat} :
    r.ArmsAt key note delay n ↔ (r.rigAt n).Arms key note delay a := by
  simp [ArmsAt, h]

theorem not_armsAt {r : TimerRun} {n : Nat} (h : r.acts[n]? = none) {key : TimerKey}
    (note : TimerNote) (delay : Nat) : ¬ r.ArmsAt key note delay n := by
  simp [ArmsAt, h]

theorem sound_rigAt (r : TimerRun) (n : Nat) : (r.rigAt n).timers.Sound := by
  have kept : ∀ key, Timers.Kept {} key := Stock.kept_timers ⟨{}, {}, Alarms.wellFormed_empty⟩
  refine ⟨(TimerRig.kept_after (kept .evaluate) _).alarms, fun key => ?_⟩
  exact TimerRig.agrees_after (kept key) (Or.inl (Timers.sound_empty.agrees key))

theorem Unrenewed.succ {r : TimerRun} {key : TimerKey} {i n : Nat} (h : r.Unrenewed key i n)
    (unarmed : ∀ note delay, ¬ r.ArmsAt key note delay n) : r.Unrenewed key i (n + 1) := by
  intro j hi hj
  rcases Nat.lt_succ_iff_lt_or_eq.mp hj with hj | rfl
  · exact h j hi hj
  · exact unarmed

section Armed

variable {r : TimerRun} {key : TimerKey} {note : TimerNote} {delay i : Nat}
  (armed : r.ArmsAt key note delay i)
include armed

/-- While it lasts, what was armed is on record just as it was armed. -/
theorem record?_of_lasts {n : Nat} (lasts : r.Lasts key note i n) :
    (r.rigAt n).timers.record? key = some ⟨note, Backend.forDelay delay, delay,
        Clock.deadline ((r.rigAt i).clock.now (Backend.forDelay delay).timeBase) delay⟩ ∧
      r.Unrenewed key i n := by
  -- Both go together: to arm the timer anew would end what is on record.
  induction n with
  | zero => exact absurd lasts.1 (Nat.not_lt_zero i)
  | succ n ih =>
    rcases Nat.lt_succ_iff_lt_or_eq.mp lasts.1 with hi | rfl
    · obtain ⟨hs, unrenewed⟩ := ih ⟨hi, fun k ends => Nat.le_of_succ_le (lasts.2 k ends)⟩
      cases ha : r.acts[n]? with
      | none =>
        rw [rigAt_succ_of_none ha]
        exact ⟨hs, unrenewed.succ (not_armsAt ha)⟩
      | some a =>
        have goesOn : ¬ (r.rigAt n).Ends key note a := fun ends =>
          absurd (lasts.2 n ⟨hi, unrenewed, a, ha, ends⟩) (Nat.not_succ_le_self n)
        rw [rigAt_succ ha]
        exact ⟨TimerRig.record?_act_of_not_ends (r.sound_rigAt n) hs goesOn,
          unrenewed.succ fun _ _ arms => goesOn (((armsAt_iff ha).mp arms).ends hs)⟩
    · obtain ⟨a, ha, arms⟩ := armed
      rw [rigAt_succ ha]
      exact ⟨arms.record?, fun j hi hj => absurd hj (by omega)⟩

/-- What has ended is off the record until the timer is armed again. -/
theorem unrecorded_of_ends {k n : Nat} (lasts : r.Lasts key note i k)
    (ends : r.Ends key note i k) (hk : k < n) (unrenewed : r.Unrenewed key i n) :
    (r.rigAt n).timers.record? key = none := by
  induction n with
  | zero => exact absurd hk (Nat.not_lt_zero k)
  | succ n ih =>
    have unarmed := unrenewed n (by have := ends.1; omega) (Nat.lt_succ_self n)
    rcases Nat.lt_succ_iff_lt_or_eq.mp hk with hk | rfl
    · have bare := ih hk fun j hi hj => unrenewed j hi (Nat.lt_succ_of_lt hj)
      cases ha : r.acts[n]? with
      | none => rwa [rigAt_succ_of_none ha]
      | some a =>
        rw [rigAt_succ ha]
        exact TimerRig.unrecorded_act bare fun _ _ arms => unarmed _ _ ((armsAt_iff ha).mpr arms)
    · obtain ⟨-, -, a, ha, ends⟩ := ends
      rw [rigAt_succ ha]
      refine ends.unrecorded (r.sound_rigAt k) (fun _ _ arms => ?_) fun s hs => ?_
      · exact unarmed _ _ ((armsAt_iff ha).mpr arms)
      · rw [(record?_of_lasts armed lasts).1] at hs
        cases hs
        rfl

theorem lasts_of_ends {k : Nat} (ends : r.Ends key note i k) : r.Lasts key note i k := by
  -- An earlier end would have left nothing on record to end here.
  induction k using Nat.strongRecOn with
  | ind k ih =>
    refine ⟨ends.1, fun k' ends' => ?_⟩
    by_contra earlier
    have hk : k' < k := Nat.lt_of_not_le earlier
    have bare := unrecorded_of_ends armed (ih k' hk ends') ends' hk ends.2.1
    obtain ⟨-, -, a, -, ends⟩ := ends
    obtain ⟨s, hs⟩ := ends.recorded (r.sound_rigAt k)
    rw [bare] at hs
    cases hs

/-- What was armed comes to one end at most. -/
theorem ends_unique {k k' : Nat} (h : r.Ends key note i k) (h' : r.Ends key note i k') : k = k' :=
  Nat.le_antisymm ((lasts_of_ends armed h).2 k' h') ((lasts_of_ends armed h').2 k h)

end Armed

/-- Whatever is on record was armed, with the note and the delay on record, and not again since. -/
theorem exists_armsAt {r : TimerRun} {key : TimerKey} {n : Nat} {s : Scheduled}
    (h : (r.rigAt n).timers.record? key = some s) :
    ∃ i, i < n ∧ r.ArmsAt key s.note s.delay i ∧ r.Unrenewed key i n := by
  induction n with
  | zero => cases key <;> cases h
  | succ n ih =>
    cases ha : r.acts[n]? with
    | none =>
      rw [rigAt_succ_of_none ha] at h
      obtain ⟨i, hi, armed, unrenewed⟩ := ih h
      exact ⟨i, Nat.lt_succ_of_lt hi, armed, unrenewed.succ (not_armsAt ha)⟩
    | some a =>
      rw [rigAt_succ ha] at h
      by_cases renewed : ∃ note delay, (r.rigAt n).Arms key note delay a
      · obtain ⟨note, delay, arms⟩ := renewed
        rw [arms.record?] at h
        cases h
        exact ⟨n, Nat.lt_succ_self n, ⟨a, ha, arms⟩, fun j hi hj => absurd hj (by omega)⟩
      · rcases TimerRig.record?_act h with before | ⟨delay, act, fresh, -⟩
        · obtain ⟨i, hi, armed, unrenewed⟩ := ih before
          exact ⟨i, Nat.lt_succ_of_lt hi, armed, unrenewed.succ fun note delay arms =>
            renewed ⟨note, delay, (armsAt_iff ha).mp arms⟩⟩
        · exact absurd ⟨s.note, delay, TimerRig.arms_iff.mpr ⟨act, fresh⟩⟩ renewed

end TimerRun

end ModemSelect
