import ModemSelect.Proofs.TimerRun

namespace ModemSelect

/-- The time that passes in the act as a delay counts it: sleep counts only for a delay of a minute
or more. -/
def TimerAct.counted (delay : Nat) : TimerAct → Nat
  | .advance ms => ms
  | .suspend ms => if delay < 60000 then 0 else ms
  | .schedule _ _ _ | .cancel _ | .fire => 0

namespace TimerRig

/-- The act neither moves the clock past the last word nor arms a timer for a time past it. -/
def Steady (r : TimerRig) : TimerAct → Prop
  | .schedule key note delay => r.timers.carries key note = false →
      r.clock.now (Backend.forDelay delay).timeBase + delay ≤ wordMax
  | .advance ms => r.clock.uptime + ms ≤ wordMax ∧ r.clock.realtime + ms ≤ wordMax
  | .suspend ms => r.clock.realtime + ms ≤ wordMax
  | .cancel _ | .fire => True

instance (r : TimerRig) (a : TimerAct) : Decidable (r.Steady a) :=
  match a with
  | .schedule key note delay => inferInstanceAs (Decidable (r.timers.carries key note = false →
      r.clock.now (Backend.forDelay delay).timeBase + delay ≤ wordMax))
  | .advance ms => inferInstanceAs (Decidable
      (r.clock.uptime + ms ≤ wordMax ∧ r.clock.realtime + ms ≤ wordMax))
  | .suspend ms => inferInstanceAs (Decidable (r.clock.realtime + ms ≤ wordMax))
  | .cancel _ | .fire => inferInstanceAs (Decidable True)

theorem now_act {r : TimerRig} {a : TimerAct} (steady : r.Steady a) (delay : Nat) :
    (r.act a).clock.now (Backend.forDelay delay).timeBase =
      r.clock.now (Backend.forDelay delay).timeBase + a.counted delay := by
  cases a with
  | schedule => rfl
  | cancel => rfl
  | fire => rfl
  | advance ms =>
    obtain ⟨up, real⟩ := steady
    rw [Backend.timeBase_forDelay]
    split
    next => exact Nat.mod_eq_of_lt (Nat.lt_succ_of_le up)
    next => exact Nat.mod_eq_of_lt (Nat.lt_succ_of_le real)
  | suspend ms =>
    rw [Backend.timeBase_forDelay]
    by_cases short : delay < 60000
    · simp [TimerAct.counted, short, act, Clock.suspend, Clock.now]
    · simp only [short, if_false, TimerAct.counted]
      exact Nat.mod_eq_of_lt (Nat.lt_succ_of_le steady)

end TimerRig

namespace TimerRun

def Steady (r : TimerRun) : Prop := ∀ n (h : n < r.acts.length), (r.rigAt n).Steady r.acts[n]

/-- The time between the two acts, as the delay counts it. -/
def elapsed (r : TimerRun) (delay i n : Nat) : Nat :=
  ((r.acts.take n).drop (i + 1)).foldl (fun ms a => ms + a.counted delay) 0

theorem elapsed_self (r : TimerRun) (delay i : Nat) : r.elapsed delay i (i + 1) = 0 := by
  rw [elapsed, List.drop_eq_nil_of_le (List.length_take_le _ _)]
  rfl

theorem elapsed_succ {r : TimerRun} {n : Nat} {a : TimerAct} (h : r.acts[n]? = some a)
    {i : Nat} (hi : i < n) (delay : Nat) :
    r.elapsed delay i (n + 1) = r.elapsed delay i n + a.counted delay := by
  have hn : n < r.acts.length := (List.getElem?_eq_some_iff.mp h).1
  have room : i + 1 ≤ (r.acts.take n).length := by
    rw [List.length_take]
    omega
  rw [elapsed, List.take_add_one, h, List.drop_append_of_le_length room]
  simp [elapsed]

section Armed

variable {r : TimerRun} (steady : r.Steady) {key : TimerKey} {note : TimerNote} {delay i : Nat}
  (armed : r.ArmsAt key note delay i)
include steady armed

/-- The clock of the backend runs on by what the delay counts. -/
theorem now_rigAt {n : Nat} (hi : i < n) :
    (r.rigAt n).clock.now (Backend.forDelay delay).timeBase =
      (r.rigAt i).clock.now (Backend.forDelay delay).timeBase + r.elapsed delay i n := by
  induction n with
  | zero => exact absurd hi (Nat.not_lt_zero i)
  | succ n ih =>
    rcases Nat.lt_succ_iff_lt_or_eq.mp hi with hi | rfl
    · cases ha : r.acts[n]? with
      | none =>
        have same : r.elapsed delay i (n + 1) = r.elapsed delay i n := by
          rw [elapsed, List.take_add_one, ha]
          simp [elapsed]
        rw [rigAt_succ_of_none ha, ih hi, same]
      | some a =>
        obtain ⟨hn, rfl⟩ := List.getElem?_eq_some_iff.mp ha
        rw [rigAt_succ ha, TimerRig.now_act (steady n hn), ih hi, elapsed_succ ha hi,
          Nat.add_assoc]
    · obtain ⟨a, ha, rfl, -⟩ := armed
      rw [rigAt_succ ha, elapsed_self]
      rfl

theorem deadline_of_armsAt :
    Clock.deadline ((r.rigAt i).clock.now (Backend.forDelay delay).timeBase) delay =
      (r.rigAt i).clock.now (Backend.forDelay delay).timeBase + delay := by
  obtain ⟨a, ha, arms⟩ := armed
  obtain ⟨rfl, fresh⟩ := TimerRig.arms_iff.mp arms
  obtain ⟨hi, act⟩ := List.getElem?_eq_some_iff.mp ha
  have within := steady i hi
  rw [act] at within
  exact Nat.min_eq_left (within fresh)

/-- While it lasts, a poll hands over its own note once its delay has elapsed, and nothing of the
timer before. -/
theorem mem_firedAt_iff {n : Nat} (lasts : r.Lasts key note i n) {handed : TimerNote} :
    (key, handed) ∈ r.firedAt n ↔ handed = note ∧ delay ≤ r.elapsed delay i n := by
  have hs := (record?_of_lasts armed lasts).1
  rw [deadline_of_armsAt steady armed] at hs
  rw [firedAt, Timers.mem_fireDue (r.sound_rigAt n), hs]
  simp only [Option.some.injEq, exists_eq_left', now_rigAt steady armed lasts.1,
    Nat.add_le_add_iff_left, @eq_comm _ handed]

/-- It ends by firing just in the first poll that comes after its delay, if it lasts till then. -/
theorem ends_fire_iff {k : Nat} (fires : r.acts[k]? = some .fire) :
    r.Ends key note i k ↔ r.Lasts key note i k ∧ delay ≤ r.elapsed delay i k ∧
      ∀ j, i < j → j < k → r.acts[j]? = some .fire → r.elapsed delay i j < delay := by
  have fire : ∀ {j}, r.acts[j]? = some .fire → r.Lasts key note i j →
      delay ≤ r.elapsed delay i j → r.Ends key note i j := by
    intro j hj lasts due
    have hands := (mem_firedAt_iff steady armed lasts).mpr ⟨rfl, due⟩
    exact ⟨lasts.1, (record?_of_lasts armed lasts).2, _, hj, .fired hands⟩
  constructor
  · intro ends
    have lasts := lasts_of_ends armed ends
    refine ⟨lasts, ?_, fun j hi hj early => ?_⟩
    · obtain ⟨-, -, a, ha, ends⟩ := ends
      cases fires.symm.trans ha
      cases ends with
      | fired hands => exact ((mem_firedAt_iff steady armed lasts).mp hands).2
    · by_contra due
      have lastsTill : r.Lasts key note i j :=
        ⟨hi, fun k' ends' => Nat.le_of_lt (Nat.lt_of_lt_of_le hj (lasts.2 k' ends'))⟩
      have same := ends_unique armed ends (fire early lastsTill (Nat.le_of_not_lt due))
      omega
  · intro h
    exact fire fires h.1 h.2.1

end Armed

/-- What is armed comes to one end at most: it fires, is cancelled or makes way for another note.
Till then it stays on record as it was armed, and to schedule the same note again changes nothing.
It fires with its own note in the first poll that comes after its delay, and nothing fires but what
was armed. -/
theorem ends_once_on_time {r : TimerRun} (steady : r.Steady) :
    (∀ key note delay i, r.ArmsAt key note delay i →
      (∀ k k', r.Ends key note i k → r.Ends key note i k' → k = k') ∧
      (∀ n, r.Lasts key note i n →
        (r.rigAt n).timers.record? key = some ⟨note, Backend.forDelay delay, delay,
          (r.rigAt i).clock.now (Backend.forDelay delay).timeBase + delay⟩ ∧
        (∀ again, (r.rigAt n).timers.schedule key note again (r.rigAt n).clock =
          ((r.rigAt n).timers, .alreadyScheduled)) ∧
        ∀ handed, (key, handed) ∈ r.firedAt n ↔
          handed = note ∧ delay ≤ r.elapsed delay i n) ∧
      ∀ k, r.acts[k]? = some .fire →
        (r.Ends key note i k ↔ r.Lasts key note i k ∧ delay ≤ r.elapsed delay i k ∧
          ∀ j, i < j → j < k → r.acts[j]? = some .fire → r.elapsed delay i j < delay)) ∧
    ∀ n, ((r.firedAt n).map (·.1)).Nodup ∧
      ∀ key note, r.acts[n]? = some .fire → (key, note) ∈ r.firedAt n →
        ∃ delay i, r.ArmsAt key note delay i ∧ r.Ends key note i n := by
  refine ⟨fun key note delay i armed => ⟨fun k k' => ends_unique armed, ?_, ?_⟩,
    fun n => ⟨Timers.nodup_fireDue (r.sound_rigAt n) _, ?_⟩⟩
  · intro n lasts
    have hs := (record?_of_lasts armed lasts).1
    have carries := Timers.carries_iff.mpr ⟨_, hs, rfl⟩
    rw [deadline_of_armsAt steady armed] at hs
    exact ⟨hs, fun again => Timers.schedule_of_carries carries again _,
      fun handed => mem_firedAt_iff steady armed lasts⟩
  · intro k fires
    exact ends_fire_iff steady armed fires
  · intro key note fires hands
    obtain ⟨s, hs, rfl⟩ := Timers.recorded_of_mem_fireDue hands
    obtain ⟨i, hi, armed, unrenewed⟩ := exists_armsAt hs
    exact ⟨s.delay, i, armed, hi, unrenewed, _, fires, .fired hands⟩

/-- A check of one second that is scheduled again, beside a retry of one minute that goes on
through sleep. -/
def beside : TimerRun where
  acts := [
    .schedule .stabilityCheck (.stability ⟨1, false, true⟩) 1000,
    .schedule .evaluate (.evaluate .retryValidation) 60000,
    .advance 400,
    .schedule .stabilityCheck (.stability ⟨1, false, true⟩) 5000,
    .suspend 59600,
    .fire,
    .advance 600,
    .fire]

/-- The retry fires first; the check fires one second of waking time after it was first scheduled,
and that is its only end. -/
theorem ends_once_on_time_beside :
    beside.ArmsAt .stabilityCheck (.stability ⟨1, false, true⟩) 1000 0 ∧
    beside.firedAt 5 = [(.evaluate, .evaluate .retryValidation)] ∧
    beside.elapsed 1000 0 5 = 400 ∧ beside.elapsed 1000 0 7 = 1000 ∧
    ∀ k, beside.Ends .stabilityCheck (.stability ⟨1, false, true⟩) 0 k ↔ k = 7 := by
  have steady : beside.Steady := by
    unfold Steady
    decide +kernel
  have armed : beside.ArmsAt .stabilityCheck (.stability ⟨1, false, true⟩) 1000 0 :=
    ⟨_, rfl, rfl, by decide +kernel⟩
  obtain ⟨once, -, onTime⟩ := (ends_once_on_time steady).1 _ _ _ _ armed
  have lasts : beside.Lasts .stabilityCheck (.stability ⟨1, false, true⟩) 0 7 := by
    refine ⟨by decide, fun k ends => ?_⟩
    by_contra before
    have at_k := ends
    obtain ⟨hi, -, a, ha, how⟩ := at_k
    have somewhere : k = 1 ∨ k = 2 ∨ k = 3 ∨ k = 4 ∨ k = 5 ∨ k = 6 := by omega
    rcases somewhere with rfl | rfl | rfl | rfl | rfl | rfl
    · cases ha; cases how
    · cases ha; cases how
    · cases ha
      cases how with
      | replaced differs _ => exact differs rfl
    · cases ha; cases how
    · have due := ((onTime 5 rfl).mp ends).2.1
      exact absurd due (by decide +kernel)
    · cases ha; cases how
  have hands : (.stabilityCheck, .stability ⟨1, false, true⟩) ∈ beside.firedAt 7 := by
    decide +kernel
  have ends : beside.Ends .stabilityCheck (.stability ⟨1, false, true⟩) 0 7 :=
    ⟨by decide, (record?_of_lasts armed lasts).2, _, rfl, .fired hands⟩
  refine ⟨armed, by decide +kernel, by decide +kernel, by decide +kernel, fun k => ?_⟩
  constructor
  · exact fun ends' => once _ _ ends' ends
  · intro at7
    exact at7 ▸ ends

end TimerRun

end ModemSelect
