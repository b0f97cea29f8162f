import Mathlib.Algebra.Group.Nat.Defs
import Mathlib.Data.List.DropRight
import ModemSelect.Schedule.Retry

namespace ModemSelect

/-- What a count of failures is told: that one more validation failed, with the limit and the base
delay of the moment, or that it is to start again. -/
inductive RetryAct where
  | fail (limit : UInt32) (base : UInt64)
  | reset

def RetryAnswer.isRetry : RetryAnswer → Bool
  | .retry .. => true
  | .exhausted => false

namespace Retry

def act (r : Retry) : RetryAct → Retry
  | .fail limit base => (r.fail limit.toNat base.toNat).1
  | .reset => r.reset.1

/-- What is to be done about a failure; a reset says nothing of that. -/
def answer (r : Retry) : RetryAct → Option RetryAnswer
  | .fail limit base => some (r.fail limit.toNat base.toNat).2
  | .reset => none

/-- A new count after the given acts. -/
def after (acts : List RetryAct) : Retry := acts.foldl act {}

def answersFrom (r : Retry) : List RetryAct → List (Option RetryAnswer)
  | [] => []
  | a :: acts => r.answer a :: (r.act a).answersFrom acts

/-- What a new count answers to the given acts. -/
def answers (acts : List RetryAct) : List (Option RetryAnswer) := answersFrom {} acts

/-- The answers at the end that are all retries. -/
def retriesSince (answers : List (Option RetryAnswer)) : List (Option RetryAnswer) :=
  answers.rtakeWhile fun answer => answer.any RetryAnswer.isRetry

/-- The `i`-th of a row of failures with one limit and one base delay finds this count. -/
def again (r : Retry) (limit : UInt32) (base : UInt64) : Nat → Retry
  | 0 => r
  | i + 1 => (r.again limit base i).act (.fail limit base)

/-- What a count answers at the given place in its cycle: the limit is met at the end of it. -/
def atPhase (limit base phase : Nat) : RetryAnswer :=
  if phase < limit then .retry (phase + 1) (min (base * 2 ^ phase) wordMax) else .exhausted

theorem after_concat (acts : List RetryAct) (a : RetryAct) :
    after (acts ++ [a]) = (after acts).act a :=
  List.foldl_append

theorem answersFrom_concat (r : Retry) (acts : List RetryAct) (a : RetryAct) :
    r.answersFrom (acts ++ [a]) = r.answersFrom acts ++ [(acts.foldl act r).answer a] := by
  induction acts generalizing r with
  | nil => rfl
  | cons first acts ih =>
    rw [List.cons_append, answersFrom, ih]
    rfl

theorem answers_concat (acts : List RetryAct) (a : RetryAct) :
    answers (acts ++ [a]) = answers acts ++ [(after acts).answer a] :=
  answersFrom_concat {} acts a

section Fail

variable {r : Retry} {limit : Nat} (base : Nat)

theorem fail_of_lt (room : r.failures < limit) :
    r.fail limit base =
      (⟨r.failures + 1⟩, .retry (r.failures + 1) (min (base * 2 ^ r.failures) wordMax)) := by
  rw [fail, if_pos room, backoff_eq, Nat.shiftLeft_eq]

theorem fail_of_le (full : limit ≤ r.failures) : r.fail limit base = (⟨0⟩, .exhausted) :=
  if_neg (Nat.not_lt.mpr full)

end Fail

theorem length_retriesSince_retry (xs : List (Option RetryAnswer)) (attempt delay : Nat) :
    (retriesSince (xs ++ [some (.retry attempt delay)])).length =
      (retriesSince xs).length + 1 := by
  rw [retriesSince, List.rtakeWhile_concat_pos _ _ _ rfl, List.length_append]
  rfl

theorem retriesSince_of_not_retry (xs : List (Option RetryAnswer)) (answer : Option RetryAnswer)
    (h : ¬ answer.any RetryAnswer.isRetry = true) : retriesSince (xs ++ [answer]) = [] :=
  List.rtakeWhile_concat_neg _ _ _ h

theorem failures_after (acts : List RetryAct) :
    (after acts).failures = (retriesSince (answers acts)).length := by
  induction acts using List.reverseRecOn with
  | nil => rfl
  | append_singleton acts a ih =>
    rw [after_concat, answers_concat]
    cases a with
    | reset =>
      rw [answer, retriesSince_of_not_retry _ none (by decide)]
      rfl
    | fail limit base =>
      rw [act, answer]
      rcases Nat.lt_or_ge (after acts).failures limit.toNat with room | full
      · rw [fail_of_lt _ room, length_retriesSince_retry, ← ih]
      · rw [fail_of_le _ full, retriesSince_of_not_retry _ (some .exhausted) (by decide)]
        rfl

/-- The count keeps to its machine word: what counts one more is below a limit. -/
theorem failures_act_lt (r : Retry) (a : RetryAct) : (r.act a).failures < UInt32.size := by
  cases a with
  | reset => exact (by decide : 0 < UInt32.size)
  | fail limit base =>
    rw [act]
    rcases Nat.lt_or_ge r.failures limit.toNat with room | full
    · rw [fail_of_lt _ room]
      exact Nat.lt_of_le_of_lt room limit.toNat_lt_size
    · rw [fail_of_le _ full]
      exact (by decide : 0 < UInt32.size)

theorem failures_after_lt (acts : List RetryAct) : (after acts).failures < UInt32.size := by
  rcases List.eq_nil_or_concat acts with rfl | ⟨before, last, rfl⟩
  · exact (by decide : 0 < UInt32.size)
  · rw [List.concat_eq_append, after_concat]
    exact failures_act_lt _ last

/-- A count past the limit answers as one that has just met it. -/
theorem answer_fail (r : Retry) (limit : UInt32) (base : UInt64) :
    r.answer (.fail limit base) =
      some (atPhase limit.toNat base.toNat (min r.failures limit.toNat)) := by
  rw [answer, atPhase]
  rcases Nat.lt_or_ge r.failures limit.toNat with room | full
  · rw [fail_of_lt _ room, Nat.min_eq_left (Nat.le_of_lt room), if_pos room]
  · rw [fail_of_le _ full, Nat.min_eq_right full, if_neg (Nat.lt_irrefl _)]

theorem failures_act_fail (r : Retry) (limit : UInt32) (base : UInt64) :
    (r.act (.fail limit base)).failures =
      (min r.failures limit.toNat + 1) % (limit.toNat + 1) := by
  rw [act]
  rcases Nat.lt_or_ge r.failures limit.toNat with room | full
  · rw [fail_of_lt _ room, Nat.min_eq_left (Nat.le_of_lt room), Nat.mod_eq_of_lt (by omega)]
  · rw [fail_of_le _ full, Nat.min_eq_right full, Nat.mod_self]

/-- The place in the cycle goes up by one with every failure. -/
theorem failures_again (r : Retry) (limit : UInt32) (base : UInt64) (i : Nat) :
    min (r.again limit base i).failures limit.toNat =
      (min r.failures limit.toNat + i) % (limit.toNat + 1) := by
  induction i with
  | zero => exact (Nat.mod_eq_of_lt (by omega)).symm
  | succ i ih =>
    have small : (min r.failures limit.toNat + (i + 1)) % (limit.toNat + 1) < limit.toNat + 1 :=
      Nat.mod_lt _ (Nat.succ_pos _)
    rw [again, failures_act_fail, ih, Nat.mod_add_mod, Nat.add_assoc]
    exact Nat.min_eq_left (Nat.le_of_lt_succ small)

theorem answer_again (r : Retry) (limit : UInt32) (base : UInt64) (i : Nat) :
    (r.again limit base i).answer (.fail limit base) =
      some (atPhase limit.toNat base.toNat
        ((min r.failures limit.toNat + i) % (limit.toNat + 1))) := by
  rw [answer_fail, failures_again]

/-- Within a cycle each retry comes after the one before it and waits no less. -/
theorem retry_after_retry {limit base phase phase' attempt attempt' delay delay' : Nat}
    (next : phase' = (phase + 1) % (limit + 1))
    (first : atPhase limit base phase = .retry attempt delay)
    (second : atPhase limit base phase' = .retry attempt' delay') :
    attempt' = attempt + 1 ∧ delay ≤ delay' := by
  unfold atPhase at first second
  split at first <;> cases first
  next room =>
    rw [Nat.mod_eq_of_lt (by omega)] at next
    subst next
    split at second <;> cases second
    have doubled : base * 2 ^ phase ≤ base * 2 ^ (phase + 1) :=
      Nat.mul_le_mul_left base (Nat.pow_le_pow_right (by decide) (Nat.le_succ phase))
    exact ⟨rfl, by omega⟩

/-- A count of failures counts the retries since it last started again, and answers a failure with
the next retry and its doubled delay, or by starting again where the limit is met. With one limit
and one base delay its answers go round: a retry up to the limit, each with no less delay than the
one before, then none. -/
theorem counts_and_cycles (acts : List RetryAct) :
    let r := after acts
    r.failures = (retriesSince (answers acts)).length ∧
      r.failures < UInt32.size ∧
      (∀ (limit : UInt32) (base : UInt64),
        let next := r.fail limit.toNat base.toNat
        (next.2 = .exhausted ↔ limit.toNat ≤ r.failures) ∧
        (limit.toNat ≤ r.failures → next.1.failures = 0) ∧
        (r.failures < limit.toNat → ∃ attempt, attempt = r.failures + 1 ∧
          attempt < UInt32.size ∧ next.1.failures = attempt ∧
          next.2 = .retry attempt (min (base.toNat * 2 ^ (attempt - 1)) wordMax))) ∧
      ∀ (limit : UInt32) (base : UInt64) (i : Nat),
        let answer i := (r.again limit base i).answer (.fail limit base)
        answer i = some (atPhase limit.toNat base.toNat
            ((min r.failures limit.toNat + i) % (limit.toNat + 1))) ∧
          answer (i + (limit.toNat + 1)) = answer i ∧
          ∀ attempt delay attempt' delay', answer i = some (.retry attempt delay) →
            answer (i + 1) = some (.retry attempt' delay') →
            attempt' = attempt + 1 ∧ delay ≤ delay' := by
  intro r
  refine ⟨failures_after acts, failures_after_lt acts, fun limit base => ?_,
    fun limit base i => ?_⟩
  · intro next
    rcases Nat.lt_or_ge r.failures limit.toNat with room | full
    · have retried : next = _ := fail_of_lt base.toNat room
      rw [retried]
      have unmet : ¬ limit.toNat ≤ r.failures := Nat.not_le.mpr room
      refine ⟨iff_of_false RetryAnswer.noConfusion unmet, fun full => absurd full unmet, ?_⟩
      intro _
      exact ⟨r.failures + 1, rfl, Nat.lt_of_le_of_lt room limit.toNat_lt_size, rfl, rfl⟩
    · have exhausted : next = _ := fail_of_le base.toNat full
      rw [exhausted]
      exact ⟨iff_of_true rfl full, fun _ => rfl, fun room => absurd full (Nat.not_le.mpr room)⟩
  · intro answer
    refine ⟨answer_again r limit base i, ?_, fun attempt delay attempt' delay' first second => ?_⟩
    · simp only [answer, answer_again]
      rw [← Nat.add_assoc (min _ _), Nat.add_mod_right]
    · simp only [answer, answer_again, Option.some.injEq] at first second
      refine retry_after_retry ?_ first second
      rw [Nat.mod_add_mod, Nat.add_assoc]

end Retry

end ModemSelect
