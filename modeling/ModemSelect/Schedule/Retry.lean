import ModemSelect.Schedule.Clock

namespace ModemSelect

/-- The base delay doubled `shift` times, never past the last word. Past 63 doublings of the unit
the word is full. -/
def backoff (base shift : Nat) : Nat :=
  if shift < 64 then min (base <<< shift) wordMax else min (base * wordMax) wordMax

inductive RetryAnswer where
  | retry (attempt delay : Nat)
  | exhausted
  deriving DecidableEq

/-- How many validations in a row have failed and been retried. -/
structure Retry where
  failures : Nat := 0
  deriving DecidableEq

namespace Retry

/-- Retries wait ever longer; when all are used up the count starts again. -/
def fail (r : Retry) (limit base : Nat) : Retry × RetryAnswer :=
  if r.failures < limit then
    (⟨r.failures + 1⟩, .retry (r.failures + 1) (backoff base r.failures))
  else (⟨0⟩, .exhausted)

/-- Starts the count again and tells whether there was anything to forget. -/
def reset (r : Retry) : Retry × Bool := (⟨0⟩, r.failures != 0)

end Retry

theorem backoff_eq (base shift : Nat) : backoff base shift = min (base <<< shift) wordMax := by
  unfold backoff
  split
  · rfl
  next h =>
    rcases Nat.eq_zero_or_pos base with rfl | hb
    · simp
    · have hp : wordMax ≤ 2 ^ shift :=
        Nat.le_trans (by decide : wordMax ≤ 2 ^ 64) (Nat.pow_le_pow_right (by decide) (by omega))
      have h1 : wordMax ≤ base * wordMax := Nat.le_mul_of_pos_left _ hb
      have h2 : wordMax ≤ base <<< shift := by
        rw [Nat.shiftLeft_eq]
        exact Nat.le_trans hp (Nat.le_mul_of_pos_left _ hb)
      rw [Nat.min_eq_right h1, Nat.min_eq_right h2]

end ModemSelect
