import ModemSelect.Text

namespace ModemSelect

/-- Clock readings and deadlines are words of 64 bits, in milliseconds. -/
def wordMax : Nat := 18446744073709551615

/-- Uptime stands still while the handset sleeps; realtime does not. -/
inductive TimeBase where
  | uptime
  | realtime
  deriving DecidableEq

instance : Named TimeBase where
  all := [.uptime, .realtime]
  name
    | .uptime => "uptime"
    | .realtime => "realtime"

structure Clock where
  uptime : Nat := 0
  realtime : Nat := 0
  deriving DecidableEq

namespace Clock

def now (c : Clock) : TimeBase → Nat
  | .uptime => c.uptime
  | .realtime => c.realtime

/-- Both readings move on, and start over past the last word. -/
def advance (c : Clock) (ms : Nat) : Clock where
  uptime := (c.uptime + ms) % (wordMax + 1)
  realtime := (c.realtime + ms) % (wordMax + 1)

/-- Time passes asleep. -/
def suspend (c : Clock) (ms : Nat) : Clock :=
  { c with realtime := (c.realtime + ms) % (wordMax + 1) }

/-- The moment after a delay, which is never past the last word. -/
def deadline (now delay : Nat) : Nat := min (now + delay) wordMax

/-- Both readings are words. -/
def Fits (c : Clock) : Prop := ∀ base, c.now base ≤ wordMax

theorem fits_advance (c : Clock) (ms : Nat) : (c.advance ms).Fits := by
  intro base
  cases base <;> exact Nat.lt_succ_iff.mp (Nat.mod_lt _ (Nat.succ_pos wordMax))

theorem Fits.suspend {c : Clock} (fits : c.Fits) (ms : Nat) : (c.suspend ms).Fits := by
  intro base
  cases base with
  | uptime => exact fits .uptime
  | realtime => exact Nat.lt_succ_iff.mp (Nat.mod_lt _ (Nat.succ_pos wordMax))

theorem now_advance {c : Clock} {base : TimeBase} {ms : Nat} (room : c.now base + ms ≤ wordMax) :
    (c.advance ms).now base = c.now base + ms := by
  cases base <;> exact Nat.mod_eq_of_lt (Nat.lt_succ_of_le room)

theorem advance_advance (c : Clock) (a b : Nat) : (c.advance a).advance b = c.advance (a + b) := by
  simp only [advance, Nat.mod_add_mod, Nat.add_assoc]

end Clock

end ModemSelect
