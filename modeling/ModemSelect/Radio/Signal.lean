namespace ModemSelect

abbrev Level := Fin 5

def Level.none : Level := ⟨0, by omega⟩

/-- Levels above the greatest count as the greatest. -/
def Level.ofNat (n : Nat) : Level := ⟨min n 4, by omega⟩

/-- A signal report: its level and, where the modem measured it, the received power. -/
structure Signal where
  level : Level := Level.none
  rsrpDbm : Option Int := none

def Signal.ofLevel (n : Nat) : Signal := { level := Level.ofNat n }

def Signal.ofRsrp (dbm : Int) : Signal where
  level :=
    if -95 ≤ dbm then 4
    else if -105 ≤ dbm then 3
    else if -115 ≤ dbm then 2
    else if -125 ≤ dbm then 1
    else 0
  rsrpDbm := some dbm

/-- Two reports are the same signal when their levels are; the measured power is only shown. -/
def Signal.same (a b : Signal) : Bool := a.level == b.level

end ModemSelect
