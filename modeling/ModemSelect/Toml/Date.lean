import ModemSelect.Toml.Quoted

namespace ModemSelect.Toml

/-- Exactly `count` decimal digits off the front. -/
def fixedDigits (count : Nat) : Reader Nat := fun cs =>
  if cs.length < count then none
  else ((cs.take count).mapM (digit? 10)).map fun ds => (ofDigits 10 ds, cs.drop count)

def isLeapYear (year : Nat) : Bool :=
  year % 4 = 0 && (year % 100 != 0 || year % 400 = 0)

def daysInMonth (year month : Nat) : Nat :=
  if month = 2 then if isLeapYear year then 29 else 28
  else if month ∈ [4, 6, 9, 11] then 30
  else 31

def skip (c : Char) : List Char → Option (List Char)
  | x :: rest => if x = c then some rest else none
  | [] => none

/-- A day of the calendar; what follows it is left. -/
def day (cs : List Char) : Option (List Char) := do
  let (year, cs) ← fixedDigits 4 cs
  let (month, cs) ← fixedDigits 2 (← skip '-' cs)
  let (day, cs) ← fixedDigits 2 (← skip '-' cs)
  if 1 ≤ month ∧ month ≤ 12 ∧ 1 ≤ day ∧ day ≤ daysInMonth year month then some cs else none

/-- The seconds of a time with their fraction; both may be left out. -/
def seconds : List Char → Option (List Char)
  | ':' :: cs => do
    let (second, cs) ← fixedDigits 2 cs
    if 60 < second then none
    else
      match cs with
      | '.' :: c :: cs =>
        if c.isDigit then some (cs.dropWhile (·.isDigit)) else none
      | cs => some cs
  | cs => some cs

def time (cs : List Char) : Option (List Char) := do
  let (hour, cs) ← fixedDigits 2 cs
  let (minute, cs) ← fixedDigits 2 (← skip ':' cs)
  if hour ≤ 23 ∧ minute ≤ 59 then seconds cs else none

/-- The distance from universal time, or nothing. -/
def isOffset : List Char → Bool
  | [] => true
  | ['Z'] => true
  | ['z'] => true
  | sign :: cs =>
    (sign == '+' || sign == '-') &&
      match fixedDigits 2 cs with
      | some (hour, ':' :: cs) =>
        match fixedDigits 2 cs with
        | some (minute, []) => hour ≤ 23 && minute ≤ 59
        | _ => false
      | _ => false

/-- A day, a time, or both with or without an offset. -/
def isDate (cs : List Char) : Bool :=
  match day cs with
  | some [] => true
  | some (c :: rest) =>
    (c == 'T' || c == 't' || c == ' ') &&
      match time rest with
      | some offset => isOffset offset
      | none => false
  | none => time cs == some []

end ModemSelect.Toml
