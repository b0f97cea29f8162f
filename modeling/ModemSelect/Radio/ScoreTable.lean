import ModemSelect.Radio.Access
import ModemSelect.Radio.Signal

namespace ModemSelect

abbrev Scorer := Access → Level → Int

/-- One score for each level, from none to great. -/
abbrev ScoreRow := Vector Int 5

/-- The score rows by class; a class without a row scores 0. -/
structure ScoreTable where
  row : Access → Option ScoreRow

namespace ScoreTable

def empty : ScoreTable := ⟨fun _ => none⟩

def set (table : ScoreTable) (access : Access) (row : ScoreRow) : ScoreTable :=
  ⟨fun r => if r = access then some row else table.row r⟩

def score (table : ScoreTable) : Scorer := fun access level =>
  match table.row access with
  | some row => row[level]
  | none => 0

def standard : ScoreTable where
  row
    | .unknown => none
    | .gsm => some #v[0, 10, 20, 30, 40]
    | .umts => some #v[0, 40, 80, 120, 160]
    | .lte => some #v[0, 100, 200, 300, 400]
    | .lteCa => some #v[0, 150, 250, 350, 450]
    | .nrNsa => some #v[0, 200, 300, 400, 500]
    | .nrNsaMmwave => some #v[0, 300, 500, 700, 900]
    | .nrSa => some #v[0, 250, 350, 450, 550]

inductive RowFault where
  | unknownRat (label : String)
  | wrongLength (label : String) (length : Nat)
  | decreasing (label : String)
  deriving DecidableEq

/-- Scores must not fall from one level to the next. -/
def isRising : List Int → Bool
  | a :: b :: rest => a ≤ b && isRising (b :: rest)
  | _ => true

/-- A written row is checked for its label first, then its length, then its order. -/
def parseRow (label : String) (scores : List Int) : Except RowFault (Access × ScoreRow) :=
  match Access.ofLabel? label with
  | none => .error (.unknownRat label)
  | some access =>
    if h : scores.length = 5 then
      if isRising scores then .ok (access, ⟨scores.toArray, by simpa using h⟩)
      else .error (.decreasing label)
    else .error (.wrongLength label scores.length)

/-- Reads the rows in order: the first fault ends the reading, and of two rows for one class the
later stands. -/
def ofRows (rows : List (String × List Int)) : Except RowFault ScoreTable :=
  rows.foldlM (fun table (label, scores) => do
    let (access, row) ← parseRow label scores
    pure (table.set access row)) empty

theorem set_row (table : ScoreTable) (access r : Access) (row : ScoreRow) :
    (table.set access row).row r = if r = access then some row else table.row r := rfl

theorem score_of_row_none {table : ScoreTable} {access : Access} (h : table.row access = none)
    (level : Level) : table.score access level = 0 := by
  simp [score, h]

end ScoreTable

end ModemSelect
