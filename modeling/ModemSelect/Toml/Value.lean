namespace ModemSelect.Toml

/-- A value read from TOML. Of fractions and dates only their kind is kept; a number that is
written well but is none that can be held is `invalid`, and is refused only where it is used. -/
inductive Value where
  | text (s : String)
  | whole (n : Int)
  | fraction
  | invalid
  | truth (b : Bool)
  | date
  | list (items : List Value)
  | table (entries : List (String × Value))

mutual

/-- All values in a value that are no lists and no tables pass the test. -/
def Value.every (test : Value → Bool) : Value → Bool
  | .list items => everyItem test items
  | .table entries => everyEntry test entries
  | v => test v

def everyItem (test : Value → Bool) : List Value → Bool
  | [] => true
  | v :: rest => v.every test && everyItem test rest

def everyEntry (test : Value → Bool) : List (String × Value) → Bool
  | [] => true
  | (_, v) :: rest => v.every test && everyEntry test rest

end

/-- Reads something off the front of a text and gives what follows it; `none` refuses the text. -/
abbrev Reader (α : Type) := List Char → Option (α × List Char)

end ModemSelect.Toml
