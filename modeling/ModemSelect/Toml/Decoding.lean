import ModemSelect.Text
import ModemSelect.Toml.Document

namespace ModemSelect.Toml

/-- Makes something of a value, or refuses it. -/
abbrev Decoder (α : Type) := Value → Option α

def truth : Decoder Bool
  | .truth b => some b
  | _ => none

def text : Decoder String
  | .text s => some s
  | _ => none

/-- Whole numbers from `low` up to, but not including, `high`. -/
def wholeIn (low high : Int) : Decoder Int
  | .whole n => if low ≤ n ∧ n < high then some n else none
  | _ => none

def signed (bits : Nat) : Decoder Int := wholeIn (-1 <<< (bits - 1)) (1 <<< (bits - 1))

def unsigned (bits : Nat) : Decoder Nat := fun v => (wholeIn 0 (1 <<< bits) v).map Int.toNat

def listOf {α : Type} (item : Decoder α) : Decoder (List α)
  | .list items => items.mapM item
  | _ => none

/-- A named value: its name, or a table with the name as its only key and nothing in it. -/
def choice {α : Type} [Named α] : Decoder α
  | .text s => Named.ofName? s
  | .table [(name, .table [])] => Named.ofName? name
  | _ => none

/-- A named value for which the table may also hold an empty list. -/
def looseChoice {α : Type} [Named α] : Decoder α
  | .table [(name, .list [])] => Named.ofName? name
  | v => choice v

/-- The values of a record by their keys. -/
abbrev Fields := List (String × Value)

def Value.isReadable : Value → Bool :=
  Value.every fun
    | .invalid => false
    | _ => true

/-- A record with the given keys is a table, or a list of their values in this order; a date is a
record without any of them. What else a table holds must be readable, while a list may go on with
anything. -/
def fields? (keys : List String) : Decoder Fields
  | .table entries =>
    if entries.all fun (key, v) => keys.contains key || v.isReadable then some entries else none
  | .list items => some (keys.zip items)
  | .date => some []
  | _ => none

namespace Fields

variable {α : Type}

def required (f : Fields) (key : String) (decode : Decoder α) : Option α :=
  (f.lookup key).bind decode

def optional (f : Fields) (key : String) (decode : Decoder α) : Option (Option α) :=
  match f.lookup key with
  | none => some none
  | some v => (decode v).map some

def withDefault (f : Fields) (key : String) (decode : Decoder α) (default : α) : Option α :=
  (f.optional key decode).map (·.getD default)

end Fields

/-- All whole numbers in the value fit a word of 64 bits, signed or not. -/
def Value.fitsWord : Value → Bool :=
  Value.every fun
    | .whole n => -1 <<< 63 ≤ n && n < 1 <<< 64
    | .invalid => false
    | _ => true

end ModemSelect.Toml
