import ModemSelect.Toml.Reading

namespace ModemSelect.Toml

/-- How a table came to be: by a header of its own, on the way to one, or by a key with dots. -/
inductive Origin where
  | header
  | passed
  | dotted
  deriving DecidableEq

/-- A value while its document is being read. A table stays open to later statements, as does the
newest of an array of tables; a value that was written out is closed. -/
inductive Node where
  | closed (v : Value)
  | table (origin : Origin) (entries : List (String × Node))
  | tables (newestFirst : List (List (String × Node)))

abbrev Entries := List (String × Node)

namespace Entries

/-- Puts at the key what the function makes of what stands there; it may refuse. -/
def alter (key : String) (f : Option Node → Option Node) : Entries → Option Entries
  | [] => (f none).map fun node => [(key, node)]
  | (k, node) :: rest =>
    if k = key then (f (some node)).map fun node => (k, node) :: rest
    else (alter key f rest).map fun rest => (k, node) :: rest

/-- Goes along the path and changes the table at its end, which is given with its origin. Tables
that are missing are made. By dots no table is entered that has a header of its own. -/
def within (dotted : Bool) (f : Origin → Entries → Option Entries) :
    Path → Origin → Entries → Option Entries
  | [], origin, entries => f origin entries
  | key :: keys, _, entries =>
    alter key (fun
      | none =>
        let origin := if dotted then .dotted else .passed
        (within dotted f keys origin []).map (.table origin)
      | some (.table origin inner) =>
        if dotted && origin == .header then none
        else (within dotted f keys origin inner).map (.table origin)
      | some (.tables (newest :: older)) =>
        (within dotted f keys .header newest).map fun newest => .tables (newest :: older)
      | some _ => none) entries

def add (key : String) (v : Value) (entries : Entries) : Option Entries :=
  alter key (fun
    | none => some (.closed v)
    | some _ => none) entries

/-- Sets a key with dots. The table that its last part goes into must have come from dots as
well. -/
def assign (keys : Path) (v : Value) (origin : Origin) (entries : Entries) : Option Entries :=
  match keys.getLast? with
  | none => none
  | some last =>
    let front := keys.dropLast
    within true (fun origin entries =>
      if (origin == .dotted) == front.isEmpty then none else add last v entries)
      front origin entries

/-- Opens the table of a header; it may have been passed on the way to another, but not had a
header before. -/
def openTable (keys : Path) (entries : Entries) : Option Entries :=
  match keys.getLast? with
  | none => none
  | some last =>
    within false (fun _ entries =>
      alter last (fun
        | none => some (.table .header [])
        | some (.table .passed inner) => some (.table .header inner)
        | some _ => none) entries)
      keys.dropLast .header entries

def openItem (keys : Path) (entries : Entries) : Option Entries :=
  match keys.getLast? with
  | none => none
  | some last =>
    within false (fun _ entries =>
      alter last (fun
        | none => some (.tables [[]])
        | some (.tables tables) => some (.tables ([] :: tables))
        | some _ => none) entries)
      keys.dropLast .header entries

end Entries

mutual

def Node.value : Node → Value
  | .closed v => v
  | .table _ entries => .table (valueEntries entries)
  | .tables newestFirst => .list (valueTables newestFirst).reverse

def valueEntries : List (String × Node) → List (String × Value)
  | [] => []
  | (key, node) :: rest => (key, node.value) :: valueEntries rest

def valueTables : List (List (String × Node)) → List Value
  | [] => []
  | entries :: rest => .table (valueEntries entries) :: valueTables rest

end

end ModemSelect.Toml
