import ModemSelect.Toml.Tree

namespace ModemSelect.Toml

def inlineTable? (entries : List (Path × Value)) : Option Value :=
  let table := entries.foldlM (fun (table : Entries) (keys, v) =>
    Entries.assign keys v .header table) []
  table.map fun entries => .table (valueEntries entries)

/-- A value in which lists and tables are nested at most `depth` deep and have less than `room`
items each. -/
def value (room : Nat) : Nat → Reader Value
  | 0 => fun cs =>
    match cs with
    | '[' :: _ => none
    | '\x7b' :: _ => none
    | cs => scalar cs
  | depth + 1 => fun cs =>
    match cs with
    | '[' :: rest =>
      (listItems (value room depth) room rest).map fun (vs, rest) => (.list vs, rest)
    | '\x7b' :: rest => do
      let (entries, rest) ← tableItems (value room depth) room rest
      let table ← inlineTable? entries
      some (table, rest)
    | cs => scalar cs

inductive Statement where
  | assign (keys : Path) (v : Value)
  | header (keys : Path)
  | itemHeader (keys : Path)

def statement (room : Nat) : Reader Statement
  | '[' :: '[' :: rest => do
    let (keys, rest) ← path rest
    match rest with
    | ']' :: ']' :: rest => some (.itemHeader keys, rest)
    | _ => none
  | '[' :: rest => do
    let (keys, rest) ← path rest
    match rest with
    | ']' :: rest => some (.header keys, rest)
    | _ => none
  | cs => do
    let ((keys, v), rest) ← assignment (some ∘ dropBlanks) (value room depthLimit) cs
    some (.assign keys v, rest)

/-- The document read so far: its tree and the header that assignments are under. -/
structure Document where
  root : Entries := []
  header : Path := []

def Document.take (d : Document) : Statement → Option Document
  | .assign keys v =>
    (Entries.within false (Entries.assign keys v) d.header .header d.root).map fun root =>
      { d with root }
  | .header keys => (Entries.openTable keys d.root).map fun root => ⟨root, keys⟩
  | .itemHeader keys => (Entries.openItem keys d.root).map fun root => ⟨root, keys⟩

/-- Reads statements to the end; each takes a character at least. -/
def Document.readWithin (room : Nat) : Nat → Document → List Char → Option Document
  | 0, _, _ => none
  | fuel + 1, d, cs => do
    match ← gap cs with
    | [] => some d
    | cs =>
      let (s, cs) ← statement room cs
      let d ← d.take s
      readWithin room fuel d (← lineEnd cs)

/-- A mark of the byte order in front of a text is no part of it. -/
def dropByteOrderMark : List Char → List Char
  | '\ufeff' :: rest => rest
  | cs => cs

/-- The entries of a document, if the text is one. It has fewer statements, and no more items in
any value, than characters and one. -/
def parse (text : String) : Option Value := do
  let cs := dropByteOrderMark text.toList
  let room := cs.length + 1
  let d ← Document.readWithin room room {} cs
  some (.table (valueEntries d.root))

end ModemSelect.Toml
