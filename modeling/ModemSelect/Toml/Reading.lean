import ModemSelect.Toml.Date
import ModemSelect.Toml.Number

namespace ModemSelect.Toml

/-- A key with dots between its parts. -/
abbrev Path := List String

def dropBlanks (cs : List Char) : List Char := cs.dropWhile isLineBlank

/-- Passes over a comment to the end of its line; control characters are refused. -/
def dropComment : List Char → Option (List Char)
  | '\n' :: rest => some ('\n' :: rest)
  | '\x0d' :: '\n' :: rest => some ('\x0d' :: '\n' :: rest)
  | c :: rest => if isPlain c then dropComment rest else none
  | [] => some []

/-- Passes over blanks, line ends and comments, from inside a comment or from outside of any. -/
def gapFrom : Bool → List Char → Option (List Char)
  | _, [] => some []
  | _, '\n' :: rest => gapFrom false rest
  | _, '\x0d' :: '\n' :: rest => gapFrom false rest
  | true, c :: rest => if isPlain c then gapFrom true rest else none
  | false, ' ' :: rest => gapFrom false rest
  | false, '\t' :: rest => gapFrom false rest
  | false, '#' :: rest => gapFrom true rest
  | false, c :: rest => some (c :: rest)

def gap : List Char → Option (List Char) := gapFrom false

/-- Passes over what may follow a statement on its line. -/
def lineEnd (cs : List Char) : Option (List Char) := do
  let cs ← match dropBlanks cs with
    | '#' :: rest => dropComment rest
    | rest => some rest
  match cs with
  | [] => some []
  | '\n' :: rest => some rest
  | '\x0d' :: '\n' :: rest => some rest
  | _ => none

def isBare (c : Char) : Bool := c.isAlphanum || c == '_' || c == '-'

def keyPart : Reader String := fun cs =>
  match cs.span isBare with
  | ([], rest) => quotedLine rest
  | (part, rest) => some (String.ofList part, rest)

/-- How deep values may be nested, and how many parts a key may have. -/
def depthLimit : Nat := 80

def pathWithin : Nat → Reader Path
  | 0, _ => none
  | parts + 1, cs => do
    let (part, cs) ← keyPart (dropBlanks cs)
    match dropBlanks cs with
    | '.' :: rest =>
      let (path, rest) ← pathWithin parts rest
      some (part :: path, rest)
    | rest => some ([part], rest)

def path : Reader Path := pathWithin depthLimit

def endsWord (c : Char) : Bool :=
  c ∈ ['=', ',', '[', ']', '\x7b', '\x7d', '#', '\x0d', '\n']

/-- The word in front. It goes on over blanks if more of a word follows them, as between a day and
a time; after blanks a quote begins a string. -/
def wordFrom (afterBlank : Bool) : List Char → List Char × List Char
  | [] => ([], [])
  | c :: rest =>
    if isLineBlank c then
      let (w, after) := wordFrom true rest
      if w.isEmpty then ([], c :: rest) else (c :: w, after)
    else if endsWord c || afterBlank && (c == '\x22' || c == '\x27') then ([], c :: rest)
    else
      let (w, after) := wordFrom false rest
      (c :: w, after)

def ofWord? (w : List Char) : Option Value :=
  if w = ['t', 'r', 'u', 'e'] then some (.truth true)
  else if w = ['f', 'a', 'l', 's', 'e'] then some (.truth false)
  else if isDate w then some .date
  else number? w

def scalar : Reader Value
  | '\x22' :: rest => (quoted ('\x22' :: rest)).map fun (s, rest) => (.text s, rest)
  | '\x27' :: rest => (quoted ('\x27' :: rest)).map fun (s, rest) => (.text s, rest)
  | cs =>
    let (w, rest) := wordFrom false cs
    (ofWord? w).map fun v => (v, rest)

/-- The items of a list up to its closing bracket, at most so many. A comma may follow the last
one. -/
def listItems (item : Reader Value) : Nat → Reader (List Value)
  | 0, _ => none
  | fuel + 1, cs => do
    match ← gap cs with
    | ']' :: rest => some ([], rest)
    | cs =>
      let (v, cs) ← item cs
      match ← gap cs with
      | ',' :: rest =>
        let (vs, rest) ← listItems item fuel rest
        some (v :: vs, rest)
      | ']' :: rest => some ([v], rest)
      | _ => none

/-- A key, an equals sign and a value, with what `skip` passes over around the sign. -/
def assignment (skip : List Char → Option (List Char)) (item : Reader Value) :
    Reader (Path × Value) := fun cs => do
  let (keys, cs) ← path cs
  match ← skip cs with
  | '=' :: rest =>
    let (v, rest) ← item (← skip rest)
    some ((keys, v), rest)
  | _ => none

/-- The entries of a table in braces up to the closing one, at most so many. A comma may follow the
last one. -/
def tableItems (item : Reader Value) : Nat → Reader (List (Path × Value))
  | 0, _ => none
  | fuel + 1, cs => do
    match ← gap cs with
    | '\x7d' :: rest => some ([], rest)
    | cs =>
      let (entry, cs) ← assignment gap item cs
      match ← gap cs with
      | ',' :: rest =>
        let (entries, rest) ← tableItems item fuel rest
        some (entry :: entries, rest)
      | '\x7d' :: rest => some ([entry], rest)
      | _ => none

end ModemSelect.Toml
