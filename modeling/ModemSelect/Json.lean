namespace ModemSelect

/-- A value of the report format; members keep the order in which they are written. -/
inductive Json where
  | null
  | bool (b : Bool)
  | num (n : Int)
  | str (s : String)
  | arr (items : List Json)
  | obj (members : List (String × Json))

namespace Json

def ofNat (n : Nat) : Json := .num n

def ofOption {α : Type} (f : α → Json) : Option α → Json
  | none => .null
  | some a => f a

def ofList {α : Type} (f : α → Json) (xs : List α) : Json := .arr (xs.map f)

def nats (xs : List Nat) : Json := ofList ofNat xs

private def hexDigit (n : Nat) : Char :=
  Char.ofNat (if n < 10 then 48 + n else 87 + n)

/-- Quotes, backslashes and the characters below the space are escaped; all others stand as
they are. -/
def escape (c : Char) : List Char :=
  let n := c.toNat
  if n == 0x22 || n == 0x5c then ['\x5c', c]
  else if n == 0x08 then ['\x5c', 'b']
  else if n == 0x09 then ['\x5c', 't']
  else if n == 0x0a then ['\x5c', 'n']
  else if n == 0x0c then ['\x5c', 'f']
  else if n == 0x0d then ['\x5c', 'r']
  else if n < 0x20 then ['\x5c', 'u', '0', '0', hexDigit (n / 16), hexDigit (n % 16)]
  else [c]

def quote (s : String) : String :=
  String.ofList ('\x22' :: s.toList.flatMap escape ++ ['\x22'])

mutual

/-- The form without blanks. -/
def compact : Json → String
  | .null => "null"
  | .bool b => if b then "true" else "false"
  | .num n => toString n
  | .str s => quote s
  | .arr items => "[" ++ ",".intercalate (compactItems items) ++ "]"
  | .obj members => "\x7b" ++ ",".intercalate (compactMembers members) ++ "\x7d"

def compactItems : List Json → List String
  | [] => []
  | v :: rest => v.compact :: compactItems rest

def compactMembers : List (String × Json) → List String
  | [] => []
  | (k, v) :: rest => (quote k ++ ":" ++ v.compact) :: compactMembers rest

end

private def indented (depth : Nat) (lines : List String) : String :=
  let margin := "\n" ++ "".pushn ' ' (2 * (depth + 1))
  margin ++ ("," ++ margin).intercalate lines ++ "\n" ++ "".pushn ' ' (2 * depth)

mutual

/-- The form with one item a line, two spaces for each level. -/
def prettyAt (depth : Nat) : Json → String
  | .arr (v :: rest) => "[" ++ indented depth (prettyItems (depth + 1) (v :: rest)) ++ "]"
  | .obj (m :: rest) =>
    "\x7b" ++ indented depth (prettyMembers (depth + 1) (m :: rest)) ++ "\x7d"
  | v => v.compact

def prettyItems (depth : Nat) : List Json → List String
  | [] => []
  | v :: rest => v.prettyAt depth :: prettyItems depth rest

def prettyMembers (depth : Nat) : List (String × Json) → List String
  | [] => []
  | (k, v) :: rest => (quote k ++ ": " ++ v.prettyAt depth) :: prettyMembers depth rest

end

def pretty (v : Json) : String := v.prettyAt 0

end Json

end ModemSelect
