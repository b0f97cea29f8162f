import ModemSelect.Toml.Quoted

namespace ModemSelect.Toml

/-- Underscores stand between digits only; the flag tells whether a digit comes before. -/
def isSpacedAfter (isDigit : Char → Bool) : Bool → List Char → Bool
  | _, [] => true
  | afterDigit, '_' :: rest =>
    afterDigit && rest.head?.any isDigit && isSpacedAfter isDigit false rest
  | _, c :: rest => isSpacedAfter isDigit (isDigit c) rest

def isSpaced (isDigit : Char → Bool) : List Char → Bool := isSpacedAfter isDigit false

def isHexDigit (c : Char) : Bool := (digit? 16 c).isSome

def dropUnderscores (cs : List Char) : List Char := cs.filter (· != '_')

/-- The values of one digit or more. -/
def digits? (base : Nat) (cs : List Char) : Option (List Nat) :=
  if cs.isEmpty then none else cs.mapM (digit? base)

/-- The number that digits and underscores write with the given sign. It is held if it fits a
word of 128 bits, signed or not, which 129 significant digits do in no base. -/
def wholeValue (base : Nat) (sign : Int) (cs : List Char) : Value :=
  match digits? base (dropUnderscores cs) with
  | none => .invalid
  | some ds =>
    let n := sign * ofDigits base ((ds.dropWhile (· = 0)).take 129)
    if -1 <<< 127 ≤ n ∧ n < 1 <<< 128 then .whole n else .invalid

/-- A whole number after the mark of its base. Its digits may be left out, but then it is none. -/
def based? (base : Nat) (cs : List Char) : Option Value :=
  if isSpaced isHexDigit cs && cs.all (fun c => c == '_' || (digit? base c).isSome) then
    some (wholeValue base 1 cs)
  else none

/-- The number that the digits write, times `10 ^ e`, rounds to a finite number of double
precision: it lies below the midpoint of the greatest one and the next power of two, which is a
whole number of 309 digits. -/
def isFinite (ds : List Nat) (e : Int) : Bool :=
  let significant := ds.dropWhile (· = 0)
  let magnitude : Int := significant.length + e
  if significant.isEmpty ∨ magnitude < 309 then true
  else if magnitude > 309 then false
  else
    ofDigits 10 ((significant ++ List.replicate 309 0).take 309) < 1 <<< 1024 - 1 <<< 970

def splitSign : List Char → Int × List Char
  | '+' :: rest => (1, rest)
  | '-' :: rest => (-1, rest)
  | cs => (1, cs)

/-- The size of an exponent; once it has reached 65536, further digits leave it as it is. -/
def exponentSize (ds : List Nat) : Nat :=
  ds.foldl (fun e d => if e < 65536 then e * 10 + d else e) 0

/-- The exponent of a fraction, 0 where there is none. -/
def exponent? : List Char → Option Int
  | [] => some 0
  | _ :: cs =>
    let (sign, body) := splitSign cs
    (digits? 10 body).map fun ds => sign * exponentSize ds

/-- The digits after the point, none where there is no point. -/
def places? : List Char → Option (List Nat)
  | [] => some []
  | _ :: cs => digits? 10 cs

def fraction? (cs : List Char) : Option Value := do
  let (mantissa, exponent) := cs.span fun c => c != 'e' && c != 'E'
  let (units, places) := mantissa.span (· != '.')
  let units ← digits? 10 units
  let places ← places? places
  let exponent ← exponent? exponent
  let finite := isFinite (units ++ places) (exponent - places.length)
  some (if finite then .fraction else .invalid)

def hasLeadingZero : List Char → Bool
  | '0' :: c :: _ => c.isDigit || c == '_'
  | _ => false

/-- A decimal number after its sign. With an underscore after its first digits, a whole number may
go on with anything but spaces, and is then none. -/
def decimal? (sign : Int) (cs : List Char) : Option Value :=
  if cs = ['i', 'n', 'f'] ∨ cs = ['n', 'a', 'n'] then some .fraction
  else if hasLeadingZero cs then none
  else if cs.any fun c => c == '.' || c == 'e' || c == 'E' then
    if isSpaced Char.isDigit cs then fraction? (dropUnderscores cs) else none
  else
    let whole :=
      match cs.dropWhile Char.isDigit with
      | [] => !cs.isEmpty
      | c :: _ => c == '_' && isSpaced isHexDigit cs && !cs.contains ' '
    if whole then some (wholeValue 10 sign cs) else none

def number? : List Char → Option Value
  | '0' :: 'x' :: cs => based? 16 cs
  | '0' :: 'o' :: cs => based? 8 cs
  | '0' :: 'b' :: cs => based? 2 cs
  | cs =>
    let (sign, body) := splitSign cs
    decimal? sign body

end ModemSelect.Toml
