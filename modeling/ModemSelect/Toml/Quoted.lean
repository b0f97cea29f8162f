import ModemSelect.Toml.Value

namespace ModemSelect.Toml

/-- The value of a digit in a base of at most sixteen. -/
def digit? (base : Nat) (c : Char) : Option Nat :=
  let v :=
    if '0' ≤ c ∧ c ≤ '9' then c.toNat - 48
    else if 'a' ≤ c ∧ c ≤ 'f' then c.toNat - 87
    else if 'A' ≤ c ∧ c ≤ 'F' then c.toNat - 55
    else base
  if v < base then some v else none

def ofDigits (base : Nat) (digits : List Nat) : Nat := digits.foldl (fun n d => n * base + d) 0

/-- A character that may stand as it is: a tab, or no control character. -/
def isPlain (c : Char) : Bool := c == '\t' || 0x20 ≤ c.toNat && c.toNat != 0x7f

/-- The character with the given code in hexadecimal digits; surrogates are none. -/
def ofHex? (digits : List Char) : Option Char := do
  let code := ofDigits 16 (← digits.mapM (digit? 16))
  if code < 0xd800 ∨ 0xdfff < code ∧ code < 0x110000 then some (Char.ofNat code) else none

def unescape? : Char → Option Char
  | 'b' => some '\x08'
  | 't' => some '\x09'
  | 'n' => some '\x0a'
  | 'f' => some '\x0c'
  | 'r' => some '\x0d'
  | 'e' => some '\x1b'
  | '\x22' => some '\x22'
  | '\x5c' => some '\x5c'
  | _ => none

def consRead (c : Char) (read : Option (List Char × List Char)) :
    Option (List Char × List Char) :=
  read.map fun (s, rest) => (c :: s, rest)

/-- The rest of a basic string, up to its closing quote. -/
def basicBody : Reader (List Char)
  | '\x22' :: rest => some ([], rest)
  | '\x5c' :: 'x' :: a :: b :: rest =>
    (ofHex? [a, b]).bind fun c => consRead c (basicBody rest)
  | '\x5c' :: 'u' :: a :: b :: c :: d :: rest =>
    (ofHex? [a, b, c, d]).bind fun x => consRead x (basicBody rest)
  | '\x5c' :: 'U' :: a :: b :: c :: d :: e :: f :: g :: h :: rest =>
    (ofHex? [a, b, c, d, e, f, g, h]).bind fun x => consRead x (basicBody rest)
  | '\x5c' :: c :: rest => (unescape? c).bind fun x => consRead x (basicBody rest)
  | c :: rest => if isPlain c then consRead c (basicBody rest) else none
  | [] => none

/-- The rest of a literal string, up to its closing quote. -/
def literalBody : Reader (List Char)
  | '\x27' :: rest => some ([], rest)
  | c :: rest => if isPlain c then consRead c (literalBody rest) else none
  | [] => none

def isLineBlank (c : Char) : Bool := c == ' ' || c == '\t'

def endsLine (cs : List Char) : Bool :=
  match cs.dropWhile isLineBlank with
  | '\n' :: _ => true
  | '\x0d' :: '\n' :: _ => true
  | _ => false

/-- The rest of a basic string of several lines, up to three quotes; up to two more belong to the
string. While `joining`, the blanks after a line that ends in a backslash are passed over. -/
def multiBasicBody (joining : Bool) : Reader (List Char)
  | '\x22' :: '\x22' :: '\x22' :: '\x22' :: '\x22' :: rest => some (['\x22', '\x22'], rest)
  | '\x22' :: '\x22' :: '\x22' :: '\x22' :: rest => some (['\x22'], rest)
  | '\x22' :: '\x22' :: '\x22' :: rest => some ([], rest)
  | '\x0d' :: '\n' :: rest =>
    if joining then multiBasicBody true rest else consRead '\n' (multiBasicBody false rest)
  | '\n' :: rest =>
    if joining then multiBasicBody true rest else consRead '\n' (multiBasicBody false rest)
  | '\x5c' :: 'x' :: a :: b :: rest =>
    (ofHex? [a, b]).bind fun c => consRead c (multiBasicBody false rest)
  | '\x5c' :: 'u' :: a :: b :: c :: d :: rest =>
    (ofHex? [a, b, c, d]).bind fun x => consRead x (multiBasicBody false rest)
  | '\x5c' :: 'U' :: a :: b :: c :: d :: e :: f :: g :: h :: rest =>
    (ofHex? [a, b, c, d, e, f, g, h]).bind fun x => consRead x (multiBasicBody false rest)
  | '\x5c' :: c :: rest =>
    if endsLine (c :: rest) then multiBasicBody true rest
    else (unescape? c).bind fun x => consRead x (multiBasicBody false rest)
  | c :: rest =>
    if joining && isLineBlank c then multiBasicBody true rest
    else if isPlain c then consRead c (multiBasicBody false rest)
    else none
  | [] => none

/-- The rest of a literal string of several lines, up to three quotes; up to two more belong to the
string. -/
def multiLiteralBody : Reader (List Char)
  | '\x27' :: '\x27' :: '\x27' :: '\x27' :: '\x27' :: rest => some (['\x27', '\x27'], rest)
  | '\x27' :: '\x27' :: '\x27' :: '\x27' :: rest => some (['\x27'], rest)
  | '\x27' :: '\x27' :: '\x27' :: rest => some ([], rest)
  | '\x0d' :: '\n' :: rest => consRead '\n' (multiLiteralBody rest)
  | c :: rest =>
    if c == '\n' || isPlain c then consRead c (multiLiteralBody rest) else none
  | [] => none

/-- A line end right after the opening quotes is no part of the string. -/
def dropFirstLineEnd : List Char → List Char
  | '\n' :: rest => rest
  | '\x0d' :: '\n' :: rest => rest
  | cs => cs

def quotedLine : Reader String
  | '\x22' :: rest => (basicBody rest).map fun (s, rest) => (String.ofList s, rest)
  | '\x27' :: rest => (literalBody rest).map fun (s, rest) => (String.ofList s, rest)
  | _ => none

/-- A string of either kind, on one line or several. -/
def quoted : Reader String
  | '\x22' :: '\x22' :: '\x22' :: rest =>
    (multiBasicBody false (dropFirstLineEnd rest)).map fun (s, rest) => (String.ofList s, rest)
  | '\x27' :: '\x27' :: '\x27' :: rest =>
    (multiLiteralBody (dropFirstLineEnd rest)).map fun (s, rest) => (String.ofList s, rest)
  | cs => quotedLine cs

end ModemSelect.Toml
