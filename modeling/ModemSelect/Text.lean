namespace ModemSelect

/-- A finite type whose values are written by name; `all` lists them in their order. -/
class Named (α : Type) where
  all : List α
  name : α → String

/-- The value written as `text`, if there is one. -/
def Named.ofName? {α : Type} [Named α] (text : String) : Option α :=
  (Named.all : List α).find? fun a => Named.name a == text

/-- The listed values as a set: in their order and without repeats. -/
def Named.distinct {α : Type} [Named α] [DecidableEq α] (xs : List α) : List α :=
  Named.all.filter fun a => xs.contains a

/-- The characters with the Unicode property White_Space. -/
def isBlank (c : Char) : Bool :=
  let n := c.toNat
  (0x09 ≤ n && n ≤ 0x0d) || n == 0x20 || n == 0x85 || n == 0xa0 || n == 0x1680 ||
    (0x2000 ≤ n && n ≤ 0x200a) || n == 0x2028 || n == 0x2029 || n == 0x202f || n == 0x205f ||
    n == 0x3000

/-- The text without the blanks around it. -/
def trimBlanks (text : String) : String :=
  String.ofList ((text.toList.dropWhile isBlank).reverse.dropWhile isBlank).reverse

/-- Whether the text holds nothing but blanks. -/
def isAllBlank (text : String) : Bool :=
  text.toList.all isBlank

end ModemSelect
