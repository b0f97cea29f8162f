namespace ModemSelect

/-- A journal entry and the realtime at which it was made. -/
structure Entry where
  realtime : Nat
  message : String
  deriving DecidableEq

/-- The newest entries, oldest first, at most `capacity` of them. -/
structure Journal where
  capacity : Nat
  entries : List Entry := []
  deriving DecidableEq

namespace Journal

def standardCapacity : Nat := 128

/-- A journal keeps at least one entry. -/
def ofCapacity (capacity : Nat) : Journal := { capacity := max capacity 1 }

def standard : Journal := ofCapacity standardCapacity

/-- A full journal drops its oldest entry. -/
def push (j : Journal) (entry : Entry) : Journal :=
  let kept := if j.entries.length = j.capacity then j.entries.drop 1 else j.entries
  { j with entries := kept ++ [entry] }

def size (j : Journal) : Nat := j.entries.length

def isEmpty (j : Journal) : Bool := j.entries.isEmpty

def first? (j : Journal) : Option Entry := j.entries.head?

def last? (j : Journal) : Option Entry := j.entries.getLast?

@[simp] theorem last?_push (j : Journal) (entry : Entry) :
    (j.push entry).last? = some entry := by
  simp [last?, push]

end Journal

end ModemSelect
