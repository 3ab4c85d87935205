import Undecorate.Text.Basic

/-!
The names that a symbol may refer back to: the first ten that are written out in it.
-/

namespace Undecorate

structure NameTable where
  names : List Text := []
deriving DecidableEq

namespace NameTable

def capacity : Nat := 10

def size (t : NameTable) : Nat := t.names.length

/-- Remembers a name, unless the table is full. -/
def record (t : NameTable) (name : Text) : NameTable :=
  if t.size < capacity then { names := t.names ++ [name] } else t

/-- The name with this number. -/
def resolve? (t : NameTable) (i : Int) : Option Text :=
  if 0 ≤ i then t.names[i.toNat]? else none

/-- The name at this place, where negative places count from the end. -/
def get? (t : NameTable) (i : Int) : Option Text :=
  if 0 ≤ i then t.resolve? i else t.resolve? (t.size + i)

end NameTable

end Undecorate
