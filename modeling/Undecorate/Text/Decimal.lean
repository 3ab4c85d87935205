import Undecorate.Text.Basic

/-!
Decimal text of integers, for numbers of at most 4300 digits.
-/

namespace Undecorate

/-- The most digits, sign not counted, that a number may have to be written in decimal. -/
def digitLimit : Nat := 4300

def decimal (n : Int) : Text :=
  if n < 0 then '-' :: Nat.toDigits 10 n.natAbs else Nat.toDigits 10 n.natAbs

/-- The decimal text of a number that keeps to the limit. -/
def decimal? (n : Int) : Option Text :=
  if (Nat.toDigits 10 n.natAbs).length ≤ digitLimit then some (decimal n) else none

end Undecorate
