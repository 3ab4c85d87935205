import Undecorate.Cursor

/-!
Numbers in decorated names. A digit stands for the values one to ten; any other value is a run of
the letters `A` to `P`, which are the digits 0 to 15, closed by `@`. A leading `?` negates.
-/

namespace Undecorate

namespace Numeral

def isLetterDigit (c : Char) : Bool := 'A' ≤ c && c ≤ 'P'

/-- The value of a run of letters, most significant first. The empty run is zero. -/
def ofLetters (run : Text) : Nat := run.foldl (fun n c => 16 * n + (c.toNat - 'A'.toNat)) 0

end Numeral

namespace Cursor

def digit? (c : Cursor) : Option (Nat × Cursor) :=
  match c.take with
  | (some d, after) => if d.isDigit then some (d.toNat - '0'.toNat, after) else none
  | (none, _) => none

def letterRun? (c : Cursor) : Option (Nat × Cursor) :=
  match c.readUntil? ['@'] with
  | some (run, after) =>
    if run.all Numeral.isLetterDigit then some (Numeral.ofLetters run, after) else none
  | none => none

def magnitude? (c : Cursor) : Option (Nat × Cursor) :=
  match c.digit? with
  | some (d, after) => some (d + 1, after)
  | none => c.letterRun?

/-- Reads a number. When there is none, the cursor stays behind the sign. -/
def number (c : Cursor) : Option Int × Cursor :=
  let unsigned := (c.consume? ['?']).getD c
  match unsigned.magnitude? with
  | some (n, after) => (some (if c.startsWith ['?'] then -n else n), after)
  | none => (none, unsigned)

end Cursor

end Undecorate
