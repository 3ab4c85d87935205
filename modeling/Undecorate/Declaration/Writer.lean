import Undecorate.Declaration.Script

/-!
A writer adds scripts to a growing text. It remembers the last character, on which the next gap
depends, and keeps what was written before a fault.
-/

namespace Undecorate

structure Writer where
  written : Text := []
  last : Option Char := none

namespace Writer

/-- Writes a script as far as it goes. -/
def play (w : Writer) (s : Script) : Writer × Option Fault :=
  let t := layout (w.last.any isLetter) s.pieces
  ({ written := w.written ++ t, last := t.getLast?.or w.last }, s.fault)

end Writer

end Undecorate
