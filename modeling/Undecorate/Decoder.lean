import Undecorate.Reading.Symbol

/-!
Reading whole symbols. A decoder can be used again and again: it starts afresh with every text,
whatever the last one left behind.
-/

namespace Undecorate

/-- What reading the last symbol left behind. -/
structure Decoder where
  state : Reading.State := .start []

namespace Decoder

/-- The state in which the next text is read. -/
def restart (d : Decoder) (t : Text) : Reading.State :=
  { d.state with cursor := .ofText t, names := {}, depth := 0, issued := 0, lexemes := [] }

def parse (d : Decoder) (t : Text) : Except Failure Symbol × Decoder :=
  match Reading.symbol (d.restart t) with
  | .ok s state => (.ok s, { state })
  | .error f state => (.error f, { state })

/-- Reads one symbol after the other. -/
def parseAll (d : Decoder) : List Text → List (Except Failure Symbol)
  | [] => []
  | t :: ts => (d.parse t).1 :: (d.parse t).2.parseAll ts

end Decoder

/-- The symbol that a text stands for. -/
def parse (t : Text) : Except Failure Symbol := (Decoder.parse {} t).1

end Undecorate
