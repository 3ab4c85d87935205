import Undecorate.Text.Quoted

/-!
A cursor is a place in a text. It moves forward over marks that it finds ahead of it, and the
character taken last can be put back as long as nothing else has been read.
-/

namespace Undecorate

structure Cursor where
  /-- The text passed over, nearest character first. -/
  before : Text := []
  rest : Text
  /-- The character that may be put back. -/
  taken : Option Char := none

namespace Cursor

def ofText (t : Text) : Cursor := { rest := t }

/-- The whole text, wherever the cursor stands in it. -/
def text (c : Cursor) : Text := c.before.reverse ++ c.rest

def position (c : Cursor) : Nat := c.before.length

def atEnd (c : Cursor) : Bool := c.rest.isEmpty

def startsWith (c : Cursor) (mark : Text) : Bool := (Text.behind? mark c.rest).isSome

def peek? (c : Cursor) : Option Char := c.rest.head?

/-- An ASCII digit is next. -/
def atDigit (c : Cursor) : Bool := c.peek?.any Char.isDigit

/-- Moves past a nonempty mark that is next. -/
def consume? (c : Cursor) (mark : Text) : Option Cursor :=
  if mark = [] then none
  else (Text.behind? mark c.rest).map fun rest => { before := mark.reverse ++ c.before, rest }

/-- Moves past one character, which may then be put back. -/
def take (c : Cursor) : Option Char × Cursor :=
  match c.rest with
  | [] => (none, { c with taken := none })
  | x :: rest => (some x, { before := x :: c.before, rest, taken := some x })

/-- Puts back the character taken last. The empty text can always be put back. -/
def putBack? (c : Cursor) : Text → Option Cursor
  | [] => some c
  | [x] =>
    if c.taken = some x then some { before := c.before.tail, rest := x :: c.rest } else none
  | _ => none

/-- Why a text cannot be put back. -/
def refusal (t : Text) : Text :=
  "Cannot push back ".toList ++ t.quoted ++ "; it was not the last char taken.".toList

/-- Moves past the next occurrence of the mark and returns the text before it. -/
def readUntil? (c : Cursor) (mark : Text) : Option (Text × Cursor) :=
  (Text.cut? mark c.rest).map fun (value, rest) =>
    (value, { before := (value ++ mark).reverse ++ c.before, rest })

def describe (c : Cursor) : Text := "Cursor(".toList ++ c.rest.quoted ++ [')']

theorem consume?_eq_some_iff {c d : Cursor} {mark : Text} :
    c.consume? mark = some d ↔
      mark ≠ [] ∧ ∃ rest, c.rest = mark ++ rest ∧
        d = { before := mark.reverse ++ c.before, rest } := by
  by_cases h : mark = []
  · simp [consume?, h]
  · simp only [consume?, h, if_false, Option.map_eq_some_iff, Text.behind?_eq_some_iff]
    simp [eq_comm, h]

@[simp] theorem text_take (c : Cursor) : c.take.2.text = c.text := by
  unfold take
  split <;> simp_all [text]

theorem text_consume? {c d : Cursor} {mark : Text} (h : c.consume? mark = some d) :
    d.text = c.text := by
  obtain ⟨-, rest, hr, rfl⟩ := consume?_eq_some_iff.1 h
  simp [text, hr]

theorem text_readUntil? {c d : Cursor} {mark value : Text}
    (h : c.readUntil? mark = some (value, d)) : d.text = c.text := by
  obtain ⟨⟨v, rest⟩, hc, he⟩ := Option.map_eq_some_iff.1 h
  cases he
  simp [text, Text.eq_of_cut?_eq_some hc]

end Cursor

end Undecorate
