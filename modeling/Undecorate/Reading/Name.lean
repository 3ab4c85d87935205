import Undecorate.Reading.State

/-!
Qualified names. `A@B@C@@` is `C::B::A`; each part that is written out is remembered, and a digit
in the place of a part stands for a remembered name.
-/

namespace Undecorate.Reading

/-- Reads up to the next `@`. -/
def closedName (lexeme : Text → Lexeme) : ReadM Text := fun s =>
  match s.cursor.readUntil? ['@'] with
  | some (name, c) => .ok name (s.pass (lexeme name) c)
  | none => .error (.malformed (.unterminatedName s.rest)) s

def templateBase : ReadM Text := closedName .base

def literalPart : ReadM Text := do
  let name ← closedName .part
  modify fun s => { s with names := s.names.record name }
  pure name

def namePart : ReadM Text := fun s =>
  match s.cursor.digit? with
  | none => literalPart s
  | some (digit, c) =>
    match s.names.resolve? digit with
    | some name => .ok name (s.pass (.reference digit name) c)
    | none => .error (.malformed (.danglingReference digit s.names.size)) { s with cursor := c }

def path : ReadM Path := repeatUntil (accept ['@']) namePart

end Undecorate.Reading
