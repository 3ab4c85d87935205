import Undecorate.Numeral
import Undecorate.Malformed
import Undecorate.Code
import Undecorate.TypeTree.Basic

/-!
The state in which a decorated name is read, and the steps that reading is made of. Every step
either moves the cursor past one lexeme or leaves it in place. A failure keeps the state in which
it arose.
-/

namespace Undecorate.Reading

/-- A piece of a decorated name that is read at once. -/
inductive Lexeme where
  | code (spelling : Text)
  /-- The number of extents of an array. -/
  | dimension (spelling : Text) (n : Int)
  /-- A part of a name, which is remembered. -/
  | part (name : Text)
  /-- The name of a template, which is not remembered. -/
  | base (name : Text)
  /-- A digit that stands for a remembered name. -/
  | reference (digit : Nat) (name : Text)
deriving DecidableEq

namespace Lexeme

def spelled : Lexeme → Text
  | code spelling => spelling
  | dimension spelling _ => spelling
  | part name => name ++ ['@']
  | base name => name ++ ['@']
  | reference digit _ => [Nat.digitChar digit]

/-- The lexeme without its reference: a remembered name is written out again. -/
def expanded : Lexeme → Text
  | reference _ name => name ++ ['@']
  | l => l.spelled

end Lexeme

structure State where
  cursor : Cursor
  names : NameTable := {}
  /-- How many types the one being read is nested in, itself included. -/
  depth : Nat := 0
  /-- How many nodes have been numbered. -/
  issued : Nat := 0
  /-- What has been read, latest first. -/
  lexemes : List Lexeme := []

namespace State

def start (t : Text) : State := { cursor := .ofText t }

def rest (s : State) : Text := s.cursor.rest

/-- The state after a lexeme, with the cursor moved past it. -/
def pass (s : State) (l : Lexeme) (c : Cursor) : State :=
  { s with cursor := c, lexemes := l :: s.lexemes }

/-- The text between the cursor and a later place. -/
def upTo (s : State) (c : Cursor) : Text := s.rest.take (s.rest.length - c.rest.length)

end State

abbrev ReadM := EStateM Failure State

variable {α β : Type}

theorem bind_eq_ok_iff {x : ReadM α} {f : α → ReadM β} {s u : State} {b : β} :
    (x >>= f) s = .ok b u ↔ ∃ a t, x s = .ok a t ∧ f a t = .ok b u := by
  change EStateM.bind x f s = .ok b u ↔ _
  unfold EStateM.bind
  cases x s with
  | ok a t => exact ⟨fun h => ⟨a, t, rfl, h⟩, fun ⟨_, _, ha, h⟩ => by cases ha; exact h⟩
  | error e t => simp

/-- Fails at the text that comes next. -/
def malformed (why : Text → Malformed) : ReadM α := fun s =>
  .error (.malformed (why s.rest)) s

def exhausted : ReadM Bool := fun s => .ok s.cursor.atEnd s

def upcoming (mark : Text) : ReadM Bool := fun s => .ok (s.cursor.startsWith mark) s

/-- Reads the mark if it comes next. -/
def accept (mark : Text) : ReadM Bool := fun s =>
  match s.cursor.consume? mark with
  | some c => .ok true (s.pass (.code mark) c)
  | none => .ok false s

/-- Reads a code of the table if one comes next. -/
def code (table : CodeTable α) : ReadM (Option α) := fun s =>
  match table.ahead? s.rest with
  | some (spelling, value) => (accept spelling).map (fun _ => some value) s
  | none => .ok none s

/-- Takes the next character if it is a letter of the table, and puts it back if it is none. -/
def letter (table : LetterTable α) : ReadM (Option α) := fun s =>
  let (taken, c) := s.cursor.take
  match taken.bind fun x => table.lookup x with
  | some value => .ok (some value) (s.pass (.code taken.toList) c)
  | none =>
    match c.putBack? taken.toList with
    | some c => .ok none { s with cursor := c }
    | none => .error (.refused taken.toList) { s with cursor := c }

/-- Reads a number as the lexeme that its spelling and value make. -/
def numeralAs (lexeme : Text → Int → Lexeme) : ReadM Int := fun s =>
  match s.cursor.number with
  | (some n, c) => .ok n (s.pass (lexeme (s.upTo c) n) c)
  | (none, c) => .error (.malformed (.badNumber c.rest)) (s.pass (.code (s.upTo c)) c)

def numeral : ReadM Int := numeralAs fun spelling _ => .code spelling

/-- Repeats a step until `stop` holds, at most `fuel` times. -/
def repeatWithin (stop : ReadM Bool) (step : ReadM α) : Nat → ReadM (List α)
  | 0 => throw .endless
  | fuel + 1 => do
    if ← stop then pure []
    else do
      let a ← step
      let as ← repeatWithin stop step fuel
      pure (a :: as)

/-- Repeats a step until `stop` holds. A step that always moves the cursor cannot be repeated more
often than there are characters left. -/
def repeatUntil (stop : ReadM Bool) (step : ReadM α) : ReadM (List α) := fun s =>
  repeatWithin stop step (s.rest.length + 1) s

def repeatTimes (step : ReadM α) : Nat → ReadM (List α)
  | 0 => pure []
  | n + 1 => do
    let a ← step
    let as ← repeatTimes step n
    pure (a :: as)

/-- One level deeper in the nesting of types, down to the limit. -/
def nested (body : ReadM α) : ReadM α := do
  modify fun s => { s with depth := s.depth + 1 }
  if depthLimit < (← get).depth then malformed .nestedTooDeep
  else do
    let a ← body
    modify fun s => { s with depth := s.depth - 1 }
    pure a

/-- A numbered place for a type whose qualifiers are written in front of it. -/
structure Slot where
  serial : Nat
  qualifiers : Qualifiers

/-- Numbers the next node, which has nothing but its kind so far. -/
def issue (kind : Kind) (qualifiers : Qualifiers) : ReadM Slot := fun s =>
  match (TypeTree.leaf { kind, serial := s.issued }).misfit? with
  | some m => .error (.misfit m) s
  | none => .ok { serial := s.issued, qualifiers } { s with issued := s.issued + 1 }

def Slot.node (slot : Slot) (kind : Kind) : Node :=
  { kind, qualifiers := slot.qualifiers, serial := slot.serial }

end Undecorate.Reading
