import Undecorate.Declaration.CallDepth
import Undecorate.Decoder

/-!
Outcomes of decoding, in which a malformed text is an answer and not an error.
-/

namespace Undecorate

inductive Outcome where
  | success (s : Symbol)
  | refusal (message : Text)

namespace Outcome

/-- An outcome has a symbol or a message, and not both. The empty message is none. -/
def ofParts? : Option Symbol → Text → Option Outcome
  | some s, [] => some (.success s)
  | none, c :: message => some (.refusal (c :: message))
  | _, _ => none

/-- Why two parts make no outcome. -/
def partsMisfit : Text := "A result must have either a symbol or an error, not both.".toList

def symbol? : Outcome → Option Symbol
  | success s => some s
  | refusal _ => none

def message : Outcome → Text
  | success _ => []
  | refusal message => message

def isOk (o : Outcome) : Bool := o.message.isEmpty

def render : Outcome → Except Fault Text
  | success s => s.display
  | refusal message => pure message

end Outcome

/-- What breaks decoding off: a failure that is no malformed text, a type that cannot be written,
or parts that make no outcome. -/
inductive Breakdown where
  | reading (f : Failure)
  | writing (f : Fault)
  | parts
deriving DecidableEq

/-- The outcome of these parts, if they make one. -/
def Outcome.ofParts (s : Option Symbol) (message : Text) : Except Breakdown Outcome :=
  match ofParts? s message with
  | some o => pure o
  | none => throw .parts

/-- Reads a symbol and keeps the message if the text is malformed. -/
def decode (t : Text) : Except Breakdown Outcome :=
  match parse t with
  | .ok s => Outcome.ofParts (some s) []
  | .error (.malformed why) => Outcome.ofParts none why.message
  | .error f => throw (.reading f)

/-- The declaration that a text stands for, or the text itself if it is malformed or a number in
it is too long. -/
def undecorate (t : Text) : Except Breakdown Text :=
  match parse t with
  | .ok s =>
    match s.display with
    | .ok declaration => pure declaration
    | .error .numberTooLong => pure t
    | .error f => throw (.writing f)
  | .error (.malformed _) => pure t
  | .error .numberTooLong => pure t
  | .error f => throw (.reading f)

end Undecorate
