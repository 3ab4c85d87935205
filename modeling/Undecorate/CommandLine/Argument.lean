import Undecorate.Text.Digit

/-!
Arguments of the command line. A long switch may be cut short as long as it is told apart, short
switches may be joined behind one dash, and no switch takes a value. What looks like a switch and
is none still counts as an operand if it is a negative number or has a space in it.
-/

namespace Undecorate.CommandLine

inductive Switch where
  | help
  | passthrough
  | verbose
deriving DecidableEq

def longSwitches : List (Text × Switch) :=
  [("--help".toList, .help),
   ("--passthrough".toList, .passthrough),
   ("--verbose".toList, .verbose)]

def shortSwitch? (c : Char) : Option Switch :=
  if c = 'h' then some .help
  else if c = 'p' then some .passthrough
  else if c = 'v' then some .verbose
  else none

inductive Argument where
  | operand (t : Text)
  /-- Switches in the order given. -/
  | switches (given : List Switch)
  /-- A switch with a value, or joined to something that is no switch. -/
  | misused
  | unknown
  /-- The argument after which all others are operands. -/
  | separator
deriving DecidableEq

def withoutFinalNewline (t : Text) : Text :=
  if t.getLast? = some '\n' then t.dropLast else t

/-- A dash before decimal digits, with or without a point that has a digit after it. A final line
break does not count. -/
def isNegativeNumber : Text → Bool
  | '-' :: t =>
    let digits := withoutFinalNewline t
    match digits.dropWhile isDecimalDigit with
    | [] => !digits.isEmpty
    | '.' :: fraction => !fraction.isEmpty && fraction.all isDecimalDigit
    | _ => false
  | _ => false

/-- An argument that starts with a dash and fits no switch. -/
def unfitting (t : Text) : Argument :=
  if isNegativeNumber t || t.contains ' ' then .operand t else .unknown

/-- The switches that the letters stand for, if all of them stand for one. -/
def joined? : Text → Option (List Switch)
  | [] => some []
  | c :: letters =>
    match shortSwitch? c with
    | some s => (joined? letters).map (s :: ·)
    | none => none

/-- The letters joined to a short switch. An equals sign in front of them does not count. -/
def joinedLetters : Text → Text
  | '=' :: c :: letters => c :: letters
  | letters => letters

/-- An argument with one dash before the letter of a switch. -/
def ofShort (letter : Char) (tail : Text) : Argument :=
  match joined? (letter :: joinedLetters tail) with
  | some given => .switches given
  | none => .misused

/-- An argument with two dashes, or `none` if it fits more than one switch. -/
def ofLong? (t : Text) : Option Argument :=
  let value := Text.cut? ['='] t
  let name := (value.map Prod.fst).getD t
  match longSwitches.filter fun entry => name.isPrefixOf entry.1 with
  | [] => some (unfitting t)
  | [(_, s)] => some (if value.isSome then .misused else .switches [s])
  | _ => none

/-- What an argument is, or `none` if it fits more than one switch. -/
def classify? (t : Text) : Option Argument :=
  match t with
  | ['-', '-'] => some .separator
  | '-' :: '-' :: _ => ofLong? t
  | '-' :: c :: tail =>
    some (if (shortSwitch? c).isSome then ofShort c tail else unfitting t)
  | _ => some (.operand t)

/-- All arguments in order, or `none` if one of them fits more than one switch. -/
def classifyAll? : List Text → Option (List Argument)
  | [] => some []
  | t :: ts =>
    match classify? t with
    | none => none
    | some .separator => some (.separator :: ts.map .operand)
    | some a => (classifyAll? ts).map (a :: ·)

end Undecorate.CommandLine
