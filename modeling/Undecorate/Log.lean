import Undecorate.Decoder

/-!
The log of reading a symbol: that it begins, what is announced by its heading, and that the text
is malformed.
-/

namespace Undecorate

inductive Event where
  | begun (t : Text)
  | announced (h : Reading.Heading)
  | failed (t : Text) (why : Malformed)

namespace Event

def message : Event → Text
  | begun t => "demangling ".toList ++ t.quoted
  | announced (.identifier _) => "not a mangled symbol, keeping it as an identifier".toList
  | announced (.decorated .variable p) => "variable ".toList ++ Text.quotedList p
  | announced (.decorated .freeFunction p) => "free function ".toList ++ Text.quotedList p
  | announced (.decorated .memberFunction p) => "member function ".toList ++ Text.quotedList p
  | failed t why => "failed to demangle ".toList ++ t.quoted ++ ": ".toList ++ why.message

/-- An event as a line of the log. -/
def line (e : Event) : Text :=
  "DEBUG msvc_demangler.demangler: ".toList ++ e.message ++ ['\n']

/-- The failure, if the text is malformed. -/
def ofFailure (t : Text) : Failure → List Event
  | .malformed why => [.failed t why]
  | _ => []

end Event

/-- What happens while a text is read. -/
def events (t : Text) : List Event :=
  .begun t ::
    match Reading.heading (.start t) with
    | .error f _ => Event.ofFailure t f
    | .ok h s =>
      .announced h ::
        match Reading.body h s with
        | .error f _ => Event.ofFailure t f
        | .ok _ _ => []

/-- The log of reading a text. -/
def logOf (t : Text) : Text := (events t).flatMap Event.line

end Undecorate
