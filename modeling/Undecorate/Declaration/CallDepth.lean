import Undecorate.Symbol

/-!
How deep the calls of the writer are nested. Each side of a type takes one call, within which the
sides of the types that it is built from are written, and a list of parameters takes one as well.
The calls that may be nested are limited, and a declaration that needs more is broken off. The limit
is one of calls and does not follow from that of reading: the dimensions of an array are read in a
loop, and each of them takes a call to be written.
-/

namespace Undecorate

open Script

/-- How many calls may be nested, counted from the first call of the writer. -/
def callLimit : Nat := 1000

/-- The depth of two parts, of which the second is only come to if no fault cuts the first short. -/
def Script.deeper (first : Script) (depth next : Nat) : Nat :=
  match first.fault with
  | none => max depth next
  | some _ => depth

namespace TypeTree

mutual

/-- How deep the calls are nested that write the left side, up to a fault. -/
def leftDepth : TypeTree → Nat
  | mk node inner args =>
    match node.kind with
    | .function | .pointer | .reference | .array => leftDepthInner inner + 1
    | .tag _ => if args.isEmpty then 1 else paramsDepth args + 1
    | _ => 1

def leftDepthInner : Option TypeTree → Nat
  | none => 0
  | some t => leftDepth t

/-- How deep the calls are nested that write the right side, up to a fault. -/
def rightDepth : TypeTree → Nat
  | mk node inner args =>
    match node.kind with
    | .function => paramsDepth args + 1
    | .pointer | .reference => rightDepthInner inner + 1
    | .array => (bounds node.extent).deeper 0 (rightDepthInner inner) + 1
    | _ => 1

def rightDepthInner : Option TypeTree → Nat
  | none => 0
  | some t => rightDepth t

/-- A list takes a call of its own, also when there is nothing in it. -/
def paramsDepth : List TypeTree → Nat
  | [] => 1
  | t :: ts =>
    (left t).deeper (leftDepth t + 1) ((right t).deeper (rightDepth t + 1) (paramsDepth ts))

end

end TypeTree

namespace Symbol

/-- How deep the calls are nested that write the declaration, up to a fault. -/
def callDepth (s : Symbol) : Nat := s.type.left.deeper s.type.leftDepth s.type.rightDepth

/-- The declaration, if there is room for that many nested calls. -/
def displayWithin (room : Nat) (s : Symbol) : Except Fault Text :=
  if room < s.callDepth then throw .tooDeep else s.render

/-- The declaration as it is given out. -/
def display (s : Symbol) : Except Fault Text := s.displayWithin callLimit

end Symbol

end Undecorate
