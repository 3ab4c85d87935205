import Undecorate.Text.Decimal
import Undecorate.TypeTree.Basic
import Undecorate.Declaration.Script

/-!
Declarations. A declarator wraps around the name it declares: base types, `*` and `&` stand to
its left, parameter lists and array extents to its right. So a type has two scripts, `left` and
`right`, and the name goes in between: a pointer to a function is `int(*` on the left and
`)(int)` on the right.
-/

namespace Undecorate

open Script

/-- The innermost part of a name. A constructor is marked by `?0` and a destructor by `?1`, in
front of the name of its class. -/
def baseName : Text → Text
  | '?' :: '0' :: cls => cls ++ "::".toList ++ cls
  | '?' :: '1' :: cls => cls ++ "::~".toList ++ cls
  | base => base

/-- A qualified name, written outermost scope first. -/
def qualified : Path → Script
  | [] => {}
  | base :: scopes =>
    { pieces := .gap :: (scopes.reverse.map fun scope => .text (scope ++ "::".toList)) ++
        [.text (baseName base)] }

/-- The extent of an array, in brackets. -/
def bounds : Option Int → Script
  | none => text "[None]".toList
  | some n =>
    match decimal? n with
    | some digits => text ('[' :: (digits ++ [']']))
    | none => fail .numberTooLong

def constMark (node : Node) : Script :=
  if node.qualifiers.isConst then gap ++ text "const".toList else {}

/-- The parenthesis around an indirection to `inner`, where one is needed. -/
def paren (inner : Option TypeTree) (mark : Char) : Script :=
  if inner.any (·.kind.bindsTighter) then text [mark] else {}

namespace TypeTree

mutual

/-- What stands to the left of the declared name. -/
def left : TypeTree → Script
  | mk node inner args =>
    match node.kind with
    | .function => leftInner inner
    | .pointer => leftInner inner ++ paren inner '(' ++ text ['*'] ++ constMark node
    | .reference => leftInner inner ++ paren inner '(' ++ text ['&'] ++ constMark node
    | .array => leftInner inner ++ constMark node
    | .tag key =>
      text (key.spelling ++ [' ']) ++ qualified node.path ++
        (if args.isEmpty then {} else text ['<'] ++ params args ++ text ['>']) ++ constMark node
    | .primitive p => text p.spelling ++ constMark node
    | .unknown => constMark node
    | .noReturn => constMark node

def leftInner : Option TypeTree → Script
  | none => fail .missingInner
  | some t => left t

/-- What stands to the right of the declared name. -/
def right : TypeTree → Script
  | mk node inner args =>
    match node.kind with
    | .function => text ['('] ++ params args ++ text [')']
    | .pointer => paren inner ')' ++ rightInner inner
    | .reference => paren inner ')' ++ rightInner inner
    | .array => bounds node.extent ++ rightInner inner
    | _ => {}

def rightInner : Option TypeTree → Script
  | none => fail .missingInner
  | some t => right t

/-- A list of parameters or template arguments, separated by commas. -/
def params : List TypeTree → Script
  | [] => {}
  | t :: ts => left t ++ right t ++ furtherParams ts

def furtherParams : List TypeTree → Script
  | [] => {}
  | t :: ts => text [','] ++ left t ++ right t ++ furtherParams ts

end

/-- The declaration of a name with this type. -/
def declare (t : TypeTree) (path : Path) : Script := left t ++ qualified path ++ right t

/-- The type alone, as a declaration without a name. -/
def render (t : TypeTree) : Except Fault Text := (left t ++ right t).render

end TypeTree

end Undecorate
