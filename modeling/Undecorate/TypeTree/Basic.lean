import Undecorate.Kind
import Undecorate.Attribute

/-!
Type trees. A node may carry any combination of attributes; `validate` tells which of them a
declaration can show.
-/

namespace Undecorate

/-- A qualified name, innermost part first. -/
abbrev Path := List Text

/-- What a type tree holds at one place. The serial number tells in which order the nodes of a
tree were made. -/
structure Node where
  kind : Kind := .unknown
  qualifiers : Qualifiers := {}
  convention : Option CallingConvention := none
  functionClass : FunctionClass := {}
  extent : Option Int := none
  path : Path := []
  serial : Nat := 0
deriving DecidableEq

/-- A node with its return type, target or element, and with its parameters or template
arguments in order. -/
inductive TypeTree where
  | mk (node : Node) (inner : Option TypeTree) (args : List TypeTree)

namespace TypeTree

def node : TypeTree → Node
  | mk node _ _ => node

def inner : TypeTree → Option TypeTree
  | mk _ inner _ => inner

def args : TypeTree → List TypeTree
  | mk _ _ args => args

def kind (t : TypeTree) : Kind := t.node.kind

def isConst (t : TypeTree) : Bool := t.node.qualifiers.isConst

/-- A tree of one node. -/
def leaf (node : Node) : TypeTree := mk node none []

mutual

/-- The tree and all trees below it: itself, then its inner tree, then its arguments. -/
def walk : TypeTree → List TypeTree
  | mk node inner args => mk node inner args :: (walkInner inner ++ walkArgs args)

def walkInner : Option TypeTree → List TypeTree
  | none => []
  | some t => walk t

def walkArgs : List TypeTree → List TypeTree
  | [] => []
  | t :: ts => walk t ++ walkArgs ts

end

end TypeTree

/-- An attribute that does not go with the kind of its node. -/
inductive Misfit where
  | inner (kind : Kind)
  | convention (kind : Kind)
  | extent (kind : Kind)
  | path (kind : Kind)
deriving DecidableEq

def Misfit.message : Misfit → Text
  | inner k => "Type ".toList ++ k.label ++ " cannot have an inner type.".toList
  | convention k =>
    "Non-function type ".toList ++ k.label ++ " cannot have a calling convention.".toList
  | extent k => "Non-array type ".toList ++ k.label ++ " cannot have an array extent.".toList
  | path k => "Non-tag type ".toList ++ k.label ++ " cannot have a name.".toList

namespace TypeTree

/-- The first misfit of the topmost node. -/
def misfit? : TypeTree → Option Misfit
  | mk node inner _ =>
    if inner.isSome && !node.kind.hasInner then some (.inner node.kind)
    else if node.convention.isSome && !node.kind.isFunction then some (.convention node.kind)
    else if node.extent.isSome && !node.kind.isArray then some (.extent node.kind)
    else if !node.path.isEmpty && !node.kind.isTag then some (.path node.kind)
    else none

mutual

/-- Looks for a misfit in the inner tree, then in the arguments, and last in the node itself. -/
def validate : TypeTree → Except Misfit Unit
  | mk node inner args => do
    validateInner inner
    validateArgs args
    match misfit? (mk node inner args) with
    | some m => throw m
    | none => pure ()

def validateInner : Option TypeTree → Except Misfit Unit
  | none => pure ()
  | some t => validate t

def validateArgs : List TypeTree → Except Misfit Unit
  | [] => pure ()
  | t :: ts => do
    validate t
    validateArgs ts

end

end TypeTree

end Undecorate
