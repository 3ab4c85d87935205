import Undecorate.Declaration.Declarator

/-!
A symbol is a qualified name with a type.
-/

namespace Undecorate

structure Symbol where
  path : Path
  type : TypeTree

namespace Symbol

def isFunction (s : Symbol) : Bool := s.type.kind.isFunction

/-- Whether the symbol has a type, and not that of a function. -/
def isVariable (s : Symbol) : Bool := !s.isFunction && s.type.kind != .unknown

def convention (s : Symbol) : Option CallingConvention := s.type.node.convention

def functionClass (s : Symbol) : FunctionClass := s.type.node.functionClass

/-- The name in the form `outer::inner`. -/
def qualifiedName (s : Symbol) : Text := layout false (qualified s.path).pieces

/-- The declaration of the symbol. -/
def render (s : Symbol) : Except Fault Text := (s.type.declare s.path).render

end Symbol

end Undecorate
