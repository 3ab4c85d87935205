import Undecorate.NameTable
import Undecorate.Text.Decimal
import Undecorate.TypeTree.Basic

/-!
The ways in which a decorated name can be malformed. Most of them carry the text that could not
be read.
-/

namespace Undecorate

inductive Malformed where
  | badNumber (rest : Text)
  | unterminatedName (rest : Text)
  | danglingReference (index : Int) (remembered : Nat)
  | unknownFunctionClass (rest : Text)
  | unknownConvention (rest : Text)
  | unknownType (rest : Text)
  | unknownStorage (rest : Text)
  | invalidDimension (n : Int)
  /-- The text ends among the parameters of a function that is pointed to. -/
  | unterminatedParams
  /-- The text ends among the arguments of a template. -/
  | unterminatedArgs (base : Text)
  | nestedTooDeep (rest : Text)
deriving DecidableEq

/-- The deepest nesting of types that is read. -/
def depthLimit : Nat := 128

/-- How much of the text is shown when types are nested too deep. -/
def excerptLength : Nat := 32

def Malformed.message : Malformed → Text
  | badNumber rest => "bad number: ".toList ++ rest
  | unterminatedName rest => "read_string: missing '@': ".toList ++ rest
  | danglingReference index remembered =>
    "name reference ".toList ++ decimal index ++ " is out of range (".toList ++
      decimal remembered ++ " names remembered)".toList
  | unknownFunctionClass rest => "unknown func class: ".toList ++ rest
  | unknownConvention rest => "unknown calling convention: ".toList ++ rest
  | unknownType rest => "unknown primitive type: ".toList ++ rest
  | unknownStorage rest => "unknown storage class: ".toList ++ rest
  | invalidDimension n => "invalid array dimension: ".toList ++ decimal n
  | unterminatedParams => "missing 'Z' after parameters of pointed-to function".toList
  | unterminatedArgs base => "missing '@' after template arguments of ".toList ++ base
  | nestedTooDeep rest =>
    "types nested deeper than ".toList ++ decimal depthLimit ++ " levels: ".toList ++
      rest.take excerptLength

/-- Why no symbol was read. Besides malformed text there is a dimension that is not positive and
too long to be written in a message. The other failures are broken promises of the reader. -/
inductive Failure where
  | malformed (why : Malformed)
  | numberTooLong
  /-- A text was put back that had not just been taken. -/
  | refused (t : Text)
  /-- A new node does not fit its kind. -/
  | misfit (m : Misfit)
  /-- Something was repeated without end. -/
  | endless
deriving DecidableEq

end Undecorate
