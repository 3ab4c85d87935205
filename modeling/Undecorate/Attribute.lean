/-!
What a declaration says of a type besides its kind: qualifiers, the calling convention of a
function, and the access and dispatch of a member function.
-/

namespace Undecorate

structure Qualifiers where
  isConst : Bool := false
  isVolatile : Bool := false
  isFar : Bool := false
  isHuge : Bool := false
  isUnaligned : Bool := false
  isRestrict : Bool := false
deriving DecidableEq

inductive CallingConvention where
  | cdecl | pascal | thiscall | stdcall | fastcall | regcall
deriving DecidableEq

structure FunctionClass where
  isPublic : Bool := false
  isProtected : Bool := false
  isPrivate : Bool := false
  isGlobal : Bool := false
  isStatic : Bool := false
  isVirtual : Bool := false
  isFar : Bool := false
deriving DecidableEq

end Undecorate
