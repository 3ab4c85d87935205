import Undecorate.Text.Basic

/-!
The kinds of nodes in a type tree, with their spellings in a declaration.
-/

namespace Undecorate

inductive Primitive where
  | void | bool | char | signedChar | unsignedChar | short | unsignedShort | int | unsignedInt
  | long | unsignedLong | longLong | unsignedLongLong | wideChar | float | double | longDouble
deriving DecidableEq

/-- The keyword that introduces a named type. -/
inductive TagKey where
  | structKey | unionKey | classKey | enumKey
deriving DecidableEq

/-- `unknown` is the type of a name that is not decorated, `noReturn` the absent return type of a
constructor or destructor. -/
inductive Kind where
  | unknown
  | noReturn
  | function
  | pointer
  | reference
  | array
  | tag (key : TagKey)
  | primitive (p : Primitive)
deriving DecidableEq

def Primitive.spelling : Primitive → Text
  | void => "void".toList
  | bool => "bool".toList
  | char => "char".toList
  | signedChar => "signed char".toList
  | unsignedChar => "unsigned char".toList
  | short => "short".toList
  | unsignedShort => "unsigned short".toList
  | int => "int".toList
  | unsignedInt => "unsigned int".toList
  | long => "long".toList
  | unsignedLong => "unsigned long".toList
  | longLong => "long long".toList
  | unsignedLongLong => "unsigned long long".toList
  | wideChar => "wchar_t".toList
  | float => "float".toList
  | double => "double".toList
  | longDouble => "long double".toList

def TagKey.spelling : TagKey → Text
  | structKey => "struct".toList
  | unionKey => "union".toList
  | classKey => "class".toList
  | enumKey => "enum".toList

namespace Kind

def spelling : Kind → Text
  | unknown => "unknown".toList
  | noReturn => "none".toList
  | function => "function".toList
  | pointer => "*".toList
  | reference => "&".toList
  | array => "[]".toList
  | tag key => key.spelling
  | primitive p => p.spelling

/-- The name by which messages call a kind. -/
def label : Kind → Text
  | unknown => "UNKNOWN".toList
  | noReturn => "NO_RETURN_TYPE".toList
  | function => "FUNCTION".toList
  | pointer => "POINTER".toList
  | reference => "REFERENCE".toList
  | array => "ARRAY".toList
  | tag .structKey => "STRUCT".toList
  | tag .unionKey => "UNION".toList
  | tag .classKey => "CLASS".toList
  | tag .enumKey => "ENUM".toList
  | primitive .void => "VOID".toList
  | primitive .bool => "BOOL".toList
  | primitive .char => "CHAR".toList
  | primitive .signedChar => "SIGNED_CHAR".toList
  | primitive .unsignedChar => "UNSIGNED_CHAR".toList
  | primitive .short => "SHORT".toList
  | primitive .unsignedShort => "UNSIGNED_SHORT".toList
  | primitive .int => "INT".toList
  | primitive .unsignedInt => "UNSIGNED_INT".toList
  | primitive .long => "LONG".toList
  | primitive .unsignedLong => "UNSIGNED_LONG".toList
  | primitive .longLong => "LONG_LONG".toList
  | primitive .unsignedLongLong => "UNSIGNED_LONG_LONG".toList
  | primitive .wideChar => "WIDE_CHAR".toList
  | primitive .float => "FLOAT".toList
  | primitive .double => "DOUBLE".toList
  | primitive .longDouble => "LONG_DOUBLE".toList

def isFunction : Kind → Bool
  | function => true
  | _ => false

def isPointer : Kind → Bool
  | pointer => true
  | _ => false

def isReference : Kind → Bool
  | reference => true
  | _ => false

def isArray : Kind → Bool
  | array => true
  | _ => false

def isTag : Kind → Bool
  | tag _ => true
  | _ => false

def isPrimitive : Kind → Bool
  | primitive _ => true
  | _ => false

/-- Pointers and references. -/
def isIndirection (k : Kind) : Bool := k.isPointer || k.isReference

/-- The kinds built from one inner type: a return type, a target or an element. -/
def hasInner (k : Kind) : Bool := k.isFunction || k.isIndirection || k.isArray

/-- The declarators `()` and `[]` bind tighter than `*` and `&`, so that an indirection to one of
these kinds is parenthesised. -/
def bindsTighter (k : Kind) : Bool := k.isFunction || k.isArray

end Kind

end Undecorate
