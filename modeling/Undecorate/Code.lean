import Undecorate.Kind
import Undecorate.Attribute

/-!
The code tables of decorated names.
-/

namespace Undecorate

/-- Codes with their meanings. The first code that fits is taken, so a code stands before its own
beginnings. -/
abbrev CodeTable (α : Type) := List (Text × α)

/-- The code that the text starts with. -/
def CodeTable.ahead? {α : Type} (table : CodeTable α) (text : Text) : Option (Text × α) :=
  table.find? fun entry => (Text.behind? entry.1 text).isSome

/-- Codes of one letter with their meanings. -/
abbrev LetterTable (α : Type) := List (Char × α)

/-- What a decorated name is the name of. -/
inductive Entity where
  | variable
  | freeFunction
  | memberFunction
deriving DecidableEq

/-- A name followed by none of these codes is that of a member function. -/
def entityCodes : CodeTable Entity :=
  [(['3'], .variable),
   (['Y'], .freeFunction)]

def primitiveLetters : LetterTable Primitive :=
  [('X', .void),
   ('D', .char),
   ('C', .signedChar),
   ('E', .unsignedChar),
   ('F', .short),
   ('G', .unsignedShort),
   ('H', .int),
   ('I', .unsignedInt),
   ('J', .long),
   ('K', .unsignedLong),
   ('M', .float),
   ('N', .double),
   ('O', .longDouble)]

/-- The primitive types without a letter of their own. -/
def extendedPrimitiveCodes : CodeTable Primitive :=
  [(['_', 'N'], .bool),
   (['_', 'J'], .longLong),
   (['_', 'K'], .unsignedLongLong),
   (['_', 'W'], .wideChar)]

inductive TypeCode where
  /-- A struct, union or class, which may be a template instance. -/
  | aggregate (key : TagKey)
  | enumeration
  /-- A pointer to a function with the `cdecl` convention. -/
  | functionPointer
  | reference
  | pointer
  | constPointer
  | array
deriving DecidableEq

/-- The codes of all types but the primitive ones. -/
def typeCodes : CodeTable TypeCode :=
  [(['T'], .aggregate .unionKey),
   (['U'], .aggregate .structKey),
   (['V'], .aggregate .classKey),
   (['W', '4'], .enumeration),
   (['P', '6', 'A'], .functionPointer),
   (['A'], .reference),
   (['P'], .pointer),
   (['Q'], .constPointer),
   (['Y'], .array)]

/-- The storage of a pointer's target, and of a member function's return type. -/
def storageLetters : LetterTable Qualifiers :=
  [('A', {}),
   ('B', { isConst := true }),
   ('C', { isVolatile := true }),
   ('D', { isConst := true, isVolatile := true }),
   ('E', { isFar := true }),
   ('F', { isConst := true, isFar := true }),
   ('G', { isVolatile := true, isFar := true }),
   ('H', { isConst := true, isVolatile := true, isFar := true })]

/-- The storage of a free function's return type. -/
def returnStorageCodes : CodeTable Qualifiers :=
  [(['?', 'A'], {}),
   (['?', 'B'], { isConst := true }),
   (['?', 'C'], { isVolatile := true }),
   (['?', 'D'], { isConst := true, isVolatile := true })]

def arrayStorageMark : Text := ['$', '$', 'C']

/-- The storage of an array, after its mark. Two codes mean the same. -/
def arrayStorageCodes : CodeTable Qualifiers :=
  [(['A'], {}),
   (['B'], { isConst := true }),
   (['C'], { isConst := true, isVolatile := true }),
   (['D'], { isConst := true, isVolatile := true })]

def functionClassLetters : LetterTable FunctionClass :=
  [('A', { isPrivate := true }),
   ('B', { isPrivate := true, isFar := true }),
   ('C', { isPrivate := true, isStatic := true }),
   ('D', { isPrivate := true, isStatic := true, isFar := true }),
   ('E', { isPrivate := true, isVirtual := true }),
   ('F', { isPrivate := true, isVirtual := true, isFar := true }),
   ('I', { isProtected := true }),
   ('J', { isProtected := true, isFar := true }),
   ('K', { isProtected := true, isStatic := true }),
   ('L', { isProtected := true, isStatic := true, isFar := true }),
   ('M', { isProtected := true, isVirtual := true }),
   ('N', { isProtected := true, isVirtual := true, isFar := true }),
   ('Q', { isPublic := true }),
   ('R', { isPublic := true, isFar := true }),
   ('S', { isPublic := true, isStatic := true }),
   ('T', { isPublic := true, isStatic := true, isFar := true }),
   ('U', { isPublic := true, isVirtual := true }),
   ('V', { isPublic := true, isVirtual := true, isFar := true }),
   ('Y', { isGlobal := true }),
   ('Z', { isGlobal := true, isFar := true })]

def conventionLetters : LetterTable CallingConvention :=
  [('A', .cdecl),
   ('C', .pascal),
   ('E', .thiscall),
   ('G', .stdcall),
   ('I', .fastcall)]

end Undecorate
