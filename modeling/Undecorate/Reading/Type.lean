import Undecorate.Reading.Name
import Undecorate.Text.Decimal

/-!
Types. The reader of a nested type is a parameter of every production; `typeWithin` closes the
recursion, and ends because the nesting is limited.
-/

namespace Undecorate.Reading

/-- A primitive type, by its letter or else by its extended code. -/
def primitive : ReadM Primitive := do
  match ← letter primitiveLetters with
  | some p => pure p
  | none =>
    match ← code extendedPrimitiveCodes with
    | some p => pure p
    | none => malformed .unknownType

/-- The storage of a target. A missing code stands for none. -/
def storage : ReadM Qualifiers := do
  let q ← letter storageLetters
  pure (q.getD {})

def returnStorage : ReadM Qualifiers := do
  let q ← code returnStorageCodes
  pure (q.getD {})

/-- The storage of an array, if it is marked. -/
def arrayStorage : ReadM (Option Qualifiers) := do
  if ← accept arrayStorageMark then do
    match ← code arrayStorageCodes with
    | some q => pure (some q)
    | none => malformed .unknownStorage
  else pure none

def functionClass : ReadM FunctionClass := do
  match ← letter functionClassLetters with
  | some c => pure c
  | none => malformed .unknownFunctionClass

def convention : ReadM CallingConvention := do
  match ← letter conventionLetters with
  | some c => pure c
  | none => malformed .unknownConvention

section Productions

variable (nestedType : Slot → ReadM TypeTree)

/-- A parameter or template argument. -/
def param : ReadM TypeTree := do
  let slot ← issue .unknown {}
  nestedType slot

/-- A parameter of a list that has to be closed before the text ends. -/
def listedParam (unclosed : Malformed) : ReadM TypeTree := do
  if ← exhausted then throw (.malformed unclosed) else param nestedType

/-- A struct, union or class. Template instances are marked by `?$` and carry their arguments
after the name of the template. -/
def aggregate (key : TagKey) (slot : Slot) : ReadM TypeTree := do
  if ← accept ['?', '$'] then do
    let base ← templateBase
    let args ← repeatUntil (accept ['@']) (listedParam nestedType (.unterminatedArgs base))
    pure (.mk { slot.node (.tag key) with path := [base] } none args)
  else do
    let p ← path
    pure (.leaf { slot.node (.tag key) with path := p })

def enumeration (slot : Slot) : ReadM TypeTree := do
  let p ← path
  pure (.leaf { slot.node (.tag .enumKey) with path := p })

/-- The parameters of a function that is pointed to end with `Z`, or with `@Z`. -/
def closeParams : ReadM Bool := do
  if ← accept ['@', 'Z'] then pure true else accept ['Z']

def functionPointer (slot : Slot) : ReadM TypeTree := do
  let function ← issue .function {}
  let result ← param nestedType
  let params ← repeatUntil closeParams (listedParam nestedType .unterminatedParams)
  pure (.mk (slot.node .pointer)
    (some (.mk { function.node .function with convention := some .cdecl } (some result) params)) [])

/-- A pointer or reference. Names for 64-bit targets have an extra `E`. -/
def indirection (kind : Kind) (slot : Slot) : ReadM TypeTree := do
  let _ ← accept ['E']
  let q ← storage
  let target ← issue .unknown q
  let t ← nestedType target
  pure (.mk (slot.node kind) (some t) [])

/-- The number of extents of an array. -/
def dimension : ReadM Nat := do
  let n ← numeralAs .dimension
  if 0 < n then pure n.toNat
  else if (decimal? n).isSome then throw (.malformed (.invalidDimension n))
  else throw .numberTooLong

/-- An extent, with the place for what the array is made of. -/
def extent : ReadM (Int × Slot) := do
  let n ← numeral
  let element ← issue .unknown {}
  pure (n, element)

/-- The place of the elements of a multidimensional array. -/
def elementSlot (slot : Slot) : List (Int × Slot) → Slot
  | [] => slot
  | (_, next) :: rows => elementSlot next rows

/-- A chain of arrays, outermost extent first. -/
def arrayOf (element : TypeTree) (slot : Slot) : List (Int × Slot) → TypeTree
  | [] => element
  | (n, next) :: rows =>
    .mk { slot.node .array with extent := some n } (some (arrayOf element next rows)) []

/-- An array. Its storage comes after its extents and replaces the qualifiers in front of it. -/
def array (slot : Slot) : ReadM TypeTree := do
  let n ← dimension
  let rows ← repeatTimes extent n
  let q ← arrayStorage
  let element ← nestedType (elementSlot slot rows)
  pure (arrayOf element { slot with qualifiers := q.getD slot.qualifiers } rows)

def typeCode (slot : Slot) : ReadM TypeTree := do
  match ← code typeCodes with
  | some (.aggregate key) => aggregate nestedType key slot
  | some .enumeration => enumeration slot
  | some .functionPointer => functionPointer nestedType slot
  | some .reference => indirection nestedType .reference slot
  | some .pointer => indirection nestedType .pointer slot
  | some .constPointer =>
    indirection nestedType .pointer
      { slot with qualifiers := { slot.qualifiers with isConst := true } }
  | some .array => array nestedType slot
  | none => do
    let p ← primitive
    pure (.leaf (slot.node (.primitive p)))

end Productions

/-- Reads a type with that many levels of nesting left. -/
def typeWithin : Nat → Slot → ReadM TypeTree
  | 0, _ => nested (malformed .nestedTooDeep)
  | levels + 1, slot => nested (typeCode (typeWithin levels) slot)

/-- Reads a type into its slot. -/
def typeInto (slot : Slot) : ReadM TypeTree := fun s =>
  typeWithin (depthLimit - s.depth) slot s

end Undecorate.Reading
