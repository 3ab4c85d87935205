import Undecorate.Reading.Type
import Undecorate.Symbol

/-!
Symbols. A `?` marks a decorated name; any other text is an identifier. The heading of a symbol is
its name together with what it names, and the rest is its type.
-/

namespace Undecorate.Reading

/-- What is known of a symbol before its type is read. -/
inductive Heading where
  | identifier (name : Text)
  | decorated (entity : Entity) (path : Path)

def heading : ReadM Heading := do
  if ← accept ['?'] then do
    let p ← path
    let entity ← code entityCodes
    pure (.decorated (entity.getD .memberFunction) p)
  else do
    let s ← get
    pure (.identifier s.rest)

/-- The parameters of a free function end where `@` comes next or nothing is left. -/
def freeParamsEnd : ReadM Bool := do
  if ← exhausted then pure true else upcoming ['@']

/-- The parameters of a member function end where `Z` comes next or nothing is left. -/
def memberParamsEnd : ReadM Bool := do
  if ← exhausted then pure true else upcoming ['Z']

def freeFunction : ReadM TypeTree := do
  let slot ← issue .function {}
  let c ← convention
  let q ← returnStorage
  let resultSlot ← issue .unknown q
  let result ← typeInto resultSlot
  let params ← repeatUntil freeParamsEnd (param typeInto)
  pure (.mk { slot.node .function with convention := some c } (some result) params)

/-- The return type of a member function. A lone `@` is that of a constructor or destructor. -/
def memberResult (q : Qualifiers) : ReadM TypeTree := do
  if ← accept ['@'] then do
    let slot ← issue .noReturn q
    pure (.leaf (slot.node .noReturn))
  else do
    let slot ← issue .unknown q
    let t ← typeInto slot
    let _ ← accept ['@']
    pure t

/-- Names for 64-bit targets have an extra `E` after the function class. -/
def memberFunction : ReadM TypeTree := do
  let slot ← issue .function {}
  let cls ← functionClass
  let _ ← accept ['E']
  let c ← convention
  let q ← storage
  let result ← memberResult q
  let params ← repeatUntil memberParamsEnd (param typeInto)
  pure (.mk { slot.node .function with convention := some c, functionClass := cls } (some result)
    params)

/-- Reads the type that a heading announces. -/
def body : Heading → ReadM Symbol
  | .identifier name => do
    let slot ← issue .unknown {}
    pure { path := [name], type := .leaf (slot.node .unknown) }
  | .decorated .variable p => do
    let t ← param typeInto
    pure { path := p, type := t }
  | .decorated .freeFunction p => do
    let t ← freeFunction
    pure { path := p, type := t }
  | .decorated .memberFunction p => do
    let t ← memberFunction
    pure { path := p, type := t }

def symbol : ReadM Symbol := do
  let h ← heading
  body h

end Undecorate.Reading
