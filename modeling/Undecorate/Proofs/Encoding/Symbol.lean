import Undecorate.Proofs.TypeTree
import Undecorate.Proofs.Encoding.Spelling

/-!
The decorated name of a symbol.

A type is spelled by its code and, for a pointer or reference, by the storage of its target. A
chain of arrays is one code with all its extents. `Expressible` tells which types and symbols a
decorated name can stand for: where no storage is written in front of a type, it has no
qualifiers.
-/

namespace Undecorate

namespace TypeTree

mutual

/-- The tree with its nodes numbered from `i` on, in the order of `walk`. -/
def numberFrom : Nat → TypeTree → TypeTree
  | i, mk node inner args =>
    mk { node with serial := i } (numberInner (i + 1) inner)
      (numberArgs (i + 1 + (walkInner inner).length) args)

def numberInner : Nat → Option TypeTree → Option TypeTree
  | _, none => none
  | i, some t => some (numberFrom i t)

def numberArgs : Nat → List TypeTree → List TypeTree
  | _, [] => []
  | i, t :: ts => numberFrom i t :: numberArgs (i + t.walk.length) ts

end

mutual

/-- How many levels of types are read for this one, itself included. A chain of arrays is one
level, and a function is on the level of the pointer to it. -/
def nesting : TypeTree → Nat
  | mk node inner args =>
    match node.kind with
    | .function => max (nestingInner inner) (nestingArgs args)
    | .array =>
      if inner.any (·.kind.isArray) then nestingInner inner else nestingInner inner + 1
    | _ => max (nestingInner inner) (nestingArgs args) + 1

def nestingInner : Option TypeTree → Nat
  | none => 0
  | some t => nesting t

def nestingArgs : List TypeTree → Nat
  | [] => 0
  | t :: ts => max (nesting t) (nestingArgs ts)

end

/-- No qualifiers are attached to the topmost node. -/
def Unqualified (t : TypeTree) : Prop := t.node.qualifiers = {}

end TypeTree

/-- The letter that stands for a value. -/
def LetterTable.letterFor {α : Type} [DecidableEq α] (table : LetterTable α) (a : α) : Text :=
  ((table.find? fun entry => entry.2 = a).map Prod.fst).toList

/-- The code that stands for a value. -/
def CodeTable.codeFor {α : Type} [DecidableEq α] (table : CodeTable α) (a : α) : Text :=
  ((table.find? fun entry => entry.2 = a).map Prod.fst).getD []

namespace Encoding

/-! ### Types -/

/-- A primitive type has its code in one of two tables. -/
def primitive (p : Primitive) : Text :=
  primitiveLetters.letterFor p ++ extendedPrimitiveCodes.codeFor p

def tag : TagKey → Text
  | .unionKey => ['T']
  | .structKey => ['U']
  | .classKey => ['V']
  | .enumKey => ['W', '4']

/-- What stands between the letter of a pointer or reference and its target. -/
def aim : Option TypeTree → Text
  | none => []
  | some t =>
    if t.kind.isFunction then ['6', 'A'] else 'E' :: storageLetters.letterFor t.node.qualifiers

/-- The code of a chain of arrays with these extents, over elements with this code. -/
def arrays : List Int × Text → Text
  | ([], element) => element
  | (n :: ns, element) => 'Y' :: (number (ns.length + 1) ++ (n :: ns).flatMap number ++ element)

mutual

/-- The extents of the chain of arrays that starts here, and the code of its elements. A type that
is no array is an empty chain. -/
def chain : TypeTree → List Int × Text
  | .mk node inner args =>
    match node.kind with
    | .primitive p => ([], primitive p)
    | .tag key =>
      ([], tag key ++
        if args.isEmpty then path node.path
        else ['?', '$'] ++ node.path.flatten ++ '@' :: (types args ++ ['@']))
    | .pointer => ([], 'P' :: (aim inner ++ arrays (chainInner inner)))
    | .reference => ([], 'A' :: (aim inner ++ arrays (chainInner inner)))
    | .array => (node.extent.getD 0 :: (chainInner inner).1, (chainInner inner).2)
    | .function => ([], arrays (chainInner inner) ++ types args ++ ['@', 'Z'])
    | .unknown => ([], [])
    | .noReturn => ([], [])

def chainInner : Option TypeTree → List Int × Text
  | none => ([], [])
  | some t => chain t

def types : List TypeTree → Text
  | [] => []
  | t :: ts => arrays (chain t) ++ types ts

end

def type (t : TypeTree) : Text := arrays (chain t)

/-! ### Symbols -/

/-- Where a decorated name leaves a choice. -/
structure Manner where
  /-- Whether the storage of a free function's result is written even if it is none. -/
  spellsNone : Bool := true
  /-- Whether `@` is written behind the result of a member function. -/
  marksResult : Bool := false
  /-- What follows the symbol and is not read. -/
  tail : Text := []

def convention (c : Option CallingConvention) : Text :=
  (c.map conventionLetters.letterFor).getD []

/-- The storage of a free function's result. -/
def resultStorage (m : Manner) (q : Qualifiers) : Text :=
  if q = {} ∧ m.spellsNone = false then [] else returnStorageCodes.codeFor q

def freeFunction (m : Manner) (node : Node) (result : TypeTree) (params : List TypeTree) : Text :=
  'Y' :: (convention node.convention ++ resultStorage m result.node.qualifiers ++ type result ++
    types params ++ '@' :: 'Z' :: m.tail)

/-- The result of a member function. -/
def memberResult (m : Manner) (result : TypeTree) : Text :=
  if result.kind = .noReturn then ['@'] else type result ++ if m.marksResult then ['@'] else []

def memberFunction (m : Manner) (node : Node) (result : TypeTree) (params : List TypeTree) : Text :=
  functionClassLetters.letterFor node.functionClass ++ 'E' :: (convention node.convention ++
    storageLetters.letterFor result.node.qualifiers ++ memberResult m result ++ types params ++
    'Z' :: m.tail)

/-- The decorated name of a symbol, or its plain name if it has no type. -/
def symbol (m : Manner) (s : Symbol) : Text :=
  match s.type with
  | .mk node inner args =>
    match node.kind, inner with
    | .unknown, _ => s.path.flatten
    | .function, some result =>
      '?' :: (path s.path ++
        if node.functionClass = {} then freeFunction m node result args
        else memberFunction m node result args)
    | _, _ => '?' :: (path s.path ++ '3' :: (type s.type ++ m.tail))

end Encoding

/-! ### What can be expressed -/

namespace TypeTree

/-- The types that have a code. -/
inductive Expressible : TypeTree → Prop
  | primitive (p : Primitive) (q : Qualifiers) (i : Nat) :
      Expressible (leaf { kind := .primitive p, qualifiers := q, serial := i })
  | named (key : TagKey) (q : Qualifiers) (i : Nat) {p : Path}
      (parts : ∀ part ∈ p, Encoding.IsPart part)
      (plain : key ≠ .enumKey → ∀ part ∈ p.head?, ¬ ['?', '$'] <+: part) :
      Expressible (leaf { kind := .tag key, qualifiers := q, path := p, serial := i })
  | template (key : TagKey) (q : Qualifiers) (i : Nat) {base : Text} {args : List TypeTree}
      (hk : key ≠ .enumKey) (hb : '@' ∉ base) (hne : args ≠ [])
      (hu : ∀ a ∈ args, a.Unqualified) (ha : ∀ a ∈ args, a.Expressible) :
      Expressible (mk { kind := .tag key, qualifiers := q, path := [base], serial := i } none args)
  | indirection {kind : Kind} (q : Qualifiers) (i : Nat) {target : TypeTree}
      (hk : kind.isIndirection = true) (hq : target.node.qualifiers.Stored)
      (ht : target.Expressible) :
      Expressible (mk { kind, qualifiers := q, serial := i } (some target) [])
  | functionPointer (q : Qualifiers) (i j : Nat) {result : TypeTree} {params : List TypeTree}
      (hu : result.Unqualified) (hr : result.Expressible)
      (hv : ∀ p ∈ params, p.Unqualified) (hp : ∀ p ∈ params, p.Expressible) :
      Expressible (mk { kind := .pointer, qualifiers := q, serial := i }
        (some (mk { kind := .function, convention := some .cdecl, serial := j }
          (some result) params)) [])
  | array (q : Qualifiers) (i : Nat) (n : Int) {inner : TypeTree} (hu : inner.Unqualified)
      (hi : inner.Expressible) :
      Expressible (mk { kind := .array, qualifiers := q, extent := some n, serial := i }
        (some inner) [])

end TypeTree

/-- The symbols that have a decorated name, and the plain names. The letter for the function class
of a global function that is not far announces a free function. -/
inductive Symbol.Expressible : Symbol → Prop
  | identifier (name : Text) (i : Nat) (h : name.head? ≠ some '?') :
      Expressible { path := [name], type := .leaf { serial := i } }
  | ofVariable {p : Path} {t : TypeTree} (hp : ∀ part ∈ p, Encoding.IsPart part)
      (hu : t.Unqualified) (ht : t.Expressible) :
      Expressible { path := p, type := t }
  | freeFunction (i : Nat) {p : Path} {c : CallingConvention} {result : TypeTree}
      {params : List TypeTree} (hp : ∀ part ∈ p, Encoding.IsPart part) (hc : c ≠ .regcall)
      (hq : result.node.qualifiers.Stored) (hf : result.node.qualifiers.isFar = false)
      (hr : result.Expressible) (hu : ∀ a ∈ params, a.Unqualified)
      (ha : ∀ a ∈ params, a.Expressible) :
      Expressible
        { path := p
          type := .mk { kind := .function, convention := some c, serial := i }
            (some result) params }
  | memberFunction (i : Nat) {p : Path} {f : FunctionClass} {c : CallingConvention}
      {result : TypeTree} {params : List TypeTree} (hp : ∀ part ∈ p, Encoding.IsPart part)
      (hf : f ∈ functionClassLetters.map Prod.snd) (hg : f ≠ { isGlobal := true })
      (hc : c ≠ .regcall) (hq : result.node.qualifiers.Stored)
      (hr : result.Expressible ∨
        ∃ q j, result = .leaf { kind := .noReturn, qualifiers := q, serial := j })
      (hu : ∀ a ∈ params, a.Unqualified) (ha : ∀ a ∈ params, a.Expressible) :
      Expressible
        { path := p
          type := .mk { kind := .function, convention := some c, functionClass := f, serial := i }
            (some result) params }

end Undecorate
