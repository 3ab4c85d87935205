import Undecorate.Text.Letter

/-!
A script lists what is to be written, up to the end or to the fault that cuts it short. Only the
gaps depend on what was written before: a gap is a space after a letter and nothing elsewhere.
-/

namespace Undecorate

inductive Piece where
  | text (t : Text)
  | gap
deriving DecidableEq

/-- What keeps a type from being written: a number beyond the digit limit, a node without the inner
type that it is built from, or more calls of the writer than may be nested. -/
inductive Fault where
  | numberTooLong
  | missingInner
  | tooDeep
deriving DecidableEq

structure Script where
  pieces : List Piece := []
  fault : Option Fault := none
deriving DecidableEq

namespace Script

def text (t : Text) : Script := { pieces := [.text t] }

def gap : Script := { pieces := [.gap] }

def fail (f : Fault) : Script := { fault := some f }

/-- One script after another. Nothing follows a fault. -/
def append (a b : Script) : Script :=
  match a.fault with
  | some _ => a
  | none => { pieces := a.pieces ++ b.pieces, fault := b.fault }

instance : Append Script := ⟨append⟩

theorem append_def (a b : Script) : a ++ b = a.append b := rfl

@[simp] theorem empty_append (s : Script) : ({} : Script) ++ s = s := rfl

@[simp] theorem append_empty (s : Script) : s ++ ({} : Script) = s := by
  obtain ⟨pieces, _ | f⟩ := s <;> simp [append_def, append]

theorem append_assoc (a b c : Script) : a ++ b ++ c = a ++ (b ++ c) := by
  obtain ⟨ap, _ | af⟩ := a <;> obtain ⟨bp, _ | bf⟩ := b <;> simp [append_def, append]

end Script

/-- Whether the text ends in a letter once `t` is added to it. -/
def endsInLetter (before : Bool) (t : Text) : Bool :=
  match t.getLast? with
  | some c => isLetter c
  | none => before

/-- The text of the pieces, where `afterLetter` tells whether a letter stands before them. -/
def layout (afterLetter : Bool) : List Piece → Text
  | [] => []
  | .text t :: pieces => t ++ layout (endsInLetter afterLetter t) pieces
  | .gap :: pieces => if afterLetter then ' ' :: layout false pieces else layout false pieces

theorem endsInLetter_append (b : Bool) (t u : Text) :
    endsInLetter b (t ++ u) = endsInLetter (endsInLetter b t) u := by
  cases h : u.getLast? <;> simp [endsInLetter, List.getLast?_append, h]

theorem layout_append (b : Bool) (p q : List Piece) :
    layout b (p ++ q) = layout b p ++ layout (endsInLetter b (layout b p)) q := by
  induction p generalizing b with
  | nil => simp [layout, endsInLetter]
  | cons piece p ih =>
    cases piece with
    | text t => simp [layout, ih, endsInLetter_append]
    | gap =>
      cases b
      · simp [layout, ih]
      · have hs : isLetter ' ' = false := by decide
        cases h : (layout false p).getLast? <;>
          simp [layout, ih, endsInLetter, List.getLast?_cons, h, hs]

/-- The text of a script that stands alone. -/
def Script.render (s : Script) : Except Fault Text :=
  match s.fault with
  | some f => throw f
  | none => pure (layout false s.pieces)

end Undecorate
