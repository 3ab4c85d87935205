import Undecorate.Declaration.Writer
import Undecorate.Proofs.Declaration.Character

/-!
Writing as it goes.

A script is made beforehand and then played. `Writing` does without: it goes through a type and adds
one text after another, looks at the character that was added last where it comes to a gap, and is
broken off in the middle by a fault. Both leave the same writer and the same fault (`Plays`), for
every type, also for one that is never read.
-/

namespace Undecorate

/-- What is done to a writer. A fault leaves the writer as it is when the fault arises. -/
abbrev Writing := EStateM Fault Writer Unit

namespace Writing

/-- Adds a text and remembers its last character. The empty text changes nothing. -/
def text (t : Text) : Writing :=
  match t.getLast? with
  | some c => modify fun w => { written := w.written ++ t, last := some c }
  | none => pure ()

/-- A space after a letter, and nothing elsewhere. -/
def gap : Writing := do
  if (← get).last.any isLetter then text [' ']

def name : Path → Writing
  | [] => pure ()
  | base :: scopes => do
    gap
    scopes.reverse.forM fun scope => text (scope ++ "::".toList)
    text (baseName base)

def bounds : Option Int → Writing
  | none => text "[None]".toList
  | some n =>
    match decimal? n with
    | some digits => text ('[' :: (digits ++ [']']))
    | none => throw .numberTooLong

def constMark (node : Node) : Writing := do
  if node.qualifiers.isConst then
    gap
    text "const".toList

/-- The parenthesis around an indirection. Whether there is one can only be seen from the type that
the indirection leads to. -/
def paren (inner : Option TypeTree) (mark : Char) : Writing :=
  match inner with
  | none => throw .missingInner
  | some t => if t.kind.bindsTighter then text [mark] else pure ()

mutual

/-- What stands to the left of the declared name. -/
def left : TypeTree → Writing
  | .mk node inner args =>
    match node.kind with
    | .function => leftInner inner
    | .pointer | .reference => do
      leftInner inner
      paren inner '('
      text node.kind.spelling
      constMark node
    | .array => do
      leftInner inner
      constMark node
    | .tag key => do
      text (key.spelling ++ [' '])
      name node.path
      (if args.isEmpty then pure () else do text ['<']; params args; text ['>'])
      constMark node
    | .primitive p => do
      text p.spelling
      constMark node
    | .unknown | .noReturn => constMark node

def leftInner : Option TypeTree → Writing
  | none => throw .missingInner
  | some t => left t

/-- What stands to the right of the declared name. -/
def right : TypeTree → Writing
  | .mk node inner args =>
    match node.kind with
    | .function => do
      text ['(']
      params args
      text [')']
    | .pointer | .reference => do
      paren inner ')'
      rightInner inner
    | .array => do
      bounds node.extent
      rightInner inner
    | _ => pure ()

def rightInner : Option TypeTree → Writing
  | none => throw .missingInner
  | some t => right t

/-- A list of parameters or template arguments, separated by commas. -/
def params : List TypeTree → Writing
  | [] => pure ()
  | t :: ts => do
    left t
    right t
    furtherParams ts

def furtherParams : List TypeTree → Writing
  | [] => pure ()
  | t :: ts => do
    text [',']
    left t
    right t
    furtherParams ts

end

end Writing

namespace Writer

/-- The writer when all is written, or when it is broken off, with the fault that broke it off. -/
def carryOut (w : Writer) (x : Writing) : Writer × Option Fault :=
  match x w with
  | .ok _ v => (v, none)
  | .error f v => (v, some f)

/-- Goes on with what comes next, unless a fault broke it off. -/
def goOn (next : Writer → Writer × Option Fault) : Writer × Option Fault → Writer × Option Fault
  | (w, none) => next w
  | (w, some f) => (w, some f)

/-! ### Playing a script -/

/-- A text ends in a letter if what was added does, or if nothing was added and it did before. -/
lemma any_isLetter_getLast? (last : Option Char) (t : Text) :
    (t.getLast?.or last).any isLetter = endsInLetter (last.any isLetter) t := by
  unfold endsInLetter
  cases t.getLast? <;> rfl

lemma play_empty (w : Writer) : w.play {} = (w, none) := by simp [play, layout]

lemma play_fail (w : Writer) (f : Fault) : w.play (.fail f) = (w, some f) := by
  simp [play, layout, Script.fail]

lemma play_text (w : Writer) (t : Text) :
    w.play (.text t) = ({ written := w.written ++ t, last := t.getLast?.or w.last }, none) := by
  simp [play, layout, Script.text]

lemma play_gap (w : Writer) :
    w.play .gap = w.play (if w.last.any isLetter then .text [' '] else {}) := by
  cases h : w.last.any isLetter <;> simp [play, layout, Script.gap, Script.text, h]

lemma play_append (w : Writer) (a b : Script) : w.play (a ++ b) = goOn (·.play b) (w.play a) := by
  obtain ⟨p, _ | f⟩ := a
  · simp only [play, goOn, Script.append_def, Script.append, layout_append, any_isLetter_getLast?,
      List.getLast?_append, Option.or_assoc, List.append_assoc]
  · rfl

lemma carryOut_andThen (w : Writer) (x y : Writing) :
    w.carryOut (do x; y) = goOn (·.carryOut y) (w.carryOut x) := by
  simp only [carryOut, bind, EStateM.bind]
  cases x w <;> rfl

end Writer

namespace Writing

/-- The writing does to every writer what playing the script does. -/
def Plays (x : Writing) (s : Script) : Prop := ∀ w : Writer, w.carryOut x = w.play s

/-- Both sides of the type are written as their scripts have it. -/
structure PlaysSides (t : TypeTree) : Prop where
  left : Plays (left t) t.left
  right : Plays (right t) t.right

variable {x y : Writing} {a b : Script}

lemma Plays.andThen (hx : Plays x a) (hy : Plays y b) : Plays (do x; y) (a ++ b) := by
  intro w
  rw [Writer.carryOut_andThen, Writer.play_append, hx w, funext hy]

lemma plays_pure : Plays (pure ()) {} := fun w => w.play_empty.symm

lemma plays_throw (f : Fault) : Plays (throw f) (.fail f) := fun w => (w.play_fail f).symm

lemma plays_text (t : Text) : Plays (text t) (.text t) := by
  intro w
  rw [Writer.play_text]
  cases h : t.getLast? with
  | none =>
    obtain rfl := List.getLast?_eq_none_iff.1 h
    rw [List.append_nil, Option.none_or]
    rfl
  | some c =>
    rw [Option.some_or, text, h]
    rfl

lemma plays_gap : Plays gap .gap := by
  intro w
  have hgap : w.carryOut gap =
      w.carryOut (if w.last.any isLetter then text [' '] else pure ()) := rfl
  rw [hgap, Writer.play_gap]
  split_ifs
  · exact plays_text [' '] w
  · exact plays_pure w

lemma plays_texts (ts : List Text) (f : Text → Text) :
    Plays (ts.forM fun t => text (f t)) { pieces := ts.map fun t => .text (f t) } := by
  induction ts with
  | nil => exact plays_pure
  | cons t ts ih => exact (plays_text (f t)).andThen ih

lemma plays_name (p : Path) : Plays (name p) (qualified p) := by
  cases p with
  | nil => exact plays_pure
  | cons base scopes =>
    exact plays_gap.andThen ((plays_texts _ _).andThen (plays_text (baseName base)))

lemma plays_bounds (extent : Option Int) : Plays (bounds extent) (Undecorate.bounds extent) := by
  cases extent with
  | none => exact plays_text "[None]".toList
  | some n =>
    simp only [bounds, Undecorate.bounds]
    cases decimal? n with
    | none => exact plays_throw .numberTooLong
    | some digits => exact plays_text _

lemma plays_constMark (node : Node) : Plays (constMark node) (Undecorate.constMark node) := by
  unfold constMark Undecorate.constMark
  split_ifs
  · exact plays_gap.andThen (plays_text _)
  · exact plays_pure

lemma plays_paren (t : TypeTree) (mark : Char) :
    Plays (paren (some t) mark) (Undecorate.paren (some t) mark) := by
  simp only [paren, Undecorate.paren, Option.any_some]
  split_ifs
  · exact plays_text [mark]
  · exact plays_pure

/-! ### Lists of types -/

lemma plays_furtherParams {ts : List TypeTree} (h : ∀ t ∈ ts, PlaysSides t) :
    Plays (furtherParams ts) (TypeTree.furtherParams ts) := by
  induction ts with
  | nil => exact plays_pure
  | cons t ts ih =>
    have ht : PlaysSides t := h t List.mem_cons_self
    have hrest := ih fun u hu => h u (List.mem_cons_of_mem t hu)
    simp only [furtherParams, TypeTree.furtherParams, Script.append_assoc]
    exact (plays_text [',']).andThen (ht.left.andThen (ht.right.andThen hrest))

lemma plays_params {ts : List TypeTree} (h : ∀ t ∈ ts, PlaysSides t) :
    Plays (params ts) (TypeTree.params ts) := by
  cases ts with
  | nil => exact plays_pure
  | cons t ts =>
    have ht : PlaysSides t := h t List.mem_cons_self
    have hrest := plays_furtherParams fun u hu => h u (List.mem_cons_of_mem t hu)
    simp only [params, TypeTree.params, Script.append_assoc]
    exact ht.left.andThen (ht.right.andThen hrest)

lemma plays_arguments {args : List TypeTree} (h : ∀ t ∈ args, PlaysSides t) :
    Plays (if args.isEmpty then pure () else do text ['<']; params args; text ['>'])
      (if args.isEmpty then {} else .text ['<'] ++ TypeTree.params args ++ .text ['>']) := by
  split_ifs
  · exact plays_pure
  · rw [Script.append_assoc]
    exact (plays_text ['<']).andThen ((plays_params h).andThen (plays_text ['>']))

/-! ### The two sides of a type -/

variable {inner : Option TypeTree}

lemma plays_leftInner (hi : ∀ t ∈ inner, PlaysSides t) :
    Plays (leftInner inner) (TypeTree.leftInner inner) := by
  cases inner with
  | none => exact plays_throw .missingInner
  | some t => exact (hi t rfl).left

lemma plays_rightInner (hi : ∀ t ∈ inner, PlaysSides t) :
    Plays (rightInner inner) (TypeTree.rightInner inner) := by
  cases inner with
  | none => exact plays_throw .missingInner
  | some t => exact (hi t rfl).right

/-- Without an inner type, neither the writing nor the script gets as far as the parenthesis. -/
lemma plays_indirectionLeft (hi : ∀ t ∈ inner, PlaysSides t) (mark : Text) (node : Node) :
    Plays (do leftInner inner; paren inner '('; text mark; constMark node)
      (TypeTree.leftInner inner ++ Undecorate.paren inner '(' ++ .text mark ++
        Undecorate.constMark node) := by
  simp only [Script.append_assoc]
  cases inner with
  | none => exact plays_throw .missingInner
  | some t =>
    exact (hi t rfl).left.andThen ((plays_paren t '(').andThen
      ((plays_text mark).andThen (plays_constMark node)))

/-- Without an inner type, the writing stops at the parenthesis and the script behind it, where it
has written none. -/
lemma plays_indirectionRight (hi : ∀ t ∈ inner, PlaysSides t) :
    Plays (do paren inner ')'; rightInner inner)
      (Undecorate.paren inner ')' ++ TypeTree.rightInner inner) := by
  cases inner with
  | none => exact plays_throw .missingInner
  | some t => exact (plays_paren t ')').andThen (hi t rfl).right

lemma plays_left {node : Node} {args : List TypeTree} (hi : ∀ t ∈ inner, PlaysSides t)
    (ha : ∀ t ∈ args, PlaysSides t) :
    Plays (left (.mk node inner args)) (TypeTree.mk node inner args).left := by
  have hconst : Plays (constMark node) (Undecorate.constMark node) := plays_constMark node
  cases hk : node.kind with
  | function =>
    simp only [left, TypeTree.left, hk]
    exact plays_leftInner hi
  | pointer =>
    simp only [left, TypeTree.left, hk]
    exact plays_indirectionLeft hi ['*'] node
  | reference =>
    simp only [left, TypeTree.left, hk]
    exact plays_indirectionLeft hi ['&'] node
  | array =>
    simp only [left, TypeTree.left, hk]
    exact (plays_leftInner hi).andThen hconst
  | tag key =>
    simp only [left, TypeTree.left, hk]
    rw [Script.append_assoc, Script.append_assoc]
    exact (plays_text (key.spelling ++ [' '])).andThen
      ((plays_name node.path).andThen ((plays_arguments ha).andThen hconst))
  | primitive p =>
    simp only [left, TypeTree.left, hk]
    exact (plays_text p.spelling).andThen hconst
  | unknown =>
    simp only [left, TypeTree.left, hk]
    exact hconst
  | noReturn =>
    simp only [left, TypeTree.left, hk]
    exact hconst

lemma plays_right {node : Node} {args : List TypeTree} (hi : ∀ t ∈ inner, PlaysSides t)
    (ha : ∀ t ∈ args, PlaysSides t) :
    Plays (right (.mk node inner args)) (TypeTree.mk node inner args).right := by
  cases hk : node.kind with
  | function =>
    simp only [right, TypeTree.right, hk, Script.append_assoc]
    exact (plays_text ['(']).andThen ((plays_params ha).andThen (plays_text [')']))
  | pointer =>
    simp only [right, TypeTree.right, hk]
    exact plays_indirectionRight hi
  | reference =>
    simp only [right, TypeTree.right, hk]
    exact plays_indirectionRight hi
  | array =>
    simp only [right, TypeTree.right, hk]
    exact (plays_bounds node.extent).andThen (plays_rightInner hi)
  | _ =>
    simp only [right, TypeTree.right, hk]
    exact plays_pure

/-- **Writing as it goes is playing the script**: both sides of every type are written as their
scripts have it, up to the same fault. -/
theorem plays_sides (t : TypeTree) : PlaysSides t := by
  induction t using TypeTree.induction with
  | mk node inner args hi ha => exact ⟨plays_left hi ha, plays_right hi ha⟩

/-! ### Whole declarations -/

/-- What stands in a fresh writer when all is written, or the fault that broke it off. -/
def written (x : Writing) : Except Fault Text :=
  match x {} with
  | .ok _ w => pure w.written
  | .error f _ => throw f

lemma Plays.written_eq (h : Plays x a) : written x = a.render := by
  have hplay : Writer.carryOut {} x = Writer.play {} a := h {}
  unfold written Script.render
  cases hx : x {} with
  | ok _ w =>
    rw [Writer.carryOut, hx] at hplay
    obtain ⟨rfl, hfault⟩ := Prod.ext_iff.1 hplay
    rw [show a.fault = none from hfault.symm]
    rfl
  | error f w =>
    rw [Writer.carryOut, hx] at hplay
    rw [show a.fault = some f from (congrArg Prod.snd hplay).symm]

/-- **A symbol is rendered by a fresh writer** that is given the left side of its type, then its
name, and then the right side. -/
theorem written_symbol (s : Symbol) :
    written (do left s.type; name s.path; right s.type) = s.render := by
  have hsides : PlaysSides s.type := plays_sides s.type
  rw [(hsides.left.andThen ((plays_name s.path).andThen hsides.right)).written_eq,
    ← Script.append_assoc]
  rfl

/-- A type alone is rendered in the same way, without a name. -/
theorem written_type (t : TypeTree) : written (do left t; right t) = t.render :=
  ((plays_sides t).left.andThen (plays_sides t).right).written_eq

end Writing

end Undecorate
