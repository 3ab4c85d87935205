import Undecorate.Proofs.Declaration.Writing

/-!
A writer, whatever it is asked to write.

An operation adds to the text and leaves the last character of the text remembered, and so does one
that is broken off. Both go on by induction over the operations. Since every operation plays a
script, what the next one adds depends on what it is asked for and on whether a letter stands last,
and on nothing else that was written.
-/

namespace Undecorate.Writer

/-- What is asked of a writer. -/
inductive Operation where
  | text (t : Text)
  | gap
  | name (p : Path)
  | left (t : TypeTree)
  | right (t : TypeTree)
  | params (ts : List TypeTree)

namespace Operation

/-- What is done to the writer. -/
def writing : Operation → Writing
  | text t => Writing.text t
  | gap => Writing.gap
  | name p => Writing.name p
  | left t => Writing.left t
  | right t => Writing.right t
  | params ts => Writing.params ts

/-- What is to be written, up to the fault that cuts it short. -/
def script : Operation → Script
  | text t => Script.text t
  | gap => Script.gap
  | name p => qualified p
  | left t => t.left
  | right t => t.right
  | params ts => TypeTree.params ts

end Operation

/-- The writer after one operation, and the fault that broke it off. -/
def perform (w : Writer) (op : Operation) : Writer × Option Fault := w.carryOut op.writing

/-- The writer after all the operations. One that is broken off does not keep the next from being
carried out. -/
def after (w : Writer) (ops : List Operation) : Writer := ops.foldl (fun w op => (w.perform op).1) w

/-- The character that is remembered is the last one of the text. -/
def Remembers (w : Writer) : Prop := w.last = w.written.getLast?

variable {w : Writer}

/-! ### What one operation does -/

lemma perform_eq_play (w : Writer) (op : Operation) : w.perform op = w.play op.script := by
  have hplays : Writing.Plays op.writing op.script := by
    cases op with
    | text t => exact Writing.plays_text t
    | gap => exact Writing.plays_gap
    | name p => exact Writing.plays_name p
    | left t => exact (Writing.plays_sides t).left
    | right t => exact (Writing.plays_sides t).right
    | params ts => exact Writing.plays_params fun t _ => Writing.plays_sides t
  exact hplays w

lemma written_perform (w : Writer) (op : Operation) :
    (w.perform op).1.written = w.written ++ layout (w.last.any isLetter) op.script.pieces := by
  rw [perform_eq_play]
  rfl

lemma fault_perform (w : Writer) (op : Operation) : (w.perform op).2 = op.script.fault := by
  rw [perform_eq_play]
  rfl

lemma Remembers.perform (h : w.Remembers) (op : Operation) : (w.perform op).1.Remembers := by
  unfold Remembers at h ⊢
  rw [perform_eq_play]
  simp only [play]
  rw [List.getLast?_append, h]

/-! ### What any operations do -/

lemma Remembers.after (h : w.Remembers) (ops : List Operation) : (w.after ops).Remembers := by
  induction ops generalizing w with
  | nil => exact h
  | cons op ops ih => exact ih (h.perform op)

lemma prefix_after (w : Writer) (ops : List Operation) : w.written <+: (w.after ops).written := by
  induction ops generalizing w with
  | nil => exact List.prefix_rfl
  | cons op ops ih =>
    have hstep : w.written <+: (w.perform op).1.written := by
      rw [written_perform]
      exact List.prefix_append _ _
    exact hstep.trans (ih (w.perform op).1)

/-- **A writer only adds**: after any operations, those that were broken off included, the writer
remembers the last character of its text, and none if the text is empty; and whatever it is asked
for from there on, the text that it has stays in front. What one more operation adds is laid out
from the operation and from whether a letter stands last, and the operation alone tells whether it
is broken off, and by what: it does what playing its script does. -/
theorem after_only_adds (ops : List Operation) (op : Operation) :
    let w := ({} : Writer).after ops
    w.last = w.written.getLast? ∧
    (∀ more, w.written <+: (w.after more).written) ∧
    (w.perform op).1.written =
      w.written ++ layout (w.written.getLast?.any isLetter) op.script.pieces ∧
    (w.perform op).2 = op.script.fault ∧
    w.perform op = w.play op.script := by
  intro w
  have hfresh : ({} : Writer).Remembers := rfl
  have hlast : w.last = w.written.getLast? := hfresh.after ops
  refine ⟨hlast, prefix_after w, ?_, fault_perform w op, perform_eq_play w op⟩
  rw [← hlast]
  exact written_perform w op

/-- A list that is broken off at a pointer to nothing leaves its first type and the comma. A gap
writes nothing behind the comma, one space behind a letter, and nothing behind that space. -/
example :
    let broken := [.leaf { kind := .primitive .int }, .leaf { kind := .pointer }]
    let w := ({} : Writer).after [.params broken, .gap, .text "char".toList, .gap, .gap]
    (w.perform (.params broken)).2 = some .missingInner ∧
      (w.perform (.text "const".toList)).1.written = "int,char const".toList := by
  decide +kernel

end Undecorate.Writer
