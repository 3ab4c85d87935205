import Mathlib.Tactic.Lemma
import Undecorate.Code
import Undecorate.Malformed
import Undecorate.Numeral

/-!
What a message blames.

Six kinds of messages are a label and the text that could not be read. `why.Blames t read` says of
such a message that what was read and what it shows make up `t`, and that nothing which could be
read at this point starts the text that is shown.
-/

namespace Undecorate

variable {α : Type}

/-- No code of the table starts the text. -/
def CodeTable.Missing (table : CodeTable α) (r : Text) : Prop := ∀ e ∈ table, ¬ e.1 <+: r

/-- No letter of the table starts the text. -/
def LetterTable.Missing (table : LetterTable α) (r : Text) : Prop := ∀ e ∈ table, ¬ [e.1] <+: r

/-- The text starts neither with a digit nor with a run of letter digits and its `@`. -/
structure NoMagnitude (r : Text) : Prop where
  digit : ∀ c w, r = c :: w → c.isDigit = false
  run : ∀ run w, (∀ c ∈ run, Numeral.isLetterDigit c = true) → r ≠ run ++ '@' :: w

namespace Malformed

/-- The label of the message and the text that it shows, if it shows what could not be read. -/
def shown? : Malformed → Option (Text × Text)
  | badNumber r => some ("bad number: ".toList, r)
  | unterminatedName r => some ("read_string: missing '@': ".toList, r)
  | unknownFunctionClass r => some ("unknown func class: ".toList, r)
  | unknownConvention r => some ("unknown calling convention: ".toList, r)
  | unknownType r => some ("unknown primitive type: ".toList, r)
  | unknownStorage r => some ("unknown storage class: ".toList, r)
  | _ => none

/-- Nothing that could be read behind `read` starts the text that is shown. -/
def Unreadable (read : Text) : Malformed → Prop
  | badNumber r => NoMagnitude r
  | unterminatedName r => '@' ∉ r
  | unknownFunctionClass r => entityCodes.Missing r ∧ functionClassLetters.Missing r
  | unknownConvention r => conventionLetters.Missing r
  | unknownType r =>
    typeCodes.Missing r ∧ primitiveLetters.Missing r ∧ extendedPrimitiveCodes.Missing r
  | unknownStorage r => arrayStorageMark <:+ read ∧ arrayStorageCodes.Missing r
  | _ => True

structure Blames (t read : Text) (why : Malformed) : Prop where
  text : ∀ shown ∈ why.shown?, read ++ shown.2 = t
  unreadable : why.Unreadable read

/-- A message that shows no text blames none. -/
lemma blames_of_silent {t read : Text} {why : Malformed} (h : why.shown? = none) :
    why.Blames t read where
  text := by simp [h]
  unreadable := by
    cases why with
    | danglingReference | invalidDimension | unterminatedParams | unterminatedArgs
    | nestedTooDeep => trivial
    | _ => cases h

lemma message_of_shown {why : Malformed} {label r : Text} (h : why.shown? = some (label, r)) :
    why.message = label ++ r := by
  cases why <;> cases h <;> rfl

end Malformed

end Undecorate
