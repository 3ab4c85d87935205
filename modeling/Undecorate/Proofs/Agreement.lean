import Undecorate.CommandLine.Run
import Undecorate.Proofs.CallDepth

/-!
The ways to ask for a declaration agree.

A text can be read, decoded, undecorated, or named on the command line with and without
`passthrough`. What each of these answers follows from the few ways in which reading and writing
end: a declaration, a symbol with an extent too long to be written or with a declaration that is too
deep, a malformed text, and a number of dimensions too long to be named in a message. All of them
leave undecorating with a text, but for a declaration that is too deep.
-/

namespace Undecorate

/-- The declaration of a text that can be read and written. -/
def declaration? (t : Text) : Option Text :=
  (parse t).toOption.bind fun s => s.display.toOption

/-- The ways in which reading and writing a text end. -/
lemma declaration_cases (t : Text) :
    (∃ s d, parse t = .ok s ∧ s.display = .ok d ∧ ¬ TooDeep t) ∨
    (∃ s, parse t = .ok s ∧ s.display = .error .numberTooLong ∧ ¬ TooDeep t) ∨
    (∃ s, parse t = .ok s ∧ s.display = .error .tooDeep ∧ TooDeep t) ∨
    (∃ why, parse t = .error (.malformed why) ∧ ¬ TooDeep t) ∨
    parse t = .error .numberTooLong ∧ ¬ TooDeep t := by
  rcases parse_cases t with ⟨s, h, -⟩ | ⟨why, h, -⟩ | ⟨h, -⟩
  · rcases display_cases h with ⟨d, hd, hno⟩ | ⟨hd, hno⟩ | ⟨hd, hyes⟩
    · exact .inl ⟨s, d, h, hd, hno⟩
    · exact .inr (.inl ⟨s, h, hd, hno⟩)
    · exact .inr (.inr (.inl ⟨s, h, hd, hyes⟩))
  · exact .inr (.inr (.inr (.inl ⟨why, h, not_tooDeep_of_unread h⟩)))
  · exact .inr (.inr (.inr (.inr ⟨h, not_tooDeep_of_unread h⟩)))

section Entries

variable {t d : Text} {s : Symbol} {why : Malformed}

lemma declaration?_eq_some (h : parse t = .ok s) (hd : s.display = .ok d) :
    declaration? t = some d := by
  simp [declaration?, h, hd, Except.toOption]

lemma declaration?_of_unwritable {f : Fault} (h : parse t = .ok s) (hd : s.display = .error f) :
    declaration? t = none := by
  simp [declaration?, h, hd, Except.toOption]

lemma declaration?_of_unread {f : Failure} (h : parse t = .error f) : declaration? t = none := by
  simp [declaration?, h, Except.toOption]

lemma decode_of_ok (h : parse t = .ok s) : decode t = .ok (.success s) := by
  simp only [decode, h]
  rfl

/-- A message is never empty, so it makes an outcome. -/
lemma decode_of_malformed (h : parse t = .error (.malformed why)) :
    decode t = .ok (.refusal why.message) := by
  obtain ⟨c, m, hm⟩ := List.exists_cons_of_ne_nil (message_ne_nil why)
  simp only [decode, h, hm]
  rfl

lemma decode_of_numberTooLong (h : parse t = .error .numberTooLong) :
    decode t = .error (.reading .numberTooLong) := by
  simp only [decode, h]
  rfl

/-- Undecorating gives the declaration, or else the text itself. -/
lemma undecorate_eq (ht : ¬ TooDeep t) : undecorate t = .ok ((declaration? t).getD t) := by
  rcases declaration_cases t with ⟨s, d, h, hd, -⟩ | ⟨s, h, hd, -⟩ | ⟨s, -, -, hyes⟩ |
    ⟨why, h, -⟩ | ⟨h, -⟩
  · rw [declaration?_eq_some h hd]
    simp only [undecorate, h, hd]
    rfl
  · rw [declaration?_of_unwritable h hd]
    simp only [undecorate, h, hd]
    rfl
  · exact absurd hyes ht
  · rw [declaration?_of_unread h]
    simp only [undecorate, h]
    rfl
  · rw [declaration?_of_unread h]
    simp only [undecorate, h]
    rfl

/-- A declaration that is too deep is not caught. -/
lemma undecorate_of_tooDeep (ht : TooDeep t) : undecorate t = .error (.writing .tooDeep) := by
  obtain ⟨s, h, hlt⟩ := ht
  have hd : s.display = .error .tooDeep := displayWithin_of_lt hlt
  simp only [undecorate, h, hd]
  rfl

end Entries

namespace CommandLine

section Answers

variable {t d : Text} {s : Symbol} {why : Malformed}

lemma answer_of_declaration (h : parse t = .ok s) (hd : s.display = .ok d) :
    answer t false = { out := d ++ ['\n'], ending := .exit 0 } := by
  rw [answer, if_neg Bool.false_ne_true, decode_of_ok h]
  simp only [answerOutcome, hd]

lemma answer_of_unwritable {f : Fault} (h : parse t = .ok s) (hd : s.display = .error f) :
    answer t false = { ending := .brokenOff (.writing f) } := by
  rw [answer, if_neg Bool.false_ne_true, decode_of_ok h]
  simp only [answerOutcome, hd]

lemma answer_of_malformed (h : parse t = .error (.malformed why)) :
    answer t false = { err := why.message ++ ['\n'], ending := .exit 1 } := by
  rw [answer, if_neg Bool.false_ne_true, decode_of_malformed h]
  rfl

lemma answer_of_numberTooLong (h : parse t = .error .numberTooLong) :
    answer t false = { ending := .brokenOff (.reading .numberTooLong) } := by
  rw [answer, if_neg Bool.false_ne_true, decode_of_numberTooLong h]

end Answers

section Requests

variable {t : Text} (ht : t.head? ≠ some '-')

include ht

lemma classify?_of_no_dash : classify? t = some (.operand t) := by
  unfold classify?
  split
  · exact absurd rfl ht
  · exact absurd rfl ht
  · exact absurd rfl ht
  · rfl

lemma run_symbol : run [t] = answer t false := by
  have hargs : Request.ofArgs [t] = .symbol t false false := by
    simp [Request.ofArgs, classifyAll?, classify?_of_no_dash ht, Draft.follow, Draft.operand,
      Draft.finish]
  rw [run, hargs]
  rfl

end Requests

end CommandLine

open CommandLine

end Undecorate
