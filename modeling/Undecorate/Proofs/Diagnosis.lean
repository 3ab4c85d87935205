import Undecorate.Proofs.Terminator

/-!
Messages point at the text that could not be read.

Where reading fails, what was read up to there is known from its lexemes, so a message that shows
the rest of the text shows exactly what follows them. No character is lost or doubled on the way,
also where one was taken and put back.
-/

namespace Undecorate

open Reading

lemma blames_of_parse {t : Text} {why : Malformed} (h : parse t = .error (.malformed why)) :
    why.Blames t (consumed t) := by
  rcases decoder_cases t with ⟨s, u, hd, -⟩ | ⟨f, u, hd, hf⟩
  · rw [parse, hd] at h
    cases h
  · rw [parse, hd] at h
    cases h
    have hconsumed : consumed t = u.spelled := by rw [consumed, lexemes, hd, State.spelled]
    rw [hconsumed]
    exact hf.2

/-- **Messages point at the offending text**: a message that shows what could not be read is its
label followed by a text. That text is what is left of `t` behind all that was read, and nothing
that is accepted at this point starts it. -/
theorem message_shows_unreadable {t : Text} {why : Malformed} {label r : Text}
    (h : parse t = .error (.malformed why)) (hshown : why.shown? = some (label, r)) :
    why.message = label ++ r ∧ consumed t ++ r = t ∧ why.Unreadable (consumed t) := by
  obtain ⟨htext, hunreadable⟩ := blames_of_parse h
  exact ⟨Malformed.message_of_shown hshown, htext (label, r) hshown, hunreadable⟩

/-- The failure that reading a text ends in. -/
def failure? (t : Text) : Option Failure :=
  match parse t with
  | .ok _ => none
  | .error f => some f

lemma parse_of_failure? {t : Text} {f : Failure} (h : failure? t = some f) :
    parse t = .error f := by
  unfold failure? at h
  split at h
  · cases h
  · next hf =>
    cases h
    exact hf

/-- The unknown storage of an array in a template argument, and an extent that has only its sign. -/
theorem message_shows_unreadable_array :
    (parse "?x@@3V?$v@HPAY01$$CEH@".toList =
        .error (.malformed (.unknownStorage "EH@".toList)) ∧
      (Malformed.unknownStorage "EH@".toList).message = "unknown storage class: EH@".toList ∧
      consumed "?x@@3V?$v@HPAY01$$CEH@".toList ++ "EH@".toList = "?x@@3V?$v@HPAY01$$CEH@".toList ∧
      arrayStorageMark <:+ consumed "?x@@3V?$v@HPAY01$$CEH@".toList ∧
      arrayStorageCodes.Missing "EH@".toList) ∧
    parse "?x@@3Y0?QH".toList = .error (.malformed (.badNumber "QH".toList)) ∧
      consumed "?x@@3Y0?QH".toList ++ "QH".toList = "?x@@3Y0?QH".toList ∧
      NoMagnitude "QH".toList := by
  have hstorage : parse "?x@@3V?$v@HPAY01$$CEH@".toList =
      .error (.malformed (.unknownStorage "EH@".toList)) := parse_of_failure? (by decide +kernel)
  have hnumber : parse "?x@@3Y0?QH".toList = .error (.malformed (.badNumber "QH".toList)) :=
    parse_of_failure? (by decide +kernel)
  obtain ⟨hmessage, htext, hmark, hmissing⟩ := message_shows_unreadable hstorage rfl
  obtain ⟨-, htext', hnone⟩ := message_shows_unreadable hnumber rfl
  exact ⟨⟨hstorage, hmessage, htext, hmark, hmissing⟩, hnumber, htext', hnone⟩

end Undecorate
