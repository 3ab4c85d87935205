import Undecorate.Proofs.Reading.Formed
import Undecorate.Proofs.Declaration.Character

/-!
How decoding can fail.

Reading ends with a symbol, with a malformed text, or at a number of dimensions that is negative
and too long to be written. The reader never puts back what it has not just taken, never makes a
node that does not fit, and repeats nothing without end. A symbol that was read lacks no inner
type, so that writing it can fail at an extent of too many digits only.
-/

namespace Undecorate

open Reading

/-- Reading the text comes to a number of dimensions that is negative and too long: the lexemes in
front of it spell the text up to there, and the number is spelled `w`. -/
def ReachesOverlong (t : Text) : Prop :=
  ∃ (later earlier : List Lexeme) (w r : Text) (n : Int),
    (Decoder.parse {} t).2.state.lexemes = later ++ Lexeme.dimension w n :: earlier ∧
    t = earlier.reverse.flatMap Lexeme.spelled ++ w ++ r ∧
    (Cursor.ofText (w ++ r)).number.1 = some n ∧ Overlong n

/-- Every message starts with a label of its own. -/
lemma message_ne_nil (why : Malformed) : why.message ≠ [] := by
  have hlabel : ∀ label : String, label ≠ "" → label.toList ≠ [] := by simp
  have hmore : ∀ a b : Text, a ≠ [] → a ++ b ≠ [] := by simp +contextual
  cases why with
  | danglingReference i n =>
    exact hmore _ _ (hmore _ _ (hmore _ _ (hmore _ _ (hlabel _ (by decide)))))
  | nestedTooDeep rest => exact hmore _ _ (hmore _ _ (hmore _ _ (hlabel _ (by decide))))
  | unterminatedParams => exact hlabel _ (by decide)
  | _ => exact hmore _ _ (hlabel _ (by decide))

lemma not_reachesOverlong {t : Text}
    (h : ∀ l ∈ (Decoder.parse {} t).2.state.lexemes, l.Fits) : ¬ ReachesOverlong t := by
  rintro ⟨later, earlier, w, r, n, hl, -, -, ho⟩
  exact h (.dimension w n) (by simp [hl]) ho

lemma reachesOverlong_of_fails {t : Text} {u : State}
    (hd : Decoder.parse {} t = (.error .numberTooLong, { state := u }))
    (h : Fails t .numberTooLong u) : ReachesOverlong t := by
  obtain ⟨htext, w, n, ls, hl, hv, ho⟩ := h
  refine ⟨[], ls, w, u.rest, n, by rw [hd]; exact hl, ?_, hv, ho⟩
  rw [← htext, State.spelled, hl]
  simp [Lexeme.spelled]

/-- The outcome of reading, with the state that it leaves behind. -/
lemma parse_cases (t : Text) :
    (∃ s, parse t = .ok s ∧ ¬ ReachesOverlong t) ∨
    (∃ why, parse t = .error (.malformed why) ∧ ¬ ReachesOverlong t) ∨
    parse t = .error .numberTooLong ∧ ReachesOverlong t := by
  rcases decoder_cases t with ⟨s, u, hd, hfits, -⟩ | ⟨f, u, hd, hf⟩
  · exact .inl ⟨s, by rw [parse, hd], not_reachesOverlong (by rw [hd]; exact hfits)⟩
  · cases f with
    | malformed why =>
      exact .inr (.inl ⟨why, by rw [parse, hd], not_reachesOverlong (by rw [hd]; exact hf.1)⟩)
    | numberTooLong => exact .inr (.inr ⟨by rw [parse, hd], reachesOverlong_of_fails hd hf⟩)
    | refused t => exact absurd hf id
    | misfit m => exact absurd hf id
    | endless => exact absurd hf id

/-- What keeps a symbol that was read, or its type, from being written. -/
lemma oversized_of_error {t : Text} {s : Symbol} (h : parse t = .ok s) {f : Fault}
    (hf : s.render = .error f ∨ s.type.render = .error f) :
    f = .numberTooLong ∧ ∃ a ∈ s.type.walk, a.Oversized := by
  by_cases ht : t.head? = some '?'
  · have hs := formed_of_parse ht h
    have hP : ∀ a ∈ s.type.walk, a.Oversized →
        Fault.numberTooLong = .numberTooLong ∧ ∃ a ∈ s.type.walk, a.Oversized :=
      fun a ha ho => ⟨rfl, a, ha, ho⟩
    rcases hf with hf | hf
    · exact (keeps_declare (P := fun f => f = .numberTooLong ∧ ∃ a ∈ s.type.walk, a.Oversized) hs
        hP).of_render_eq_error hf
    · obtain ⟨hl, hr⟩ := clean_of_symbol
        (P := fun f => f = .numberTooLong ∧ ∃ a ∈ s.type.walk, a.Oversized) hs hP
      exact (hl.append hr).of_render_eq_error hf
  · rw [parse_of_identifier ht] at h
    cases h
    rcases hf with hf | hf <;> cases hf

/-- **The ways to fail**: reading ends with a symbol, with the message of a malformed text, or at a
number of dimensions that is negative and too long, and it ends there whenever it comes to one. A
symbol that was read and its type can be written unless an extent has too many digits. -/
theorem parse_outcome (t : Text) :
    ((∃ s, parse t = .ok s) ∨
      (∃ why, parse t = .error (.malformed why) ∧ why.message ≠ []) ∨
      parse t = .error .numberTooLong) ∧
    (parse t = .error .numberTooLong ↔ ReachesOverlong t) ∧
    ∀ s, parse t = .ok s → ∀ written ∈ [s.render, s.type.render],
      written ≠ .error .missingInner ∧
      (written = .error .numberTooLong → ∃ a ∈ s.type.walk, a.Oversized) := by
  refine ⟨?_, ?_, ?_⟩
  · rcases parse_cases t with ⟨s, h, -⟩ | ⟨why, h, -⟩ | ⟨h, -⟩
    · exact .inl ⟨s, h⟩
    · exact .inr (.inl ⟨why, h, message_ne_nil why⟩)
    · exact .inr (.inr h)
  · rcases parse_cases t with ⟨s, h, hno⟩ | ⟨why, h, hno⟩ | ⟨h, hyes⟩
    · simp [h, hno]
    · simp [h, hno]
    · simp [h, hyes]
  · intro s h written hw
    have hor : ∀ f, written = .error f → s.render = .error f ∨ s.type.render = .error f := by
      simp only [List.mem_cons, List.not_mem_nil, or_false] at hw
      rcases hw with rfl | rfl
      · exact fun f hf => .inl hf
      · exact fun f hf => .inr hf
    refine ⟨fun hf => ?_, fun hf => (oversized_of_error h (hor _ hf)).2⟩
    exact absurd (oversized_of_error h (hor _ hf)).1 (by decide)

/-- An array whose number of dimensions is `-16 ^ 3572`, which has 4302 digits. -/
def overlongName : Text := "?x@@3Y?B".toList ++ List.replicate 3572 'A' ++ ['@']

theorem parse_outcome_cases :
    (∃ s, parse "?x@@3PAY01H".toList = .ok s ∧ s.render ≠ .error .missingInner) ∧
      parse overlongName = .error .numberTooLong ∧ ReachesOverlong overlongName := by
  constructor
  · obtain ⟨s, hs, -⟩ := exists_of_test (t := "?x@@3PAY01H".toList) (p := fun _ => true)
      (by decide +kernel)
    exact ⟨s, hs, ((parse_outcome _).2.2 s hs s.render (by simp)).1⟩
  · have hend : (match parse overlongName with
        | .error f => decide (f = .numberTooLong)
        | .ok _ => false) = true := by decide +kernel
    have hlong : parse overlongName = .error .numberTooLong := by
      cases hp : parse overlongName with
      | ok s =>
        rw [hp] at hend
        cases hend
      | error f =>
        rw [hp] at hend
        rw [of_decide_eq_true hend]
    exact ⟨hlong, (parse_outcome overlongName).2.1.1 hlong⟩

end Undecorate
