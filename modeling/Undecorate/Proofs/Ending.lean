import Undecorate.Proofs.Agreement
import Undecorate.Proofs.Declaration.Extent

/-!
How the command ends for one symbol.

It is to print the declaration, or to name the error and exit with 1. It does one of the two unless
it comes to a number that is too long to be written in decimal, or to a declaration that is too
deep. The number is a negative number of dimensions, which the error would name, or an extent, which
the declaration would show. Then it breaks off with nothing written.
-/

namespace Undecorate

open CommandLine

/-- The command has printed the declaration, or what is wrong with the text. -/
def CommandLine.Documented (t : Text) (r : Transcript) : Prop :=
  (∃ s d, parse t = .ok s ∧ s.display = .ok d ∧ r = { out := d ++ ['\n'], ending := .exit 0 }) ∨
  ∃ why, parse t = .error (.malformed why) ∧
    r = { err := why.message ++ ['\n'], ending := .exit 1 }

/-- Everything that is to be written for the text can be written, with no more nested calls than
there may be. -/
def AllWritable (t : Text) : Prop :=
  ¬ ReachesOverlong t ∧ ∀ s, parse t = .ok s →
    (∀ n ∈ s.type.extents true, Writable n) ∧ s.callDepth ≤ callLimit

/-- What may break the command off. -/
def breakdowns : List Breakdown :=
  [.reading .numberTooLong, .writing .numberTooLong, .writing .tooDeep]

/-- A symbol that was read has a declaration exactly if the extents in it can be written. -/
lemma render_eq_ok_iff_of_parse {t : Text} {s : Symbol} (h : parse t = .ok s) :
    (∃ d, s.render = .ok d) ↔ ∀ n ∈ s.type.extents true, Writable n := by
  by_cases ht : t.head? = some '?'
  · exact render_eq_ok_iff (formed_of_parse ht h)
  · -- an identifier has no extents, and is its own declaration
    rw [parse_of_identifier ht] at h
    cases h
    refine iff_of_true ?_ (by simp [TypeTree.leaf, TypeTree.extents])
    cases hr : Symbol.render { path := [t], type := .leaf {} } with
    | ok d => exact ⟨d, rfl⟩
    | error f => cases hr

/-- A symbol that was read is given out exactly if its extents can be written and its declaration is
not too deep. -/
lemma display_eq_ok_iff_of_parse {t : Text} {s : Symbol} (h : parse t = .ok s) :
    (∃ d, s.display = .ok d) ↔
      (∀ n ∈ s.type.extents true, Writable n) ∧ s.callDepth ≤ callLimit := by
  rw [← render_eq_ok_iff_of_parse h]
  constructor
  · rintro ⟨d, hd⟩
    refine ⟨⟨d, render_of_display hd⟩, Nat.not_lt.1 fun hlt => ?_⟩
    rw [Symbol.display, displayWithin_of_lt hlt] at hd
    cases hd
  · rintro ⟨⟨d, hd⟩, hle⟩
    exact ⟨d, (displayWithin_of_le hle).trans hd⟩

/-- The ways in which the command ends, and what they depend on. -/
lemma ending_cases (t : Text) :
    Documented t (answer t false) ∧ AllWritable t ∨
    ¬ AllWritable t ∧ ∃ b ∈ breakdowns, answer t false = { ending := .brokenOff b } := by
  rcases parse_cases t with ⟨s, h, hno⟩ | ⟨why, h, hno⟩ | ⟨h, hyes⟩
  · have hiff := display_eq_ok_iff_of_parse h
    have hfails : ∀ {f : Fault}, s.display = .error f → ¬ AllWritable t := by
      intro f hf hall
      obtain ⟨d, hd⟩ := hiff.2 (hall.2 s h)
      rw [hf] at hd
      cases hd
    rcases display_cases h with ⟨d, hd, -⟩ | ⟨hd, -⟩ | ⟨hd, -⟩
    · refine .inl ⟨.inl ⟨s, d, h, hd, answer_of_declaration h hd⟩, hno, fun s' h' => ?_⟩
      cases h.symm.trans h'
      exact hiff.1 ⟨d, hd⟩
    · exact .inr ⟨hfails hd, _, by simp [breakdowns], answer_of_unwritable h hd⟩
    · exact .inr ⟨hfails hd, _, by simp [breakdowns], answer_of_unwritable h hd⟩
  · refine .inl ⟨.inr ⟨why, h, answer_of_malformed h⟩, hno, fun s hs => ?_⟩
    rw [h] at hs
    cases hs
  · exact .inr ⟨fun hall => hall.1 hyes, _, by simp [breakdowns], answer_of_numberTooLong h⟩

lemma not_documented_of_brokenOff {t : Text} {r : Transcript} {b : Breakdown}
    (h : r.ending = .brokenOff b) : ¬ Documented t r := by
  rintro (⟨s, d, -, -, rfl⟩ | ⟨why, -, rfl⟩) <;> cases h

/-- **The endings of the command**: for one symbol it prints the declaration or the error exactly if
reading comes to no negative number of dimensions that is too long, the declaration shows no extent
that is, and it is not too deep. Otherwise it breaks off, and nothing has been written. -/
theorem documented_iff_allWritable {t : Text} (ht : t.head? ≠ some '-') :
    (Documented t (run [t]) ↔ AllWritable t) ∧
    (¬ AllWritable t → ∃ b ∈ breakdowns, run [t] = { ending := .brokenOff b }) := by
  rw [run_symbol ht]
  rcases ending_cases t with ⟨hdoc, hall⟩ | ⟨hnot, b, hb, ha⟩
  · exact ⟨iff_of_true hdoc hall, fun hnot => absurd hall hnot⟩
  · have hno : ¬ Documented t (answer t false) := not_documented_of_brokenOff (by rw [ha])
    exact ⟨iff_of_false hno hnot, fun _ => ⟨b, hb, ha⟩⟩

/-- A function whose result points to an array of `16 ^ 3572` elements, a number of 4302 digits. -/
def hiddenExtentName : Text := "?f@@YAPAY0B".toList ++ List.replicate 3572 'A' ++ "@HX@Z".toList

/-- The extent does not stand in the declaration, so that the command succeeds. -/
theorem documented_iff_allWritable_hiddenExtent :
    hiddenExtentName.head? ≠ some '-' ∧ AllWritable hiddenExtentName ∧
      Documented hiddenExtentName (run [hiddenExtentName]) := by
  obtain ⟨s, hs, htest⟩ := exists_of_test (t := hiddenExtentName)
    (p := fun s => decide (s.type.extents true = [] ∧ s.callDepth ≤ callLimit)) (by decide +kernel)
  obtain ⟨hnone, hcalls⟩ := of_decide_eq_true htest
  have hhead : hiddenExtentName.head? ≠ some '-' := by decide +kernel
  have hall : AllWritable hiddenExtentName := by
    refine ⟨fun ho => ?_, fun s' h' => ?_⟩
    · rcases parse_cases hiddenExtentName with ⟨-, -, hno⟩ | ⟨why, h, -⟩ | ⟨h, -⟩
      · exact hno ho
      · cases hs.symm.trans h
      · cases hs.symm.trans h
    · cases hs.symm.trans h'
      simp [hnone, hcalls]
  exact ⟨hhead, hall, (documented_iff_allWritable hhead).1.2 hall⟩

/-- An array of `16 ^ 3572` elements. -/
def longExtentName : Text := "?x@@3Y0B".toList ++ List.replicate 3572 'A' ++ "@H".toList

/-- Here the extent is a part of the declaration, and the command breaks off. -/
theorem not_documented_longExtent :
    longExtentName.head? ≠ some '-' ∧
      (run [longExtentName]).ending = .brokenOff (.writing .numberTooLong) ∧
      ¬ Documented longExtentName (run [longExtentName]) := by
  have hend : (run [longExtentName]).ending = .brokenOff (.writing .numberTooLong) := by
    decide +kernel
  exact ⟨by decide +kernel, hend, not_documented_of_brokenOff hend⟩

end Undecorate
