import Undecorate.Proofs.Reading.Formed
import Undecorate.Proofs.Reading.Retracing

/-!
References abbreviate.

A digit in the place of a part of a name stands for a name that was written out before. Where every
reference is written out, more names are remembered and the digits would stand for other names; but
no digit is left, and the text is read as the same symbol.
-/

namespace Undecorate

open Reading

/-- Every reference is written out. What is remembered the second time does not matter then. -/
def Reading.Respelling.writtenOut : Respelling where
  reference _ name := .part name
  Allows name := ¬ ['?', '$'] <+: name
  Tables _ _ := True
  tables_record _ _ := trivial
  reference_cases _ _ h := .inr ⟨rfl, h, fun _ => trivial⟩

/-- The text with the name and its `@` in the place of every reference. -/
def expansion (t : Text) : Text := (lexemes t).flatMap Lexeme.expanded ++ unread t

lemma text_writtenOut (ls : List Lexeme) :
    Respelling.writtenOut.text ls = ls.reverse.flatMap Lexeme.expanded := by
  refine List.flatMap_congr fun l _ => ?_
  cases l <;> rfl

lemma lexeme_writtenOut_ne (l : Lexeme) (d : Nat) (name : Text) :
    Respelling.writtenOut.lexeme l ≠ .reference d name := by
  cases l <;> exact Lexeme.noConfusion

/-- **References abbreviate**: the lexemes spell the text up to what is left unread. If no part that
is written out starts like a template, then the text in which every reference is replaced by its
name is read as the same symbol, and none of its lexemes is a reference. -/
theorem parse_expansion {t : Text} {s : Symbol} (ht : t.head? = some '?') (h : parse t = .ok s)
    (hparts : ∀ name, .part name ∈ lexemes t → ¬ ['?', '$'] <+: name) :
    (lexemes t).flatMap Lexeme.spelled ++ unread t = t ∧
    parse (expansion t) = .ok s ∧
    ∀ d name, .reference d name ∉ lexemes (expansion t) := by
  obtain ⟨u, hu, hsound⟩ := symbol_of_parse ht h
  have hd := decoder_of_ok hu
  have htext : expansion t = Respelling.writtenOut.text u.lexemes ++ u.rest := by
    rw [expansion, lexemes, unread, hd, text_writtenOut]
  have hretraces := Respelling.retraces_symbol (R := .writtenOut) (s := .start t) ht
  obtain ⟨ls, hls, hleads⟩ := hretraces s u hu
  obtain rfl : u.lexemes = ls := by simpa [State.start] using hls
  have hleads := hleads (fun name hn => hparts name (by simpa [lexemes, hd] using hn))
    (by simp [Respelling.Knows, State.start])
  obtain ⟨u', hu', -, -, hl'⟩ := hleads.again (.start (expansion t)) u.rest (Alike.refl _ _)
    ⟨rfl, rfl, trivial⟩ htext
  have hd' := decoder_of_ok hu'
  refine ⟨?_, by rw [parse, hd'], fun d name hm => ?_⟩
  · rw [lexemes, unread, hd]
    exact hsound.text
  · rw [lexemes, hd', List.mem_reverse, hl'] at hm
    obtain ⟨l, -, hl⟩ := List.mem_map.1 ((List.mem_append.1 hm).resolve_right List.not_mem_nil)
    exact lexeme_writtenOut_ne l d name hl

/-- A function with one reference in a parameter and one in a template argument. -/
def abbreviatedName : Text := "?f@ns@@YAXUfoo@1@PAV?$Box@U2@@@Z".toList

theorem parse_expansion_abbreviatedName :
    expansion abbreviatedName = "?f@ns@@YAXUfoo@ns@@PAV?$Box@Ufoo@@@@Z".toList ∧
      ∃ s, parse abbreviatedName = .ok s ∧ parse (expansion abbreviatedName) = .ok s ∧
        ∀ d name, .reference d name ∉ lexemes (expansion abbreviatedName) := by
  refine ⟨by decide +kernel, ?_⟩
  obtain ⟨s, hs, -⟩ := exists_of_test (t := abbreviatedName) (p := fun _ => true)
    (by decide +kernel)
  have hplain : ∀ l ∈ lexemes abbreviatedName, ¬ ['?', '$'] <+: l.spelled ∨
      l = .code ['?', '$'] := by
    decide +kernel
  refine ⟨s, hs, (parse_expansion (by decide +kernel) hs fun name hn hp => ?_).2⟩
  rcases hplain _ hn with h | h
  · exact h (hp.trans (List.prefix_append name ['@']))
  · cases h

end Undecorate
