import Undecorate.Proofs.LongestRun
import Undecorate.Proofs.Declaration.Character

/-!
Words in a text, and what becomes of them when a text is written in pieces.

A word is a longest run of ASCII letters, digits and underscores. Where a word goes on from one
piece to the next, two words become one; otherwise the words of the text are those of its pieces. A
gap keeps a word apart from a letter before it, but not from a digit or an underscore: these are
bare.
-/

namespace Undecorate

open Script

/-! ### Words of a text -/

def isWordChar (c : Char) : Bool := c.isAlphanum || c == '_'

/-- The characters of a word that the writer does not take for letters. -/
def isBare (c : Char) : Bool := c.isDigit || c == '_'

namespace Text

/-- The longest runs of word characters, in order. -/
def words (t : Text) : List Text :=
  (t.splitBy fun a b => isWordChar a && isWordChar b).filter fun w => w.all isWordChar

def endsWord (t : Text) : Bool := t.getLast?.any isWordChar

def endsBare (t : Text) : Bool := t.getLast?.any isBare

/-- A word at the end of `t` goes on in `u`. -/
def meets (t u : Text) : Bool := t.endsWord && u.head?.any isWordChar

/-- The text is one word. -/
def IsWord (t : Text) : Prop := t ≠ [] ∧ t.all isWordChar = true

instance (t : Text) : Decidable t.IsWord := inferInstanceAs (Decidable (_ ∧ _))

lemma words_eq_longestRuns (t : Text) : t.words = longestRuns isWordChar t := rfl

lemma words_append {t u : Text} (h : t.meets u = false) : (t ++ u).words = t.words ++ u.words := by
  refine longestRuns_append fun x hx y hy => ?_
  simpa [meets, endsWord, Option.mem_def.1 hx, Option.mem_def.1 hy] using h

lemma length_words_cons (c : Char) (t : Text) :
    (words (c :: t)).length =
      (words t).length + (isWordChar c && !t.head?.any isWordChar).toNat := by
  rw [words_eq_longestRuns, words_eq_longestRuns, length_longestRuns_cons]

/-- Where a word goes on, two become one. -/
lemma length_words_append (t u : Text) :
    (t ++ u).words.length + (meets t u).toNat = t.words.length + u.words.length := by
  induction t with
  | nil => simp [words, meets, endsWord]
  | cons c t ih =>
    rw [List.cons_append, length_words_cons, length_words_cons]
    cases t with
    | nil =>
      have hm : meets [c] u = (isWordChar c && u.head?.any isWordChar) := by simp [meets, endsWord]
      rw [hm, List.nil_append]
      cases isWordChar c <;> cases u.head?.any isWordChar <;> simp [words, Nat.add_comm]
    | cons b t =>
      have hm : meets (c :: b :: t) u = meets (b :: t) u := by simp [meets, endsWord]
      rw [hm]
      simp only [List.cons_append, List.head?_cons] at ih ⊢
      omega

end Text

lemma toNat_lt_of_isWordChar {c : Char} (h : isWordChar c = true) : c.toNat < 0x80 := by
  delta isWordChar Char.isAlphanum Char.isAlpha Char.isUpper Char.isLower Char.isDigit at h
  simp only [Bool.or_eq_true, Bool.and_eq_true, decide_eq_true_eq, beq_iff_eq,
    UInt32.le_iff_toNat_le] at h
  rcases h with ((h | h) | h) | rfl
  · exact Nat.lt_of_le_of_lt h.2 (by decide)
  · exact Nat.lt_of_le_of_lt h.2 (by decide)
  · exact Nat.lt_of_le_of_lt h.2 (by decide)
  · decide

/-- A character of a word is a letter or bare, and not both. -/
lemma isLetter_eq_not_isBare {c : Char} (h : isWordChar c = true) : isLetter c = !isBare c := by
  have hascii : ∀ n < 0x80, isWordChar (Char.ofNat n) = true →
      isLetter (Char.ofNat n) = !isBare (Char.ofNat n) := by decide
  have := hascii c.toNat (toNat_lt_of_isWordChar h)
  rw [Char.ofNat_toNat] at this
  exact this h

lemma isWordChar_of_isBare {c : Char} (h : isBare c = true) : isWordChar c = true := by
  simp only [isBare, Bool.or_eq_true] at h
  rcases h with h | h <;> simp [isWordChar, Char.isAlphanum, h]

namespace Text

lemma meets_of_left {w t : Text} (h : w.endsWord = false) : w.meets t = false := by
  simp [meets, h]

lemma meets_of_right {c : Char} (h : isWordChar c = false) (w t : Text) :
    w.meets (c :: t) = false := by
  simp [meets, h]

lemma endsWord_append_singleton (w : Text) (c : Char) : (w ++ [c]).endsWord = isWordChar c := by
  simp [endsWord]

lemma endsBare_append_of_ne {t : Text} (h : t ≠ []) (w : Text) :
    (w ++ t).endsBare = t.endsBare := by
  simp [endsBare, List.getLast?_append, List.getLast?_eq_some_getLast h]

lemma endsBare_of_not_endsWord {w : Text} (h : w.endsWord = false) : w.endsBare = false := by
  unfold endsWord at h
  unfold endsBare
  cases hw : w.getLast? with
  | none => rfl
  | some c =>
    rw [hw] at h
    by_contra hb
    have := isWordChar_of_isBare (Bool.not_eq_false _ ▸ hb)
    simp_all

end Text

/-! ### Pieces -/

def Piece.words : Piece → List Text
  | .text t => t.words
  | .gap => []

/-- What has been written once the pieces are added to `w`. -/
def written (w : Text) (pieces : List Piece) : Text := w ++ layout (endsInLetter false w) pieces

/-- What a gap makes of the text before it. -/
def afterGap (w : Text) : Text := if endsInLetter false w then w ++ [' '] else w

/-- Every gap is there for a word. None of these words has a word character right before it. -/
def SetOff (w : Text) (pieces : List Piece) : Prop :=
  ∀ before after, pieces = before ++ .gap :: after →
    (written w (before ++ [.gap])).endsWord = false

/-- No word goes on from one piece to the next. -/
def Apart : Text → List Piece → Prop
  | _, [] => True
  | w, .text t :: pieces => w.meets t = false ∧ Apart (w ++ t) pieces
  | w, .gap :: pieces => Apart (afterGap w) pieces

section Pieces

variable {w t : Text} {p q : List Piece}

@[simp] lemma written_nil : written w [] = w := by simp [written, layout]

@[simp] lemma written_text : written w (.text t :: p) = written (w ++ t) p := by
  simp [written, layout, endsInLetter_append]

@[simp] lemma written_gap : written w (.gap :: p) = written (afterGap w) p := by
  unfold written afterGap
  cases h : endsInLetter false w with
  | true =>
    have hspace : endsInLetter false (w ++ [' ']) = false := by
      rw [endsInLetter_append]
      rfl
    simp [layout, hspace]
  | false => simp [layout, h]

lemma written_append : written w (p ++ q) = written (written w p) q := by
  induction p generalizing w with
  | nil => simp
  | cons piece p ih => cases piece <;> simp [ih]

/-- Behind a gap only a bare character is left of a word. -/
lemma endsWord_afterGap : (afterGap w).endsWord = w.endsBare := by
  unfold afterGap Text.endsWord Text.endsBare
  cases hw : w.getLast? with
  | none => simp [endsInLetter, hw]
  | some c =>
    by_cases hl : isLetter c = true
    · have hbare : isBare c = false := by
        by_contra hb
        have hb := Bool.not_eq_false _ ▸ hb
        have := isLetter_eq_not_isBare (isWordChar_of_isBare hb)
        simp_all
      have hspace : isWordChar ' ' = false := by decide
      simp [endsInLetter, hw, hl, hbare, hspace]
    · have hbare : isWordChar c = isBare c := by
        cases hb : isBare c with
        | true => exact isWordChar_of_isBare hb
        | false =>
          by_contra hc
          have hc := Bool.not_eq_false _ ▸ hc
          have := isLetter_eq_not_isBare hc
          simp_all
      simp [endsInLetter, hw, hl, hbare]

lemma setOff_nil : SetOff w [] := by simp [SetOff]

lemma setOff_text : SetOff w (.text t :: p) ↔ SetOff (w ++ t) p := by
  constructor
  · intro h before after hp
    simpa using h (.text t :: before) after (by simp [hp])
  · intro h before after hp
    rcases before with _ | ⟨piece, before⟩
    · simp at hp
    · simp only [List.cons_append, List.cons.injEq] at hp
      obtain ⟨rfl, hp⟩ := hp
      simpa using h before after hp

lemma setOff_gap : SetOff w (.gap :: p) ↔ w.endsBare = false ∧ SetOff (afterGap w) p := by
  constructor
  · intro h
    refine ⟨?_, fun before after hp => ?_⟩
    · simpa [endsWord_afterGap] using h [] p rfl
    · simpa using h (.gap :: before) after (by simp [hp])
  · rintro ⟨hw, h⟩ before after hp
    rcases before with _ | ⟨piece, before⟩
    · simpa [endsWord_afterGap] using hw
    · simp only [List.cons_append, List.cons.injEq] at hp
      obtain ⟨rfl, hp⟩ := hp
      simpa using h before after hp

lemma setOff_append : SetOff w (p ++ q) ↔ SetOff w p ∧ SetOff (written w p) q := by
  induction p generalizing w with
  | nil => simp [setOff_nil]
  | cons piece p ih =>
    cases piece with
    | text t => simp [setOff_text, ih]
    | gap => simp [setOff_gap, ih, and_assoc]

lemma apart_append : Apart w (p ++ q) ↔ Apart w p ∧ Apart (written w p) q := by
  induction p generalizing w with
  | nil => simp [Apart]
  | cons piece p ih =>
    cases piece with
    | text t => simp [Apart, ih, and_assoc]
    | gap => simp [Apart, ih]

lemma words_afterGap : (afterGap w).words = w.words := by
  unfold afterGap
  split_ifs
  · have hspace : w.meets [' '] = false := by
      have : isWordChar ' ' = false := by decide
      simp [Text.meets, this]
    rw [Text.words_append hspace]
    have : Text.words [' '] = [] := by decide
    rw [this, List.append_nil]
  · rfl

/-- Pieces that stand apart keep their words. -/
lemma words_written (h : Apart w p) : (written w p).words = w.words ++ p.flatMap Piece.words := by
  induction p generalizing w with
  | nil => simp
  | cons piece p ih =>
    cases piece with
    | text t =>
      rw [written_text, ih h.2, Text.words_append h.1, List.flatMap_cons, List.append_assoc]
      rfl
    | gap =>
      rw [written_gap, ih h, words_afterGap]
      rfl

/-- Words never get more, and fewer if two pieces do not stand apart. -/
lemma length_words_written (w : Text) (p : List Piece) :
    (written w p).words.length ≤ w.words.length + (p.flatMap Piece.words).length ∧
    (¬ Apart w p →
      (written w p).words.length < w.words.length + (p.flatMap Piece.words).length) := by
  induction p generalizing w with
  | nil => simp [Apart]
  | cons piece p ih =>
    cases piece with
    | text t =>
      obtain ⟨hle, hlt⟩ := ih (w ++ t)
      have hwords := Text.length_words_append w t
      rw [written_text, List.flatMap_cons, List.length_append]
      change _ ≤ _ + (t.words.length + _) ∧ (_ → _ < _ + (t.words.length + _))
      refine ⟨by omega, fun hn => ?_⟩
      cases hm : w.meets t with
      | true =>
        rw [hm, Bool.toNat_true] at hwords
        omega
      | false =>
        have := hlt fun ha => hn ⟨hm, ha⟩
        omega
    | gap =>
      have := ih (afterGap w)
      rw [words_afterGap] at this
      rw [written_gap]
      exact this

lemma words_written_iff :
    (written w p).words = w.words ++ p.flatMap Piece.words ↔ Apart w p := by
  refine ⟨fun h => ?_, words_written⟩
  by_contra hn
  have := (length_words_written w p).2 hn
  rw [h, List.length_append] at this
  omega

end Pieces

end Undecorate
