import Mathlib.Algebra.BigOperators.Fin
import Undecorate.Proofs.Reading.Lookahead

/-!
The spellings of numbers.

`Spells w n` is the grammar of numbers with their values: one digit, or a run of letters with its
`@`, and in front of it a sign or none. A run may start with any number of zeros, or be empty, so a
number has many spellings; but no spelling goes on from another one. So reading is exact: where the
text starts with a spelling, the number is read and just its spelling is passed, whatever follows,
and where it starts with none, no more than a sign is passed.
-/

namespace Undecorate

/-! ### Spellings -/

namespace Numeral

/-- A letter counts from `A`, and is worth sixteen times more for each letter behind it. -/
def runValue (run : Text) : Nat :=
  ∑ i : Fin run.length, ((run.get i).toNat - 'A'.toNat) * 16 ^ (run.length - (i + 1))

/-- The text spells a number without a sign. -/
inductive SpellsMagnitude : Text → Nat → Prop
  | digit {d : Char} (hd : d.isDigit = true) : SpellsMagnitude [d] (d.toNat - '0'.toNat + 1)
  | letters {run : Text} (hrun : ∀ c ∈ run, isLetterDigit c = true) :
      SpellsMagnitude (run ++ ['@']) (runValue run)

/-- The text spells the number. -/
inductive Spells : Text → Int → Prop
  | plain {w : Text} {n : Nat} (h : SpellsMagnitude w n) : Spells w n
  | negated {w : Text} {n : Nat} (h : SpellsMagnitude w n) : Spells ('?' :: w) (-n)

/-- The text without a sign in front of it. -/
def unsigned : Text → Text
  | '?' :: r => r
  | r => r

/-- The hexadecimal digits of a number as letters, behind some zeros. Zero has no digits. -/
def letterRun (zeros n : Nat) : Text :=
  List.replicate zeros 'A' ++ (Nat.digits 16 n).reverse.map Encoding.letterDigit

/-- The magnitude with the sign of the number. -/
def signed (n : Int) (w : Text) : Text := if n < 0 then '?' :: w else w

/-! ### The value of a run -/

@[simp] lemma runValue_nil : runValue [] = 0 := rfl

@[simp] lemma runValue_cons (c : Char) (run : Text) :
    runValue (c :: run) = (c.toNat - 'A'.toNat) * 16 ^ run.length + runValue run := by
  refine (Fin.sum_univ_succ (n := run.length) _).trans ?_
  simp [runValue]

lemma foldl_eq_runValue (run : Text) (n : Nat) :
    run.foldl (fun n c => 16 * n + (c.toNat - 'A'.toNat)) n =
      n * 16 ^ run.length + runValue run := by
  induction run generalizing n with
  | nil => simp
  | cons c run ih =>
    rw [List.foldl_cons, ih, runValue_cons, List.length_cons, Nat.pow_succ]
    ring

lemma ofLetters_eq_runValue (run : Text) : ofLetters run = runValue run := by
  rw [ofLetters, foldl_eq_runValue, Nat.zero_mul, Nat.zero_add]

lemma letterRun_all (zeros n : Nat) : ∀ c ∈ letterRun zeros n, isLetterDigit c = true := by
  intro c hc
  rcases List.mem_append.1 hc with hc | hc
  · rw [List.eq_of_mem_replicate hc]
    decide
  · obtain ⟨d, hd, rfl⟩ := List.mem_map.1 hc
    exact (Encoding.letterDigit_spec d (Nat.digits_lt_base (by decide) (List.mem_reverse.1 hd))).1

/-- Zeros in front of a run do not change its value. -/
lemma runValue_letterRun (zeros n : Nat) : runValue (letterRun zeros n) = n := by
  induction zeros with
  | zero =>
    by_cases hn : n = 0
    · simp [letterRun, hn]
    · have hletters : letterRun 0 n = Encoding.letters n := by
        simp [letterRun, Encoding.letters, hn]
      rw [hletters, ← ofLetters_eq_runValue, Encoding.ofLetters_letters]
  | succ zeros ih =>
    have hcons : letterRun (zeros + 1) n = 'A' :: letterRun zeros n := rfl
    rw [hcons, runValue_cons, ih, Nat.sub_self, Nat.zero_mul, Nat.zero_add]

lemma spellsMagnitude_letterRun (zeros n : Nat) :
    SpellsMagnitude (letterRun zeros n ++ ['@']) n := by
  have h := SpellsMagnitude.letters (letterRun_all zeros n)
  rwa [runValue_letterRun] at h

lemma spellsMagnitude_digitChar {n : Nat} (hn : 1 ≤ n ∧ n ≤ 10) :
    SpellsMagnitude [Nat.digitChar (n - 1)] n := by
  obtain ⟨hdigit, hvalue⟩ := Encoding.digitChar_spec (n - 1) (by omega)
  have h := SpellsMagnitude.digit hdigit
  rwa [hvalue, Nat.sub_add_cancel hn.1] at h

lemma spells_signed {n : Int} {w : Text} (h : SpellsMagnitude w n.natAbs) :
    Spells (signed n w) n := by
  unfold signed
  split_ifs with hn
  · have hneg := Spells.negated h
    rwa [show -(n.natAbs : Int) = n by omega] at hneg
  · have hplain := Spells.plain h
    rwa [show (n.natAbs : Int) = n by omega] at hplain

end Numeral

open Numeral

/-! ### Reading without a sign -/

namespace Cursor

variable {c d : Cursor} {w r : Text} {n : Nat}

/-- What was passed between the two places of a text. -/
structure Passed (c d : Cursor) (w : Text) : Prop where
  rest : c.rest = w ++ d.rest
  before : d.before = w.reverse ++ c.before

lemma digit?_of_rest {x : Char} (hx : x.isDigit = true) (h : c.rest = x :: r) :
    c.digit? = some (x.toNat - '0'.toNat,
      { before := x :: c.before, rest := r, taken := some x }) := by
  simp [digit?, take, h, hx]

lemma letterRun?_of_rest {run : Text} (hrun : ∀ x ∈ run, isLetterDigit x = true)
    (h : c.rest = run ++ '@' :: r) :
    c.letterRun? = some (runValue run,
      { before := (run ++ ['@']).reverse ++ c.before, rest := r }) := by
  have hat : '@' ∉ run := fun hm => absurd (hrun _ hm) (by decide)
  have hall : run.all isLetterDigit = true := List.all_eq_true.2 hrun
  simp [letterRun?, readUntil?, h, Encoding.cut?_append_at hat, hall, ofLetters_eq_runValue]

/-- The first character of a run and its `@` is no digit. -/
lemma digit?_of_run {run : Text} (hrun : ∀ x ∈ run, isLetterDigit x = true)
    (h : c.rest = run ++ '@' :: r) : c.digit? = none := by
  rw [Reading.digit?_eq_none_iff, h]
  cases run with
  | nil => simp
  | cons x run => simpa using Encoding.not_isDigit_of_isLetterDigit (hrun x (by simp))

lemma magnitude?_of_spells (hw : SpellsMagnitude w n) (h : c.rest = w ++ r) :
    ∃ d, c.magnitude? = some (n, d) ∧ d.rest = r := by
  cases hw with
  | digit hx => exact ⟨_, by rw [magnitude?, digit?_of_rest hx h], rfl⟩
  | letters hrun =>
    rw [List.append_assoc, List.singleton_append] at h
    exact ⟨_, by rw [magnitude?, digit?_of_run hrun h, letterRun?_of_rest hrun h], rfl⟩

/-- A digit is taken if one comes next. -/
lemma digit?_cases (c : Cursor) :
    (∃ x r, x.isDigit = true ∧ c.rest = x :: r ∧ c.atDigit = true ∧
      c.digit? = some (x.toNat - '0'.toNat,
        { before := x :: c.before, rest := r, taken := some x })) ∨
    c.atDigit = false ∧ c.digit? = none := by
  cases hr : c.rest with
  | nil => exact .inr (by simp [atDigit, peek?, digit?, take, hr])
  | cons x r =>
    cases hx : x.isDigit with
    | true => exact .inl ⟨x, r, hx, rfl, by simp [atDigit, peek?, hr, hx], digit?_of_rest hx hr⟩
    | false => exact .inr (by simp [atDigit, peek?, digit?, take, hr, hx])

lemma letterRun?_eq_some (h : c.letterRun? = some (n, d)) :
    ∃ run r, (∀ x ∈ run, isLetterDigit x = true) ∧ n = runValue run ∧ c.rest = run ++ '@' :: r ∧
      d = { before := (run ++ ['@']).reverse ++ c.before, rest := r } := by
  unfold letterRun? readUntil? at h
  cases hcut : Text.cut? ['@'] c.rest with
  | none => simp [hcut] at h
  | some p =>
    obtain ⟨run, r⟩ := p
    simp only [hcut, Option.map_some] at h
    split at h
    · next hall =>
      cases h
      have hrest : c.rest = run ++ '@' :: r := by simpa using Text.eq_of_cut?_eq_some hcut
      exact ⟨run, r, List.all_eq_true.1 hall, ofLetters_eq_runValue run, hrest, rfl⟩
    · cases h

lemma spells_of_magnitude? (h : c.magnitude? = some (n, d)) :
    ∃ w, SpellsMagnitude w n ∧ Passed c d w := by
  rcases digit?_cases c with ⟨x, r, hx, hr, -, hdigit⟩ | ⟨-, hdigit⟩ <;>
    simp only [magnitude?, hdigit] at h
  · cases h
    exact ⟨[x], .digit hx, hr, rfl⟩
  · obtain ⟨run, r, hrun, rfl, hr, rfl⟩ := letterRun?_eq_some h
    exact ⟨run ++ ['@'], .letters hrun, by simpa using hr, rfl⟩

/-! ### Reading with a sign -/

/-- A magnitude does not start with the sign. -/
lemma head?_of_spellsMagnitude (hw : SpellsMagnitude w n) (r : Text) :
    (w ++ r).head? ≠ some '?' := by
  cases hw with
  | digit hx =>
    simp only [List.cons_append, List.head?_cons, ne_eq, Option.some.injEq]
    rintro rfl
    exact absurd hx (by decide)
  | @letters run hrun =>
    cases run with
    | nil => simp
    | cons x run =>
      simp only [List.cons_append, List.head?_cons, ne_eq, Option.some.injEq]
      rintro rfl
      exact absurd (hrun '?' (by simp)) (by decide)

lemma number_of_spells {m : Int} (hw : Spells w m) (h : c.rest = w ++ r) :
    ∃ d, c.number = (some m, d) ∧ d.rest = r := by
  cases hw with
  | plain hw =>
    obtain ⟨d, hd, hr⟩ := magnitude?_of_spells hw h
    have hsign := head?_of_spellsMagnitude hw r
    rw [← h] at hsign
    exact ⟨d, (Reading.number_eq_some_iff_of_no_sign hsign).2 ⟨_, hd, rfl⟩, hr⟩
  | @negated w n hw =>
    obtain ⟨d, hd, hr⟩ := magnitude?_of_spells (r := r)
      (c := { before := '?' :: c.before, rest := w ++ r }) hw rfl
    exact ⟨d, (Reading.number_eq_some_iff_of_sign h).2 ⟨_, hd, rfl⟩, hr⟩

lemma spells_of_number {m : Int} (h : c.number = (some m, d)) : ∃ w, Spells w m ∧ Passed c d w := by
  by_cases hsign : c.rest.head? = some '?'
  · obtain ⟨r, hr⟩ := List.head?_eq_some_iff.1 hsign
    obtain ⟨n, hn, rfl⟩ := (Reading.number_eq_some_iff_of_sign hr).1 h
    obtain ⟨w, hw, hrest, hbefore⟩ := spells_of_magnitude? hn
    change r = w ++ d.rest at hrest
    exact ⟨'?' :: w, .negated hw, by rw [hr, hrest, List.cons_append], by simp [hbefore]⟩
  · obtain ⟨n, hn, rfl⟩ := (Reading.number_eq_some_iff_of_no_sign hsign).1 h
    obtain ⟨w, hw, hpassed⟩ := spells_of_magnitude? hn
    exact ⟨w, .plain hw, hpassed⟩

/-- Where no number is read, only a sign is passed. -/
lemma rest_of_number_eq_none (h : c.number = (none, d)) : d.rest = unsigned c.rest := by
  have hd : d = (c.consume? ['?']).getD c := by
    unfold number at h
    simp only at h
    split at h <;> cases h
    rfl
  rw [hd]
  obtain ⟨before, rest, taken⟩ := c
  cases rest with
  | nil => rfl
  | cons x r =>
    by_cases hx : x = '?'
    · subst hx
      rfl
    · have hno : Text.behind? ['?'] (x :: r) = none := by simp [Text.behind?, Ne.symm hx]
      have hplain : unsigned (x :: r) = x :: r := by
        unfold unsigned
        split
        · next heq => exact absurd (List.cons.inj heq).1 hx
        · rfl
      simp [consume?, hno, hplain]

end Cursor

open Reading

lemma numeralAs_of_spells (lexeme : Text → Int → Lexeme) {s : State} {w r : Text} {n : Int}
    (hw : Spells w n) (h : s.rest = w ++ r) :
    ∃ u, numeralAs lexeme s = .ok n u ∧ u.rest = r ∧
      u.cursor.before = w.reverse ++ s.cursor.before := by
  obtain ⟨c, hc, hr⟩ := Cursor.number_of_spells (c := s.cursor) hw h
  obtain ⟨v, -, hrest, hbefore⟩ := Cursor.spells_of_number hc
  -- both spellings are in front of the same text
  have hv : v ++ r = w ++ r := by rw [← hr, ← hrest, hr]; exact h
  refine ⟨s.pass (lexeme (s.upTo c) n) c, by simp only [numeralAs, hc], hr, ?_⟩
  rw [← List.append_cancel_right hv]
  exact hbefore

lemma numeralAs_cases_of_spelling (lexeme : Text → Int → Lexeme) (s : State) :
    (∃ w n r, Spells w n ∧ s.rest = w ++ r) ∨
    ∃ u, numeralAs lexeme s = .error (.malformed (.badNumber (unsigned s.rest))) u ∧
      u.rest = unsigned s.rest := by
  cases hnumber : s.cursor.number with
  | mk o c =>
    cases o with
    | some n =>
      obtain ⟨w, hw, hpassed⟩ := Cursor.spells_of_number hnumber
      exact .inl ⟨w, n, c.rest, hw, hpassed.rest⟩
    | none =>
      have hrest : c.rest = unsigned s.rest := Cursor.rest_of_number_eq_none hnumber
      refine .inr ⟨s.pass (.code (s.upTo c)) c, ?_, hrest⟩
      simp only [numeralAs, hnumber, hrest]

/-- **Numbers are read as they are spelled**: a number is read exactly if the text starts with a
spelling of one. Then it is that number, and just its spelling is passed. Otherwise no more than a
sign is passed, and the text behind it is a bad number. Every number has spellings with any number
of zeros in front, and those from one to ten have a digit besides. -/
theorem numeralAs_reads_spelling (lexeme : Text → Int → Lexeme) (s : State) :
    ((∃ n u, numeralAs lexeme s = .ok n u) ↔ ∃ w n r, Spells w n ∧ s.rest = w ++ r) ∧
    (∀ w n r, Spells w n → s.rest = w ++ r →
      ∃ u, numeralAs lexeme s = .ok n u ∧ u.rest = r ∧
        u.cursor.before = w.reverse ++ s.cursor.before) ∧
    ((¬ ∃ w n r, Spells w n ∧ s.rest = w ++ r) →
      ∃ u, numeralAs lexeme s = .error (.malformed (.badNumber (unsigned s.rest))) u ∧
        u.rest = unsigned s.rest) ∧
    ∀ n : Int, (∀ zeros, Spells (signed n (letterRun zeros n.natAbs ++ ['@'])) n) ∧
      (1 ≤ n.natAbs ∧ n.natAbs ≤ 10 → Spells (signed n [Nat.digitChar (n.natAbs - 1)]) n) := by
  have hreads : ∀ w n r, Spells w n → s.rest = w ++ r → ∃ u, numeralAs lexeme s = .ok n u ∧
      u.rest = r ∧ u.cursor.before = w.reverse ++ s.cursor.before :=
    fun w n r hw h => numeralAs_of_spells lexeme hw h
  refine ⟨⟨?_, ?_⟩, hreads, fun hnone => ?_, fun n => ⟨fun zeros => ?_, fun hn => ?_⟩⟩
  · rintro ⟨n, u, hok⟩
    rcases numeralAs_cases_of_spelling lexeme s with h | ⟨v, herror, -⟩
    · exact h
    · rw [herror] at hok
      cases hok
  · rintro ⟨w, n, r, hw, h⟩
    obtain ⟨u, hu, -⟩ := hreads w n r hw h
    exact ⟨n, u, hu⟩
  · exact (numeralAs_cases_of_spelling lexeme s).resolve_left hnone
  · exact spells_signed (spellsMagnitude_letterRun zeros n.natAbs)
  · exact spells_signed (spellsMagnitude_digitChar hn)

/-- Minus two as a run with two zeros in front and as a digit, and a sign with no number behind
it. -/
theorem numeralAs_reads_spelling_negative :
    (∃ u, numeral (.start "?AAC@H".toList) = .ok (-2) u ∧ u.rest = ['H']) ∧
    (∃ u, numeral (.start "?1H".toList) = .ok (-2) u ∧ u.rest = ['H']) ∧
    ∃ u, numeral (.start "?Q".toList) = .error (.malformed (.badNumber ['Q'])) u ∧
      u.rest = ['Q'] := by
  obtain ⟨-, hrun, -, hspells⟩ := numeralAs_reads_spelling (fun w _ => .code w)
    (.start "?AAC@H".toList)
  obtain ⟨-, hdigit, -⟩ := numeralAs_reads_spelling (fun w _ => .code w) (.start "?1H".toList)
  obtain ⟨-, -, hbad, -⟩ := numeralAs_reads_spelling (fun w _ => .code w) (.start "?Q".toList)
  obtain ⟨hletters, hdigits⟩ := hspells (-2)
  obtain ⟨u, hu, hr, -⟩ := hrun _ (-2) ['H'] (hletters 2) (by decide +kernel)
  obtain ⟨v, hv, hr', -⟩ := hdigit _ (-2) ['H'] (hdigits (by decide)) (by decide +kernel)
  refine ⟨⟨u, hu, hr⟩, ⟨v, hv, hr'⟩, hbad ?_⟩
  rintro ⟨w, n, r, hw, h⟩
  cases hw with
  | plain hw => exact Cursor.head?_of_spellsMagnitude hw r (by rw [← h]; rfl)
  | @negated w n hw =>
    have htext : 'Q' :: [] = w ++ r := (List.cons.inj h).2
    cases hw with
    | digit hd =>
      rw [← (List.cons.inj htext).1] at hd
      exact absurd hd (by decide)
    | @letters run hrun =>
      cases run with
      | nil => exact absurd (List.cons.inj htext).1 (by decide)
      | cons x run =>
        have hx := hrun x (by simp)
        rw [← (List.cons.inj htext).1] at hx
        exact absurd hx (by decide)

end Undecorate
