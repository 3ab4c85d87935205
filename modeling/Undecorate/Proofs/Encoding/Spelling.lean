import Mathlib.Data.Nat.Digits.Defs
import Undecorate.Proofs.Reading.Step

/-!
The spelling of numbers and of qualified names, and that it reads back.

A number from one to ten is a digit, any other is its hexadecimal digits as the letters `A` to
`P`; a name is written out part by part, without references.
-/

namespace Undecorate.Encoding

open Reading

/-! ### Numbers -/

def letterDigit (d : Nat) : Char := Char.ofNat ('A'.toNat + d)

/-- Hexadecimal digits as letters, most significant first. -/
def letters (n : Nat) : Text :=
  if n = 0 then [letterDigit 0] else (Nat.digits 16 n).reverse.map letterDigit

def magnitude (n : Nat) : Text :=
  if 1 ≤ n ∧ n ≤ 10 then [Nat.digitChar (n - 1)] else letters n ++ ['@']

def number (n : Int) : Text :=
  if n < 0 then '?' :: magnitude n.natAbs else magnitude n.natAbs

lemma letterDigit_spec : ∀ d < 16, Numeral.isLetterDigit (letterDigit d) = true ∧
    (letterDigit d).toNat - 'A'.toNat = d := by
  decide

lemma digitChar_spec : ∀ d < 10, (Nat.digitChar d).isDigit = true ∧
    (Nat.digitChar d).toNat - '0'.toNat = d := by
  decide

lemma not_isDigit_of_isLetterDigit {c : Char} (h : Numeral.isLetterDigit c = true) :
    c.isDigit = false := by
  simp only [Numeral.isLetterDigit, Bool.and_eq_true, decide_eq_true_eq, Char.le_def] at h
  simp only [Char.isDigit, Bool.and_eq_false_iff, decide_eq_false_iff_not]
  right
  intro h9
  have h1 : (65 : UInt32) ≤ c.val := h.1
  have := UInt32.le_trans h1 h9
  exact absurd this (by decide)

lemma letters_all (n : Nat) : ∀ c ∈ letters n, Numeral.isLetterDigit c = true := by
  intro c hc
  unfold letters at hc
  split_ifs at hc with hn
  · rw [List.mem_singleton.1 hc]
    exact (letterDigit_spec 0 (by decide)).1
  · obtain ⟨d, hd, rfl⟩ := List.mem_map.1 hc
    exact (letterDigit_spec d (Nat.digits_lt_base (by decide) (List.mem_reverse.1 hd))).1

lemma letters_ne_nil (n : Nat) : letters n ≠ [] := by
  unfold letters
  split_ifs with hn
  · simp
  · simpa using Nat.digits_ne_nil_iff_ne_zero.2 hn

lemma ofLetters_letters (n : Nat) : Numeral.ofLetters (letters n) = n := by
  unfold letters
  split_ifs with hn
  · subst hn
    decide
  · have hfold : ∀ ds : List Nat, (∀ d ∈ ds, d < 16) →
        Numeral.ofLetters (ds.reverse.map letterDigit) = Nat.ofDigits 16 ds := by
      intro ds hds
      unfold Numeral.ofLetters
      induction ds with
      | nil => rfl
      | cons d ds ih =>
        have hd := (letterDigit_spec d (hds d (by simp))).2
        have ih := ih fun d hd => hds d (by simp [hd])
        rw [List.reverse_cons, List.map_append, List.foldl_append, ih, Nat.ofDigits_cons]
        simp only [List.map_cons, List.map_nil, List.foldl_cons, List.foldl_nil, hd]
        omega
    rw [hfold _ fun d hd => Nat.digits_lt_base (by decide) hd, Nat.ofDigits_digits]

lemma cut?_append_at {a r : Text} (h : '@' ∉ a) :
    Text.cut? ['@'] (a ++ '@' :: r) = some (a, r) := by
  induction a with
  | nil => simp [Text.cut?, Text.behind?]
  | cons c a ih =>
    simp only [List.mem_cons, not_or] at h
    rw [List.cons_append, Text.cut?]
    simp [Text.behind?, h.1, ih h.2]

/-- Any run of letters is read as its value, also one that starts with zeros. -/
lemma magnitude?_of_letters {c : Cursor} {run r : Text} (hne : run ≠ [])
    (hrun : ∀ x ∈ run, Numeral.isLetterDigit x = true) (h : c.rest = run ++ '@' :: r) :
    ∃ d, c.magnitude? = some (Numeral.ofLetters run, d) ∧ d.rest = r := by
  have hat : '@' ∉ run := fun hm => absurd (hrun _ hm) (by decide)
  have hnot : c.digit? = none := by
    obtain ⟨x, xs, hx⟩ := List.exists_cons_of_ne_nil hne
    have := not_isDigit_of_isLetterDigit (hrun x (by simp [hx]))
    simp [Cursor.digit?, Cursor.take, h, hx, this]
  have hall : run.all Numeral.isLetterDigit = true := List.all_eq_true.2 hrun
  rw [Cursor.magnitude?, hnot]
  simp [Cursor.letterRun?, Cursor.readUntil?, h, cut?_append_at hat, hall]

lemma magnitude?_of_spelled {c : Cursor} {n : Nat} {r : Text} (h : c.rest = magnitude n ++ r) :
    ∃ d, c.magnitude? = some (n, d) ∧ d.rest = r := by
  unfold magnitude at h
  split_ifs at h with hn
  · obtain ⟨hd, hv⟩ := digitChar_spec (n - 1) (by omega)
    have hval : (Nat.digitChar (n - 1)).toNat - 48 + 1 = n := by
      change _ - 48 = _ at hv
      omega
    simp [Cursor.magnitude?, Cursor.digit?, Cursor.take, h, hd, hval]
  · rw [List.append_assoc, List.singleton_append] at h
    have hread := magnitude?_of_letters (letters_ne_nil n) (letters_all n) h
    rwa [ofLetters_letters] at hread

lemma magnitude_head (n : Nat) : ∃ c w, magnitude n = c :: w ∧ c ≠ '?' := by
  unfold magnitude
  split_ifs with hn
  · refine ⟨_, _, rfl, fun h => ?_⟩
    have := (digitChar_spec (n - 1) (by omega)).1
    rw [h] at this
    exact absurd this (by decide)
  · obtain ⟨c, w, hc⟩ := List.exists_cons_of_ne_nil (letters_ne_nil n)
    refine ⟨c, w ++ ['@'], by rw [hc, List.cons_append], fun h => ?_⟩
    have := letters_all n c (by simp [hc])
    rw [h] at this
    exact absurd this (by decide)

lemma number_of_spelled {c : Cursor} {n : Int} {r : Text} (h : c.rest = number n ++ r) :
    ∃ d, c.number = (some n, d) ∧ d.rest = r := by
  unfold number at h
  split_ifs at h with hn
  · -- the sign is read first
    obtain ⟨d, hd, hr⟩ := magnitude?_of_spelled (n := n.natAbs) (r := r)
      (c := { before := '?' :: c.before, rest := magnitude n.natAbs ++ r }) rfl
    refine ⟨d, ?_, hr⟩
    have habs : -|n| = n := by rw [abs_of_neg hn, neg_neg]
    simp [Cursor.number, Cursor.consume?, Cursor.startsWith, Text.behind?, h, hd, habs]
  · obtain ⟨d, hd, hr⟩ := magnitude?_of_spelled h
    obtain ⟨x, w, hx, hne⟩ := magnitude_head n.natAbs
    refine ⟨d, ?_, hr⟩
    have habs : |n| = n := abs_of_nonneg (by omega)
    simp [Cursor.number, Cursor.consume?, Cursor.startsWith, Text.behind?, h, hx, hne.symm, hd,
      habs]

/-- A number reads back from its spelling, whatever follows. -/
lemma gives_numeralAs (lexeme : Text → Int → Lexeme) {s : State} {n : Int} {r : Text}
    (h : s.rest = number n ++ r) : Gives (numeralAs lexeme) s n r s.issued := by
  obtain ⟨d, hd, hr⟩ := number_of_spelled (c := s.cursor) h
  refine ⟨s.pass (lexeme (s.upTo d) n) d, ?_, hr, rfl, rfl⟩
  simp only [numeralAs, hd]

/-! ### Names -/

/-- A part of a name that can be written out: it is not empty, has no `@` in it, and does not
start like a reference. -/
def IsPart (part : Text) : Prop := part ≠ [] ∧ '@' ∉ part ∧ ∀ c ∈ part.head?, c.isDigit = false

def path (p : Path) : Text := p.flatMap (· ++ ['@']) ++ ['@']

lemma gives_closedName (lexeme : Text → Lexeme) {s : State} {name r : Text} (hn : '@' ∉ name)
    (h : s.rest = name ++ '@' :: r) : Gives (closedName lexeme) s name r s.issued := by
  let c : Cursor := { before := (name ++ ['@']).reverse ++ s.cursor.before, rest := r }
  have hc : s.cursor.readUntil? ['@'] = some (name, c) := by
    change s.cursor.rest = _ at h
    simp [Cursor.readUntil?, h, cut?_append_at hn, c]
  refine ⟨s.pass (lexeme name) c, ?_, rfl, rfl, rfl⟩
  simp only [closedName, hc]

lemma gives_namePart {s : State} {part r : Text} (hp : IsPart part)
    (h : s.rest = part ++ ['@'] ++ r) : Gives namePart s part r s.issued := by
  obtain ⟨hne, hat, hdig⟩ := hp
  obtain ⟨c, w, rfl⟩ := List.exists_cons_of_ne_nil hne
  have hnot : s.cursor.digit? = none := by
    change s.cursor.rest = _ at h
    simp [Cursor.digit?, Cursor.take, h, hdig c rfl]
  obtain ⟨u, hu, hr, hd, hi⟩ := gives_closedName .part (s := s) (r := r) hat (by simpa using h)
  refine ⟨{ u with names := u.names.record (c :: w) }, ?_, hr, hd, hi⟩
  simp only [namePart, hnot, literalPart]
  rw [bind_of_ok hu]
  rfl

/-- A name reads back from its spelling, whatever follows. -/
lemma gives_path {s : State} {p : Path} {r : Text} (hp : ∀ part ∈ p, IsPart part)
    (h : s.rest = path p ++ r) : Gives Reading.path s p r s.issued := by
  have hrest : s.rest = p.flatMap (· ++ ['@']) ++ '@' :: r := by simpa [path] using h
  have hgo : ∀ part ∈ p, ∀ (u : State) w, u.rest = part ++ ['@'] ++ w →
      accept ['@'] u = .ok false u := by
    intro part hpart u w hu
    obtain ⟨c, v, hc⟩ := List.exists_cons_of_ne_nil (hp part hpart).1
    refine accept_of_head_ne (c := c) (w := v ++ ['@'] ++ w) (by simp [hu, hc]) fun he => ?_
    exact (hp part hpart).2.1 (by simp [hc, he])
  have hstep : ∀ part ∈ p, ∀ (u : State) w, u.rest = part ++ ['@'] ++ w → u.depth = s.depth →
      Gives namePart u part w (u.issued + 0) :=
    fun part hpart u w hu _ => gives_namePart (hp part hpart) hu
  have hloop := gives_repeatUntil (fun _ part => part) (fun _ => 0) p (by simp) hgo hstep
    (fun u hu => accept_of_append _ (by simp) hu) hrest rfl
  have hs : ∀ (i : Nat) (q : Path), spread (fun _ part => part) (fun _ => 0) i q = q := by
    intro i q
    induction q generalizing i with
    | nil => rfl
    | cons part q ih => rw [spread, ih]
  have hz : (p.map fun _ => 0).sum = 0 := by
    rw [List.map_const']
    simp
  rw [hs, hz] at hloop
  exact hloop

end Undecorate.Encoding
