import Mathlib.Tactic.SplitIfs
import Undecorate.Proofs.Encoding.Spelling
import Undecorate.Proofs.Reading.Invariant

/-!
Every lexeme is read soundly.

A mark, code, name or number is passed as it is spelled. What was taken last can be put back, a new
node fits its kind, names contain no `@`, and a number of dimensions that is too long ends the
reading.
-/

namespace Undecorate.Reading

variable {α β : Type} {t : Text}

/-! ### Marks, codes and letters -/

lemma reads_accept (mark : Text) : Reads t 0 (accept mark) fun _ => True := by
  intro s hs
  cases hc : s.cursor.consume? mark with
  | none =>
    rw [accept, hc]
    exact ⟨trivial, hs, Nat.le_refl _⟩
  | some c =>
    obtain ⟨hm, r, hr, -⟩ := Cursor.consume?_eq_some_iff.1 hc
    rw [accept_eq hm hr]
    refine ⟨trivial, hs.pass hr trivial, ?_⟩
    change r.length + 0 ≤ s.cursor.rest.length
    simp [hr]

lemma missing_of_ahead? {table : CodeTable α} {r : Text} (h : table.ahead? r = none) :
    table.Missing r := by
  rintro e he ⟨w, hw⟩
  have hnone := List.find?_eq_none.1 h e he
  exact hnone (Option.isSome_iff_exists.2 ⟨w, Text.behind?_eq_some_iff.2 hw.symm⟩)

lemma missing_of_lookup {table : LetterTable α} {r : Text}
    (h : r.head?.bind (fun x => table.lookup x) = none) : table.Missing r := by
  rintro ⟨x, a⟩ he ⟨w, hw⟩
  rw [← hw, List.singleton_append, List.head?_cons, Option.bind_some] at h
  have hne := List.lookup_eq_none_iff.1 h (x, a) he
  simp at hne

/-- Every code of the table is a text that is not empty. -/
lemma tries_code {table : CodeTable α} {P : α → Prop} (h : ∀ e ∈ table, e.1 ≠ [] ∧ P e.2) :
    Tries t (code table) P table.Missing := by
  intro s hs
  rcases code_cases (fun e he => (h e he).1) s with ⟨w, a, c, hmem, -, hr, hc⟩ | ⟨ha, hc⟩
  · refine .inl ⟨a, _, hc, (h _ hmem).2, hs.pass hr trivial, ?_⟩
    have : 0 < w.length := List.length_pos_iff.2 (h _ hmem).1
    change c.rest.length < s.rest.length
    simp only [hr, List.length_append]
    omega
  · exact .inr ⟨s, hc, hs, rfl, missing_of_ahead? ha⟩

lemma tries_letter {table : LetterTable α} {P : α → Prop} (h : ∀ e ∈ table, P e.2) :
    Tries t (letter table) P table.Missing := by
  intro s hs
  rcases letter_cases table s with ⟨x, a, c, hmem, -, hr, hc⟩ | ⟨ho, hc⟩
  · refine .inl ⟨a, _, hc, h _ hmem, hs.pass hr trivial, ?_⟩
    change c.rest.length < s.rest.length
    simp [hr]
  · exact .inr ⟨_, hc, ⟨hs.text, hs.names, hs.fits⟩, rfl, missing_of_lookup ho⟩

lemma reads_issue (kind : Kind) (q : Qualifiers) :
    Reads t 0 (issue kind q) fun slot => slot.qualifiers = q := by
  intro s hs
  rw [issue_eq]
  exact ⟨rfl, ⟨hs.text, hs.names, hs.fits⟩, Nat.le_refl _⟩

/-! ### Names -/

lemma not_mem_of_cut? {c : Char} {t before after : Text}
    (h : Text.cut? [c] t = some (before, after)) : c ∉ before := by
  induction t generalizing before with
  | nil => simp [Text.cut?] at h
  | cons d t ih =>
    rw [Text.cut?] at h
    split at h
    · cases h
      simp
    · next hd =>
      obtain ⟨⟨b, a⟩, hb, he⟩ := Option.map_eq_some_iff.1 h
      cases he
      have hcd : c ≠ d := by
        rintro rfl
        simp [Text.behind?] at hd
      simp [hcd, ih hb]

lemma not_mem_of_cut?_eq_none {t : Text} (h : Text.cut? ['@'] t = none) : '@' ∉ t := by
  intro hm
  -- the part up to the first `@` would be cut off
  obtain ⟨before, after, rfl, hbefore⟩ := List.eq_append_cons_of_mem hm
  rw [Encoding.cut?_append_at hbefore] at h
  cases h

/-- A name is read up to its `@`, or has none. -/
lemma closedName_cases (lexeme : Text → Lexeme) (s : State) :
    (∃ name c, '@' ∉ name ∧ s.rest = name ++ ['@'] ++ c.rest ∧
      closedName lexeme s = .ok name (s.pass (lexeme name) c)) ∨
    '@' ∉ s.rest ∧ closedName lexeme s = .error (.malformed (.unterminatedName s.rest)) s := by
  unfold closedName
  split
  · next name c hc =>
    obtain ⟨⟨before, r⟩, hcut, he⟩ := Option.map_eq_some_iff.1 hc
    cases he
    have hr : s.rest = name ++ ['@'] ++ r := Text.eq_of_cut?_eq_some hcut
    exact .inl ⟨name, _, not_mem_of_cut? hcut, hr, rfl⟩
  · next hc => exact .inr ⟨not_mem_of_cut?_eq_none (Option.map_eq_none_iff.1 hc), rfl⟩

/-- Whatever lexeme a closed name makes, it is spelled as the name and its `@`. -/
lemma reads_closedName (lexeme : Text → Lexeme)
    (hl : ∀ name, (lexeme name).spelled = name ++ ['@'] ∧ (lexeme name).Fits) :
    Reads t 1 (closedName lexeme) fun name => '@' ∉ name := by
  intro s hs
  rcases closedName_cases lexeme s with ⟨name, c, hn, hr, hc⟩ | ⟨hat, hc⟩ <;> rw [hc]
  · refine ⟨hn, hs.pass (by rw [(hl name).1, hr]) (hl name).2, ?_⟩
    change c.rest.length + 1 ≤ s.rest.length
    simp [hr]
  · exact hs.fails rfl hat

lemma reads_templateBase : Reads t 1 templateBase fun name => '@' ∉ name :=
  reads_closedName .base fun _ => ⟨rfl, trivial⟩

lemma mem_names_record {table : NameTable} {name other : Text}
    (h : other ∈ (table.record name).names) : other ∈ table.names ∨ other = name := by
  unfold NameTable.record at h
  split at h
  · simpa using h
  · exact .inl h

lemma digitChar_toNat {c : Char} (h : c.isDigit = true) :
    Nat.digitChar (c.toNat - '0'.toNat) = c := by
  have hspec : ∀ d < 10, Nat.digitChar d = Char.ofNat ('0'.toNat + d) := by decide
  simp only [Char.isDigit, Bool.and_eq_true, decide_eq_true_eq] at h
  have h0 : '0'.toNat ≤ c.toNat := h.1
  have h9 : c.toNat ≤ '9'.toNat := h.2
  have hlt : c.toNat - '0'.toNat < 10 := by
    change c.toNat ≤ 57 at h9
    change c.toNat - 48 < 10
    omega
  rw [hspec _ hlt, Nat.add_sub_cancel' h0, Char.ofNat_toNat]

lemma digit?_eq_some {c d : Cursor} {n : Nat} (h : c.digit? = some (n, d)) :
    c.rest = Nat.digitChar n :: d.rest := by
  unfold Cursor.digit? Cursor.take at h
  cases hr : c.rest with
  | nil => simp [hr] at h
  | cons x r =>
    simp only [hr] at h
    split at h
    · next hx =>
      cases h
      rw [digitChar_toNat hx]
    · cases h

lemma mem_of_resolve? {table : NameTable} {i : Int} {name : Text}
    (h : table.resolve? i = some name) : name ∈ table.names := by
  unfold NameTable.resolve? at h
  split at h
  · exact List.mem_of_getElem? h
  · cases h

/-- A part of a name is written out and remembered, or is a reference to a name that was. -/
lemma namePart_cases (s : State) :
    (∃ name c, s.cursor.digit? = none ∧ '@' ∉ name ∧ s.rest = name ++ ['@'] ++ c.rest ∧
      namePart s = .ok name { s.pass (.part name) c with names := s.names.record name }) ∨
    (∃ d c name, s.cursor.digit? = some (d, c) ∧ s.names.resolve? d = some name ∧
      namePart s = .ok name (s.pass (.reference d name) c)) ∨
    ∃ why u, (u.lexemes = s.lexemes ∧
        (why = .unterminatedName s.rest ∧ '@' ∉ s.rest ∨ why.shown? = none)) ∧
      namePart s = .error (.malformed why) u := by
  cases hd : s.cursor.digit? with
  | none =>
    have hliteral : namePart s = literalPart s := by simp only [namePart, hd]
    rcases closedName_cases .part s with ⟨name, c, hn, hr, hc⟩ | ⟨hat, hc⟩
    · refine .inl ⟨name, c, rfl, hn, hr, ?_⟩
      rw [hliteral, literalPart, bind_of_ok hc]
      rfl
    · refine .inr (.inr ⟨_, s, ⟨rfl, .inl ⟨rfl, hat⟩⟩, ?_⟩)
      rw [hliteral, literalPart, bind_of_error hc]
  | some p =>
    obtain ⟨d, c⟩ := p
    cases hn : s.names.resolve? d with
    | none =>
      refine .inr (.inr ⟨.danglingReference d s.names.size, { s with cursor := c },
        ⟨rfl, .inr rfl⟩, ?_⟩)
      simp only [namePart, hd, hn]
    | some name =>
      refine .inr (.inl ⟨d, c, name, rfl, hn, ?_⟩)
      simp only [namePart, hd, hn]

lemma reads_namePart : Reads t 1 namePart fun name => '@' ∉ name := by
  intro s hs
  rcases namePart_cases s with ⟨name, c, -, hn, hr, hc⟩ | ⟨d, c, name, hd, hname, hc⟩ |
    ⟨why, u, ⟨hu, hwhy⟩, hc⟩ <;> rw [hc]
  · have hpass := hs.pass (l := .part name) hr trivial
    refine ⟨hn, ⟨hpass.text, fun other ho => ?_, hpass.fits⟩, ?_⟩
    · rcases mem_names_record ho with ho | rfl
      · exact hs.names other ho
      · exact hn
    · change c.rest.length + 1 ≤ s.rest.length
      simp [hr]
  · have hr : s.rest = Nat.digitChar d :: c.rest := digit?_eq_some hd
    refine ⟨hs.names name (mem_of_resolve? hname), hs.pass hr trivial, ?_⟩
    change c.rest.length + 1 ≤ s.rest.length
    simp [hr]
  · have hspelled : u.spelled = s.spelled := by rw [State.spelled, hu, State.spelled]
    refine ⟨by rw [hu]; exact hs.fits, ?_⟩
    rw [hspelled]
    rcases hwhy with ⟨rfl, hat⟩ | hsilent
    · have hfails : Fails t (.malformed (.unterminatedName s.rest)) s := hs.fails rfl hat
      exact hfails.2
    · exact Malformed.blames_of_silent hsilent

/-! ### Numbers -/

lemma rest_of_magnitude? {c d : Cursor} {n : Nat} (h : c.magnitude? = some (n, d)) :
    ∃ w, w ≠ [] ∧ c.rest = w ++ d.rest := by
  unfold Cursor.magnitude? at h
  split at h
  · next k after hd =>
    cases h
    exact ⟨_, List.cons_ne_nil _ [], digit?_eq_some hd⟩
  · unfold Cursor.letterRun? Cursor.readUntil? at h
    cases hc : Text.cut? ['@'] c.rest with
    | none => simp [hc] at h
    | some p =>
      obtain ⟨run, r⟩ := p
      simp only [hc, Option.map_some] at h
      split at h
      · cases h
        exact ⟨run ++ ['@'], by simp, Text.eq_of_cut?_eq_some hc⟩
      · cases h

/-- A number is a part of the text that is not empty; where there is none, only its sign is
passed. -/
lemma rest_of_number (c : Cursor) :
    ∃ w, c.rest = w ++ c.number.2.rest ∧ (c.number.1.isSome = true → w ≠ []) := by
  have hsign : ∃ w, c.rest = w ++ ((c.consume? ['?']).getD c).rest := by
    cases hc : c.consume? ['?'] with
    | none => exact ⟨[], rfl⟩
    | some d =>
      obtain ⟨-, r, hr, rfl⟩ := Cursor.consume?_eq_some_iff.1 hc
      exact ⟨['?'], hr⟩
  obtain ⟨sign, hsign⟩ := hsign
  unfold Cursor.number
  simp only
  split
  · next n after hm =>
    obtain ⟨w, hw, hr⟩ := rest_of_magnitude? hm
    exact ⟨sign ++ w, by rw [hsign, hr, List.append_assoc], by simp [hw]⟩
  · exact ⟨sign, hsign, by simp⟩

lemma magnitude?_congr {c d : Cursor} (h : c.rest = d.rest) :
    c.magnitude?.map Prod.fst = d.magnitude?.map Prod.fst := by
  have hdigit : c.digit?.map Prod.fst = d.digit?.map Prod.fst := by
    unfold Cursor.digit? Cursor.take
    rw [h]
    cases d.rest with
    | nil => rfl
    | cons x r =>
      simp only
      split_ifs <;> rfl
  have hrun : c.letterRun?.map Prod.fst = d.letterRun?.map Prod.fst := by
    unfold Cursor.letterRun? Cursor.readUntil?
    rw [h]
    cases Text.cut? ['@'] d.rest with
    | none => rfl
    | some p =>
      simp only [Option.map_some]
      split_ifs <;> rfl
  unfold Cursor.magnitude?
  cases hc : c.digit? <;> cases hd : d.digit? <;> simp_all

/-- The number that comes next depends on nothing but the text that comes next. -/
lemma number_congr {c d : Cursor} (h : c.rest = d.rest) : c.number.1 = d.number.1 := by
  have hsign : c.startsWith ['?'] = d.startsWith ['?'] := by simp only [Cursor.startsWith, h]
  have hrest : ((c.consume? ['?']).getD c).rest = ((d.consume? ['?']).getD d).rest := by
    simp only [Cursor.consume?, h]
    cases Text.behind? ['?'] d.rest with
    | none => exact h
    | some r => rfl
  have hmag := magnitude?_congr hrest
  unfold Cursor.number
  simp only
  cases hc : ((c.consume? ['?']).getD c).magnitude? <;>
    cases hd : ((d.consume? ['?']).getD d).magnitude? <;> simp_all

lemma State.upTo_eq {s : State} {c : Cursor} {w : Text} (h : s.rest = w ++ c.rest) :
    s.upTo c = w := by
  simp [upTo, h]

lemma noMagnitude_of_magnitude? {c : Cursor} (h : c.magnitude? = none) : NoMagnitude c.rest := by
  unfold Cursor.magnitude? at h
  split at h
  · cases h
  · next hdigit =>
    refine ⟨fun x w hr => ?_, fun run w hrun hr => ?_⟩
    · simpa [Cursor.digit?, Cursor.take, hr] using hdigit
    · have hat : '@' ∉ run := fun hm => absurd (hrun '@' hm) (by decide)
      simp [Cursor.letterRun?, Cursor.readUntil?, hr, Encoding.cut?_append_at hat] at h
      exact absurd hrun (by simpa using h)

lemma noMagnitude_of_number {c : Cursor} (h : c.number.1 = none) : NoMagnitude c.number.2.rest := by
  unfold Cursor.number at h ⊢
  simp only at h ⊢
  split
  · next n after hm => simp [hm] at h
  · next hm => exact noMagnitude_of_magnitude? hm

/-- The number that comes next is read, or there is none behind the sign. -/
lemma numeralAs_cases (lexeme : Text → Int → Lexeme) (s : State) :
    (∃ w n c, w ≠ [] ∧ s.rest = w ++ c.rest ∧ (Cursor.ofText s.rest).number.1 = some n ∧
      numeralAs lexeme s = .ok n (s.pass (lexeme w n) c)) ∨
    ∃ w c, (s.rest = w ++ c.rest ∧ NoMagnitude c.rest) ∧
      numeralAs lexeme s = .error (.malformed (.badNumber c.rest)) (s.pass (.code w) c) := by
  obtain ⟨w, hr, hw⟩ := rest_of_number s.cursor
  have hval : (Cursor.ofText s.rest).number.1 = s.cursor.number.1 := number_congr rfl
  unfold numeralAs
  split
  · next n c hn =>
    rw [hn] at hr hw hval
    refine .inl ⟨w, n, c, hw rfl, hr, hval, ?_⟩
    rw [State.upTo_eq hr]
  · next c hn =>
    have hnone := noMagnitude_of_number (c := s.cursor) (by rw [hn])
    rw [hn] at hr hnone
    exact .inr ⟨w, c, ⟨hr, hnone⟩, by rw [State.upTo_eq hr]⟩

lemma reads_numeral : Reads t 1 numeral fun _ => True := by
  intro s hs
  rcases numeralAs_cases (fun spelling _ => .code spelling) s with
    ⟨w, n, c, hw, hr, -, hn⟩ | ⟨w, c, ⟨hr, hnone⟩, hn⟩
  · rw [numeral, hn]
    have := List.length_pos_iff.2 hw
    refine ⟨trivial, hs.pass hr trivial, ?_⟩
    change c.rest.length + 1 ≤ s.rest.length
    rw [hr, List.length_append]
    omega
  · rw [numeral, hn]
    exact (hs.pass (l := .code w) hr trivial).fails rfl hnone

lemma overlong_of_decimal? {n : Int} (hn : ¬ 0 < n) (h : ¬ (decimal? n).isSome = true) :
    Overlong n := by
  have hd : digitLimit < (Nat.toDigits 10 n.natAbs).length := by
    unfold decimal? at h
    split at h
    · simp at h
    · omega
  refine ⟨?_, hd⟩
  -- zero has one digit only
  have : n ≠ 0 := by
    rintro rfl
    revert hd
    decide
  omega

/-- A number of dimensions is the only number whose size matters to the reader. -/
lemma reads_dimension : Reads t 1 dimension fun n => 0 < n := by
  intro s hs
  rcases numeralAs_cases .dimension s with ⟨w, n, c, hw, hr, hv, hn⟩ | ⟨w, c, ⟨hr, hnone⟩, hn⟩
  · rw [dimension, bind_of_ok hn]
    split
    · next hpos =>
      have hfits : (Lexeme.dimension w n).Fits := fun ho => by
        have := ho.1
        omega
      have := List.length_pos_iff.2 hw
      refine ⟨by omega, hs.pass hr hfits, ?_⟩
      change c.rest.length + 1 ≤ s.rest.length
      rw [hr, List.length_append]
      omega
    · next hpos =>
      split
      · next hd =>
        refine ⟨hs.fits_pass (.dimension w n) c fun ho => ?_, Malformed.blames_of_silent rfl⟩
        unfold decimal? at hd
        have := ho.2
        split at hd
        · omega
        · simp at hd
      · next hd =>
        rw [hr] at hv
        exact ⟨hs.text_pass hr, w, n, s.lexemes, rfl, hv, overlong_of_decimal? hpos hd⟩
  · rw [dimension, bind_of_error hn]
    exact (hs.pass (l := .code w) hr trivial).fails rfl hnone

end Undecorate.Reading
