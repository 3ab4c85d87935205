import Undecorate.Proofs.Reading.Respelling

/-!
Every production of the reader is retraced.

What a type is read from ends with itself: whatever follows, the type is read again. So the texts
behind a type need not be related, and the texts in front of it show the same marks. In front of a
name only the end of the name and the start of a template show, since the first part of the name
may be written in another way.
-/

namespace Undecorate.Reading.Respelling

variable {α : Type} {R : Respelling} {marks : List Text} {A : Text → Text → Prop}

/-! ### Marks, codes and letters -/

lemma retraces_accept {mark : Text} {B : Bool → Text → Text → Prop} (hne : mark ≠ [])
    (htrue : ∀ r r', B true r r' → A (mark ++ r) (mark ++ r'))
    (hfalse : ∀ r r', B false r r' → A r r' ∧ (mark <+: r' → mark <+: r)) (s : State) :
    R.Retraces (fun _ => 0) A (accept mark) B s := by
  intro b u h
  rcases accept_cases hne s with ⟨c, hr, hc⟩ | ⟨hm, hc⟩
  · rw [hc] at h
    cases h
    refine ⟨[.code mark], rfl, fun _ hs => leads_pass rfl (Nat.zero_le _) ?_ ?_ hs⟩
    · intro r' h
      rw [hr]
      exact htrue _ _ h
    · exact fun s' r' _ _ hs' => ⟨_, accept_eq hne hs', rfl⟩
  · rw [hc] at h
    cases h
    refine ⟨[], rfl, fun _ hs => leads_stay ⟨rfl, rfl, rfl⟩ (fun r' h => (hfalse _ r' h).1) ?_ hs⟩
    intro s' ht h
    have hm' : ¬ mark <+: s'.rest := fun hp => hm ((hfalse _ _ h).2 hp)
    exact ⟨s', accept_of_no_mark hm', rfl, rfl, ht.issued, rfl, rfl⟩

/-- A mark behind which the texts may differ. -/
lemma retraces_accept_decisive {mark : Text} (hmem : mark ∈ marks) (h : Decisive marks mark)
    (s : State) :
    R.Retraces (fun _ => 0) (Alike marks) (accept mark) (fun b => cond b ⊤ (Alike marks)) s :=
  retraces_accept h.1 (fun r r' _ => h.alike r r') (fun _ _ h => ⟨h, (h.starts mark hmem).2⟩) s

/-- A mark of types that closes something. -/
lemma retraces_accept_closing {mark : Text} (h : mark ∈ decisiveMarks) (s : State) :
    R.Retraces (fun _ => 0) (Alike typeMarks) (accept mark)
      (fun b => cond b ⊤ (Alike typeMarks)) s :=
  retraces_accept_decisive (mem_typeMarks h) (decisive_of_mem mark h) s

lemma retraces_accept_resumed {mark : Text} (hmem : mark ∈ marks) (h : Resumed marks mark)
    (s : State) :
    R.Retraces (fun _ => 0) (Alike marks) (accept mark) (fun _ => Alike marks) s :=
  retraces_accept h.1 (fun _ _ => h.alike)
    (fun _ _ (ha : Alike marks _ _) => ⟨ha, (ha.starts mark hmem).2⟩) s

/-- A mark of types that may be missing in front of another one. -/
lemma retraces_accept_optional {mark : Text} (h : mark ∈ decisiveMarks) (s : State) :
    R.Retraces (fun _ => 0) (Alike typeMarks) (accept mark) (fun _ => Alike typeMarks) s :=
  retraces_accept_resumed (mem_typeMarks h) (decisive_of_mem mark h).resumed s

lemma accept_eq_false {mark : Text} {s u : State} (hne : mark ≠ [])
    (h : accept mark s = .ok false u) : u = s ∧ ¬ mark <+: s.rest := by
  rcases accept_cases hne s with ⟨c, -, hc⟩ | ⟨hm, hc⟩
  · rw [hc] at h
    cases h
  · rw [hc] at h
    cases h
    exact ⟨rfl, hm⟩

lemma retraces_code {table : CodeTable α} {B : Option α → Text → Text → Prop}
    (hmem : ∀ e ∈ table, e.1 ∈ marks ∧ e.1 ≠ [])
    (hsome : ∀ e ∈ table, ∀ r r', B (some e.2) r r' → Alike marks (e.1 ++ r) (e.1 ++ r'))
    (hnone : ∀ r r', B none r r' → Alike marks r r') (s : State) :
    R.Retraces (fun o => o.toList.length) (Alike marks) (code table) B s := by
  intro o u h
  rcases code_cases (fun e he => (hmem e he).2) s with ⟨w, a, c, he, ha, hr, hc⟩ | ⟨ha, hc⟩
  · rw [hc] at h
    cases h
    have hw : w ≠ [] := (hmem _ he).2
    refine ⟨[.code w], rfl, fun _ hs => leads_pass rfl (List.length_pos_iff.2 hw) ?_ ?_ hs⟩
    · intro r' h
      rw [hr]
      exact hsome _ he _ _ h
    · intro s' r' h _ hs'
      have hsame := (hsome _ he _ _ h).ahead?_eq fun e he => (hmem e he).1
      change table.ahead? (w ++ c.rest) = table.ahead? (w ++ r') at hsame
      rw [← hr, ha] at hsame
      exact ⟨_, code_eq hw hs' (hs' ▸ hsame.symm), rfl⟩
  · rw [hc] at h
    cases h
    refine ⟨[], rfl, fun _ hs => leads_stay ⟨rfl, rfl, rfl⟩ (hnone _) ?_ hs⟩
    intro s' ht h
    refine ⟨s', code_of_none ?_, rfl, rfl, ht.issued, rfl, rfl⟩
    rwa [← (hnone _ _ h).ahead?_eq fun e he => (hmem e he).1]

lemma retraces_code_decisive {table : CodeTable α} {B : Option α → Text → Text → Prop}
    (hmem : ∀ e ∈ table, e.1 ∈ decisiveMarks)
    (hnone : ∀ r r', B none r r' → Alike typeMarks r r') (s : State) :
    R.Retraces (fun o => o.toList.length) (Alike typeMarks) (code table) B s :=
  retraces_code (fun e he => ⟨mem_typeMarks (hmem e he), (decisive_of_mem _ (hmem e he)).1⟩)
    (fun e he r r' _ => (decisive_of_mem _ (hmem e he)).alike r r') hnone s

lemma retraces_letter {table : LetterTable α} {B : Option α → Text → Text → Prop}
    (hmem : ∀ e ∈ table, [e.1] ∈ marks ∧ Decisive marks [e.1])
    (hnone : ∀ r r', B none r r' → Alike marks r r') (s : State) :
    R.Retraces (fun o => o.toList.length) (Alike marks) (letter table) B s := by
  intro o u h
  rcases letter_cases table s with ⟨x, a, c, he, ha, hr, hc⟩ | ⟨ho, hc⟩
  · rw [hc] at h
    cases h
    refine ⟨[.code [x]], rfl, fun _ hs => leads_pass rfl (Nat.le_refl 1) ?_ ?_ hs⟩
    · intro r' _
      rw [hr]
      exact (hmem _ he).2.alike c.rest r'
    · exact fun s' r' _ _ hs' => ⟨_, letter_eq hs' ha, rfl⟩
  · rw [hc] at h
    cases h
    refine ⟨[], rfl, fun _ hs => leads_stay ⟨rfl, rfl, rfl⟩ (hnone _) ?_ hs⟩
    intro s' ht h
    refine ⟨_, letter_of_none ?_, rfl, rfl, ht.issued, rfl, rfl⟩
    rwa [← (hnone _ _ h).lookup_eq fun e he => (hmem e he).1]

lemma retraces_exhausted (s : State) :
    R.Retraces (fun _ => 0) (Alike marks) exhausted (fun _ => Alike marks) s := by
  intro b u h
  cases h
  refine ⟨[], rfl, fun _ hs => leads_stay ⟨rfl, rfl, rfl⟩ (fun _ h => h) ?_ hs⟩
  intro s' ht h
  have : s'.cursor.atEnd = s.cursor.atEnd := by
    rw [Bool.eq_iff_iff, Cursor.atEnd, Cursor.atEnd, List.isEmpty_iff, List.isEmpty_iff]
    exact h.ends.symm
  exact ⟨s', by rw [exhausted, this], rfl, rfl, ht.issued, rfl, rfl⟩

lemma retraces_issue (kind : Kind) (q : Qualifiers) (s : State) :
    R.Retraces (fun _ => 0) A (issue kind q) (fun _ => A) s := by
  intro slot u h
  rw [issue_eq] at h
  cases h
  refine ⟨[], rfl, fun _ hs => leads_stay ⟨rfl, rfl, rfl⟩ (fun _ h => h) ?_ hs⟩
  intro s' ht _
  refine ⟨{ s' with issued := s'.issued + 1 }, ?_, rfl, rfl, by simp [ht.issued], rfl, rfl⟩
  rw [issue_eq, ht.issued]

/-! ### Numbers -/

lemma retraces_numeralAs {lexeme : Text → Int → Lexeme} {B : Int → Text → Text → Prop}
    (hl : ∀ w n, (lexeme w n).spelled = w ∧ R.lexeme (lexeme w n) = lexeme w n) (s : State) :
    R.Retraces (fun _ => 0) ⊤ (numeralAs lexeme) B s := by
  intro n u h
  unfold numeralAs at h
  split at h
  · next m c hm =>
    cases h
    obtain ⟨w, hw, -⟩ := rest_of_number s.cursor
    rw [hm] at hw
    have hup : s.upTo c = w := State.upTo_eq hw
    rw [hup]
    refine ⟨[lexeme w n], rfl, fun _ hs => leads_pass (hl w n).2 (Nat.zero_le _)
      (fun _ _ => trivial) ?_ hs⟩
    intro s' r' _ _ hs'
    rw [(hl w n).1] at hs'
    obtain ⟨c', hc', hr'⟩ := number_append (e := s'.cursor) hm hw hs'
    refine ⟨c', ?_, hr'⟩
    have hup' : s'.upTo c' = w := State.upTo_eq (by rw [hr']; exact hs')
    simp only [numeralAs, hc', hup']
  · cases h

/-! ### Names -/

lemma closedName_eq (lexeme : Text → Lexeme) {s : State} {name r : Text} (hn : '@' ∉ name)
    (h : s.rest = name ++ ['@'] ++ r) :
    ∃ c, closedName lexeme s = .ok name (s.pass (lexeme name) c) ∧ c.rest = r := by
  change s.cursor.rest = _ at h
  rw [List.append_assoc, List.singleton_append] at h
  refine ⟨{ before := (name ++ ['@']).reverse ++ s.cursor.before, rest := r }, ?_, rfl⟩
  simp only [closedName, Cursor.readUntil?, h, Encoding.cut?_append_at hn, Option.map_some]

lemma retraces_templateBase {B : Text → Text → Text → Prop} (s : State) :
    R.Retraces (fun _ => 0) ⊤ templateBase B s := by
  intro name u h
  rcases closedName_cases .base s with ⟨base, c, hn, hr, hc⟩ | ⟨-, hc⟩ <;>
    rw [templateBase, hc] at h <;> cases h
  refine ⟨[.base name], rfl, fun _ hs => leads_pass rfl (Nat.zero_le _) (fun _ _ => trivial) ?_ hs⟩
  exact fun s' r' _ _ hs' => closedName_eq .base hn hs'

lemma namePart_of_part {s : State} {name r : Text} (hn : Encoding.IsPart name)
    (h : s.rest = name ++ ['@'] ++ r) :
    ∃ c, namePart s = .ok name { s.pass (.part name) c with names := s.names.record name } ∧
      c.rest = r := by
  obtain ⟨hne, hat, hdigit⟩ := hn
  have hno : s.cursor.digit? = none := by
    change s.cursor.rest = _ at h
    rwa [digit?_eq_none_iff, h, List.append_assoc, List.head?_append_of_ne_nil _ hne]
  obtain ⟨c, hc, hr⟩ := closedName_eq .part hat h
  refine ⟨c, ?_, hr⟩
  simp only [namePart, hno, literalPart]
  rw [bind_of_ok hc]
  rfl

lemma namePart_of_reference {s : State} {d : Nat} {name : Text} {c : Cursor}
    (hd : s.cursor.digit? = some (d, c)) (hn : s.names.resolve? d = some name) :
    namePart s = .ok name (s.pass (.reference d name) c) := by
  simp only [namePart, hd, hn]

/-- What is written out of a name that has not ended is a part. -/
lemma isPart_of_rest {s : State} {name r : Text} (hs : ¬ ['@'] <+: s.rest)
    (hd : s.cursor.digit? = none) (hat : '@' ∉ name) (hr : s.rest = name ++ ['@'] ++ r) :
    Encoding.IsPart name := by
  have hne : name ≠ [] := by
    rintro rfl
    exact hs ⟨r, hr.symm⟩
  change s.cursor.rest = _ at hr
  rw [digit?_eq_none_iff, hr, List.append_assoc, List.head?_append_of_ne_nil _ hne] at hd
  exact ⟨hne, hat, hd⟩

/-- A part that is written out decides which mark it starts with. -/
lemma decisive_part {name : Text} (h : Encoding.IsPart name) :
    Decisive nameMarks (name ++ ['@']) := by
  obtain ⟨c, w, rfl⟩ := List.exists_cons_of_ne_nil h.1
  refine ⟨by simp, fun m hm hp => ?_⟩
  simp only [nameMarks, List.mem_cons, List.not_mem_nil, or_false] at hm
  rcases hm with rfl | rfl
  · simpa using hp.length_le
  · cases w <;> simp at hp

lemma not_mark_of_digit {c : Char} {r : Text} (hc : c.isDigit = true) :
    ∀ m ∈ nameMarks, ¬ m <+: c :: r := by
  have hfirst : ∀ d : Char, d.isDigit = false → ∀ m, ¬ d :: m <+: c :: r := by
    intro d hd m hp
    rw [← (List.cons_prefix_cons.1 hp).1, hd] at hc
    cases hc
  simp only [nameMarks, List.forall_mem_cons]
  exact ⟨hfirst '@' (by decide) _, hfirst '?' (by decide) _, by simp⟩

lemma not_mark_of_part {name r : Text} (hn : Encoding.IsPart name) (ht : ¬ ['?', '$'] <+: name) :
    ∀ m ∈ nameMarks, ¬ m <+: name ++ ['@'] ++ r := by
  have hat : ¬ ['@'] <+: name ++ ['@'] ++ r := by
    rw [singleton_prefix_iff, List.append_assoc, List.head?_append_of_ne_nil _ hn.1]
    exact fun h => hn.2.1 (List.mem_of_mem_head? h)
  have htemplate : ¬ ['?', '$'] <+: name ++ ['@'] ++ r := by
    intro h
    -- the part and its `@` are no shorter than the mark
    have hp := List.prefix_of_prefix_length_le h (List.prefix_append _ r)
      (by have := List.length_pos_iff.2 hn.1; simp; omega)
    rcases List.prefix_concat_iff.1 hp with he | hp
    · exact absurd (congrArg List.getLast? he) (by simp)
    · exact ht hp
  simp only [nameMarks, List.forall_mem_cons]
  exact ⟨hat, htemplate, by simp⟩

/-- A name that is written out the second time, whatever it was the first time. -/
lemma leads_part {B : Text → Text → Prop} {l : Lexeme} {name : Text} {s u : State}
    (hl : R.lexeme l = .part name) (hn : Encoding.IsPart name) (hu : R.Knows u.names)
    (hlooks : ∀ r', B u.rest r' → Alike nameMarks s.rest (name ++ ['@'] ++ r'))
    (hsame : u.depth = s.depth ∧ u.issued = s.issued)
    (ht : ∀ {T'}, R.Tables s.names T' → R.Tables u.names (T'.record name)) :
    R.Leads 1 (Alike nameMarks) B namePart name s u [l] := by
  have htext : R.text [l] = name ++ ['@'] := by rw [text_singleton, hl]; rfl
  refine ⟨hu, by simp [htext], fun r' h => ?_, fun s' r' h htwin hr => ?_⟩
  · rw [htext]
    exact hlooks r' h
  · rw [htext] at hr
    obtain ⟨c', hc', hr'⟩ := namePart_of_part hn hr
    refine ⟨_, hc', hr', ⟨?_, ?_, ht htwin.tables⟩, by simp [State.pass, hl]⟩
    · exact htwin.depth.trans hsame.1.symm
    · exact htwin.issued.trans hsame.2.symm

lemma retraces_namePart {B : Text → Text → Text → Prop} {s : State} (hs : ¬ ['@'] <+: s.rest) :
    R.Retraces (fun _ => 1) (Alike nameMarks) namePart B s := by
  intro name u h
  rcases namePart_cases s with ⟨part, c, hd, hat, hr, hc⟩ | ⟨d, c, part, hd, hn, hc⟩ |
    ⟨why, v, -, hc⟩ <;> rw [hc] at h <;> cases h
  · have hn := isPart_of_rest hs hd hat hr
    refine ⟨[.part name], rfl, fun hparts hknows => ?_⟩
    refine leads_part rfl hn ?_ (fun r' _ => ?_) ⟨rfl, rfl⟩ (R.tables_record name)
    · intro other ho
      rcases mem_names_record ho with ho | rfl
      · exact hknows other ho
      · exact ⟨fun _ _ => hn, hparts other (by simp)⟩
    · rw [hr]
      exact (decisive_part hn).alike _ _
  · refine ⟨[.reference d name], rfl, fun _ hknows => ?_⟩
    have hr : s.rest = Nat.digitChar d :: c.rest := digit?_eq_some hd
    have hdigit := (digitChar_of_digit? hd).1
    obtain ⟨hpart, hallows⟩ := hknows name (mem_of_resolve? hn)
    rcases R.reference_cases d hallows with ⟨hl, hresolve⟩ | ⟨hl, hplain, htables⟩
    · -- the reference is kept
      refine leads_pass hl (Nat.le_refl 1) (fun r' _ => ?_) (fun s' r' _ ht hs' => ?_) hknows
      · rw [hr]
        exact alike_of_no_mark (by simp) (by simp [Lexeme.spelled]) fun m hm =>
          ⟨not_mark_of_digit hdigit m hm, not_mark_of_digit hdigit m hm⟩
      · obtain ⟨c', hc', hr'⟩ := digit?_append (e := s'.cursor) hd hs'
        exact ⟨c', namePart_of_reference hc' (hresolve ht.tables hn), hr'⟩
    · -- the name is written out in its place
      have hpart := hpart d hl
      refine leads_part hl hpart hknows (fun r' _ => ?_) ⟨rfl, rfl⟩ htables
      rw [hr]
      exact alike_of_no_mark (by simp) (by simp) fun m hm =>
        ⟨not_mark_of_digit hdigit m hm, not_mark_of_part hpart hplain m hm⟩

lemma retraces_path (s : State) :
    R.Retraces (fun _ => 0) (Alike nameMarks) path (fun _ => ⊤) s := by
  refine retraces_repeatUntil (retraces_accept_decisive (by decide) (by decide)) ?_ s
  intro s u hu
  obtain ⟨rfl, hno⟩ := accept_eq_false (by decide) hu
  exact retraces_namePart hno

/-! ### Types -/

lemma retraces_primitive (s : State) :
    R.Retraces (fun _ => 1) (Alike typeMarks) primitive (fun _ => ⊤) s := by
  have hletters : ∀ e ∈ primitiveLetters, [e.1] ∈ decisiveMarks := by decide
  refine (retraces_letter (B := fun o => o.elim (Alike typeMarks) fun _ => ⊤)
    (fun e he => decides_of_mem (hletters e he)) (fun _ _ h => h) s).bind fun o u _ => ?_
  cases o with
  | some p => exact Retraces.pure rfl
  | none =>
    refine (retraces_code_decisive (B := fun o => o.elim (Alike typeMarks) fun _ => ⊤)
      (by decide) (fun _ _ h => h) u).bind fun o v _ => ?_
    cases o with
    | some p => exact Retraces.pure rfl
    | none => exact retraces_of_error fun _ _ h => by cases h

lemma retraces_storage (hmem : ∀ e ∈ storageLetters, [e.1] ∈ marks ∧ Decisive marks [e.1])
    (s : State) : R.Retraces (fun _ => 0) (Alike marks) storage (fun _ => Alike marks) s :=
  (retraces_letter (B := fun _ => Alike marks) hmem
    (fun _ _ h => h) s).bind fun _ _ _ => Retraces.pure (Nat.zero_sub _)

lemma retraces_returnStorage (s : State) :
    R.Retraces (fun _ => 0) (Alike typeMarks) returnStorage (fun _ => Alike typeMarks) s :=
  (retraces_code_decisive (B := fun _ => Alike typeMarks) (by decide)
    (fun _ _ h => h) s).bind fun q u _ => Retraces.pure (Nat.zero_sub _)

lemma retraces_arrayStorage (s : State) :
    R.Retraces (fun _ => 0) (Alike typeMarks) arrayStorage (fun _ => Alike typeMarks) s := by
  refine (retraces_accept_optional (by decide) s).bind fun marked u _ => ?_
  cases marked with
  | false => exact Retraces.pure rfl
  | true =>
    refine (retraces_code_decisive (B := fun _ => Alike typeMarks) (by decide)
      (fun _ _ h => h) u).bind fun q v _ => ?_
    cases q with
    | some q => exact Retraces.pure rfl
    | none => exact retraces_of_error fun _ _ h => by cases h

/-- The reader of nested types is retraced, whatever follows a type. -/
def RetracesTypes (R : Respelling) (nt : Slot → ReadM TypeTree) : Prop :=
  ∀ slot s, R.Retraces (fun _ => 1) (Alike typeMarks) (nt slot) (fun _ => ⊤) s

section Productions

variable {nt : Slot → ReadM TypeTree} (hnt : R.RetracesTypes nt)

include hnt

lemma retraces_param (s : State) :
    R.Retraces (fun _ => 1) (Alike typeMarks) (param nt) (fun _ => ⊤) s :=
  (retraces_issue .unknown {} s).bind fun slot u _ => hnt slot u

lemma retraces_listedParam (unclosed : Malformed) (s : State) :
    R.Retraces (fun _ => 1) (Alike typeMarks) (listedParam nt unclosed) (fun _ => ⊤) s := by
  refine (retraces_exhausted s).bind fun b u _ => ?_
  cases b with
  | true => exact retraces_of_error fun _ _ h => by cases h
  | false => exact retraces_param hnt u

lemma retraces_aggregate (key : TagKey) (slot : Slot) (s : State) :
    R.Retraces (fun _ => 0) (Alike nameMarks) (aggregate nt key slot) (fun _ => ⊤) s := by
  refine (retraces_accept_decisive (by decide) (by decide) s).bind fun marked u _ => ?_
  cases marked with
  | false => exact (retraces_path u).bind fun p v _ => Retraces.pure rfl
  | true =>
    refine (retraces_templateBase (B := fun _ => Alike [['@']]) u).bind fun base v _ => ?_
    refine Retraces.bind (B := fun _ => ⊤) (k := fun _ => 0) ?_ fun args w _ => Retraces.pure rfl
    refine retraces_repeatUntil (retraces_accept_decisive (by decide) (by decide)) ?_ v
    intro s u _
    exact (retraces_listedParam hnt _ u).weaken (fun _ _ h => h.mono (by decide))
      fun _ _ _ _ => trivial

omit hnt in
lemma retraces_enumeration (slot : Slot) (s : State) :
    R.Retraces (fun _ => 0) (Alike nameMarks) (enumeration slot) (fun _ => ⊤) s :=
  (retraces_path s).bind fun _ _ _ => Retraces.pure rfl

omit hnt in
lemma retraces_closeParams (s : State) :
    R.Retraces (fun _ => 0) (Alike typeMarks) closeParams
      (fun b => cond b ⊤ (Alike typeMarks)) s := by
  refine (retraces_accept_closing (by decide) s).bind fun closed u _ => ?_
  cases closed with
  | true => exact Retraces.any (Retraces.pure rfl)
  | false => exact retraces_accept_closing (by decide) u

lemma retraces_functionPointer (slot : Slot) (s : State) :
    R.Retraces (fun _ => 0) (Alike typeMarks) (functionPointer nt slot) (fun _ => ⊤) s := by
  refine (retraces_issue .function {} s).bind fun function u _ => ?_
  refine (retraces_param hnt u).any.bind (B := fun _ => Alike typeMarks) fun result v _ => ?_
  refine (retraces_repeatUntil retraces_closeParams (fun _ w _ => ?_) v).bind
    fun params w _ => Retraces.pure rfl
  exact (retraces_listedParam hnt _ w).any

lemma retraces_indirection (kind : Kind) (slot : Slot) (s : State) :
    R.Retraces (fun _ => 0) (Alike typeMarks) (indirection nt kind slot) (fun _ => ⊤) s := by
  have hletters : ∀ e ∈ storageLetters, [e.1] ∈ decisiveMarks := by decide
  refine (retraces_accept_optional (by decide) s).bind fun _ u _ => ?_
  refine (retraces_storage (fun e he => decides_of_mem (hletters e he)) u).bind fun q v _ => ?_
  refine (retraces_issue .unknown q v).bind fun target w _ => ?_
  exact (hnt target w).bind fun t x _ => Retraces.pure rfl

omit hnt in
lemma retraces_dimension (s : State) :
    R.Retraces (fun _ => 0) ⊤ dimension (fun _ => ⊤) s := by
  refine (retraces_numeralAs (B := fun _ => ⊤) (fun _ _ => ⟨rfl, rfl⟩) s).bind fun n u _ => ?_
  split
  · exact Retraces.pure rfl
  · split <;> exact retraces_of_error fun _ _ h => by cases h

omit hnt in
lemma retraces_extent (s : State) : R.Retraces (fun _ => 0) ⊤ extent (fun _ => ⊤) s := by
  refine (retraces_numeralAs (B := fun _ => ⊤) (fun _ _ => ⟨rfl, rfl⟩) s).bind fun n u _ => ?_
  exact (retraces_issue .unknown {} u).bind fun _ _ _ => Retraces.pure rfl

lemma retraces_array (slot : Slot) (s : State) :
    R.Retraces (fun _ => 0) ⊤ (array nt slot) (fun _ => ⊤) s := by
  refine (retraces_dimension s).bind fun n u _ => ?_
  refine (retraces_repeatTimes retraces_extent n u).any.bind (B := fun _ => Alike typeMarks)
    fun rows v _ => ?_
  refine (retraces_arrayStorage v).bind fun q w _ => ?_
  exact (hnt _ w).bind fun _ _ _ => Retraces.pure rfl

/-- What shows behind a type code. -/
def shown : TypeCode → Text → Text → Prop
  | .aggregate _ | .enumeration => Alike nameMarks
  | .functionPointer | .reference | .pointer | .constPointer => Alike typeMarks
  | .array => ⊤

omit hnt in
/-- Only a pointer may turn out to be something else behind its code. -/
lemma alike_typeCode {e : Text × TypeCode} (he : e ∈ typeCodes) {r r' : Text}
    (h : shown e.2 r r') : Alike typeMarks (e.1 ++ r) (e.1 ++ r') := by
  have hall : ∀ e ∈ typeCodes, e.1 ∈ decisiveMarks ∨ e = (['P'], .pointer) := by
    decide
  rcases hall e he with hd | rfl
  · exact (decisive_of_mem _ hd).alike r r'
  · exact resumed_pointer.alike h

lemma retraces_typeCode (slot : Slot) (s : State) :
    R.Retraces (fun _ => 1) (Alike typeMarks) (typeCode nt slot) (fun _ => ⊤) s := by
  refine (retraces_code (B := fun o => o.elim (Alike typeMarks) shown) (by decide)
    (fun e he r r' h => alike_typeCode he h) (fun _ _ h => h) s).bind fun o u _ => ?_
  match o with
  | none => exact (retraces_primitive u).bind fun _ _ _ => Retraces.pure rfl
  | some (.aggregate key) => exact retraces_aggregate hnt key slot u
  | some .enumeration => exact retraces_enumeration slot u
  | some .functionPointer => exact retraces_functionPointer hnt slot u
  | some .reference => exact retraces_indirection hnt _ _ u
  | some .pointer => exact retraces_indirection hnt _ _ u
  | some .constPointer => exact retraces_indirection hnt _ _ u
  | some .array => exact retraces_array hnt slot u

end Productions

lemma retraces_typeWithin (levels : Nat) : R.RetracesTypes (typeWithin levels) := by
  induction levels with
  | zero => exact fun slot => retraces_nested fun s => retraces_of_error fun _ _ h => by cases h
  | succ levels ih => exact fun slot => retraces_nested (retraces_typeCode ih slot)

lemma retraces_typeInto : R.RetracesTypes typeInto := by
  intro slot s a u h
  obtain ⟨ls, hls, h⟩ := retraces_typeWithin (depthLimit - s.depth) slot s a u h
  refine ⟨ls, hls, fun hparts hs => ?_⟩
  obtain ⟨hknows, hmoves, hlooks, hagain⟩ := h hparts hs
  refine ⟨hknows, hmoves, hlooks, fun s' r' hr ht hs' => ?_⟩
  obtain ⟨u', hu, hrest⟩ := hagain s' r' hr ht hs'
  exact ⟨u', by rw [typeInto, ht.depth, hu], hrest⟩

/-! ### Symbols -/

/-- A letter that has to be there. -/
lemma retraces_required {table : LetterTable α} {f : Option α → ReadM α}
    (hmem : ∀ e ∈ table, [e.1] ∈ marks ∧ Decisive marks [e.1])
    (hsome : ∀ a, f (some a) = pure a) (hnone : ∀ u a v, f none u ≠ .ok a v) (s : State) :
    R.Retraces (fun _ => 0) (Alike marks) (letter table >>= f) (fun _ => Alike marks) s := by
  refine (retraces_letter (B := fun _ => Alike marks) hmem (fun _ _ h => h) s).bind fun o u _ => ?_
  cases o with
  | some a =>
    rw [hsome]
    exact Retraces.pure rfl
  | none => exact retraces_of_error (hnone u)

lemma retraces_convention (s : State) :
    R.Retraces (fun _ => 0) (Alike frontMarks) convention (fun _ => Alike frontMarks) s := by
  have hletters : ∀ e ∈ conventionLetters, [e.1] ∈ decisiveMarks ∧ [e.1] ≠ ['@', 'Z'] := by decide
  exact retraces_required (fun e he => decides_front_of_mem (hletters e he)) (fun _ => rfl)
    (fun _ _ _ h => by cases h) s

lemma retraces_functionClass (s : State) :
    R.Retraces (fun _ => 0) (Alike frontMarks) functionClass (fun _ => Alike frontMarks) s := by
  have hletters : ∀ e ∈ functionClassLetters, [e.1] ∈ decisiveMarks ∧ [e.1] ≠ ['@', 'Z'] := by
    decide
  exact retraces_required (fun e he => decides_front_of_mem (hletters e he)) (fun _ => rfl)
    (fun _ _ _ h => by cases h) s

lemma paramsEnd_eq (mark : Text) (s : State) :
    (do if ← exhausted then pure true else upcoming mark : ReadM Bool) s =
      .ok (decide (Closed mark s.rest)) s := by
  have hend : exhausted s = .ok s.cursor.atEnd s := rfl
  rw [bind_of_ok hend]
  by_cases h : s.cursor.rest = []
  · have hclosed : Closed mark s.rest := .inl h
    simp only [Cursor.atEnd, h, List.isEmpty_nil, if_true, hclosed, decide_true]
    rfl
  · have hmark : s.cursor.startsWith mark = decide (Closed mark s.rest) := by
      rw [Bool.eq_iff_iff, decide_eq_true_iff, Cursor.startsWith, isSome_behind?_iff]
      exact ⟨.inr, fun hc => hc.resolve_left h⟩
    simp only [Cursor.atEnd, List.isEmpty_eq_false_iff.2 h, Bool.false_eq_true, if_false, upcoming,
      hmark]

/-- The parameters of a function that is not pointed to end without a mark of their own. -/
lemma retraces_params {mark : Text} (hmem : mark ∈ typeMarks) (s : State) :
    R.Retraces (fun _ => 0) (Continues mark)
      (repeatUntil (do if ← exhausted then pure true else upcoming mark) (param typeInto))
      (fun _ => Continues mark) s := by
  refine retraces_repeatUntil (B := Alike typeMarks) (fun s => ?_)
    (fun _ u _ => (retraces_param retraces_typeInto u).any) s
  intro b u h
  rw [paramsEnd_eq] at h
  cases h
  have hcontinues : ∀ r', cond (decide (Closed mark s.rest)) (Continues mark) (Alike typeMarks)
      s.rest r' → Continues mark s.rest r' := by
    intro r' h
    cases hc : decide (Closed mark s.rest) <;> rw [hc] at h
    · exact .inl h
    · exact h
  refine ⟨[], rfl, fun _ hs => leads_stay ⟨rfl, rfl, rfl⟩ hcontinues (fun s' ht h => ?_) hs⟩
  have hsame : decide (Closed mark s'.rest) = decide (Closed mark s.rest) :=
    decide_eq_decide.2 ((hcontinues _ h).closed_iff hmem).symm
  exact ⟨s', by rw [paramsEnd_eq, hsame], rfl, rfl, ht.issued, rfl, rfl⟩

lemma retraces_freeFunction (s : State) :
    R.Retraces (fun _ => 0) (Alike frontMarks) freeFunction (fun _ => Continues ['@']) s := by
  refine (retraces_issue .function {} s).bind fun slot u _ => ?_
  refine (retraces_convention u).bind fun c v _ => ?_
  refine Retraces.weaken (A := Alike typeMarks) ?_ (fun _ _ h => h.mono front_subset)
    fun _ _ _ h => h
  refine (retraces_returnStorage v).bind fun q w _ => ?_
  refine (retraces_issue .unknown q w).bind fun resultSlot x _ => ?_
  refine (retraces_typeInto resultSlot x).any.bind (B := fun _ => Continues ['@'])
    fun result y _ => ?_
  exact (retraces_params (by decide) y).bind fun _ _ _ => Retraces.pure rfl

/-- Behind a missing result the parameters may already end, in the one text with `Z` and in the
other with the text. -/
lemma retraces_memberResult (q : Qualifiers) (s : State) :
    R.Retraces (fun _ => 0) (Alike frontMarks) (memberResult q) (fun _ => Continues ['Z']) s := by
  have hmissing : R.Retraces (fun _ => 0) (Alike frontMarks) (accept ['@'])
      (fun b => cond b (Continues ['Z']) (Alike frontMarks)) s :=
    (retraces_accept_decisive (by decide) decisive_front_at s).weaken (fun _ _ h => h)
      fun b _ _ h => by
      cases b
      · exact h
      · trivial
  refine hmissing.bind fun missing u _ => ?_
  cases missing with
  | true => exact (retraces_issue .noReturn q u).bind fun _ _ _ => Retraces.pure rfl
  | false =>
    refine Retraces.weaken (A := Alike typeMarks) ?_ (fun _ _ h => h.mono front_subset)
      fun _ _ _ h => h
    refine (retraces_issue .unknown q u).bind fun slot v _ => ?_
    refine (retraces_typeInto slot v).bind fun t w _ => ?_
    refine (retraces_accept (B := fun _ => Continues ['Z']) (by decide) (fun _ _ _ => trivial)
      (fun r r' h => ⟨trivial, ?_⟩) w).bind fun _ _ _ => Retraces.pure rfl
    exact (h.prefix_iff (by decide) (by decide)).2

lemma retraces_memberFunction (s : State) :
    R.Retraces (fun _ => 0) (Alike frontMarks) memberFunction (fun _ => Continues ['Z']) s := by
  have hletters : ∀ e ∈ storageLetters, [e.1] ∈ decisiveMarks ∧ [e.1] ≠ ['@', 'Z'] := by decide
  have hextra := decides_front_of_mem (m := ['E']) (by decide)
  refine (retraces_issue .function {} s).bind fun slot u _ => ?_
  refine (retraces_functionClass u).bind fun cls v _ => ?_
  refine (retraces_accept_resumed hextra.1 hextra.2.resumed v).bind fun _ w _ => ?_
  refine (retraces_convention w).bind fun c x _ => ?_
  refine (retraces_storage (fun e he => decides_front_of_mem (hletters e he)) x).bind
    fun q y _ => ?_
  refine (retraces_memberResult q y).bind fun result z _ => ?_
  exact (retraces_params (by decide) z).bind fun _ _ _ => Retraces.pure rfl

lemma retraces_body (e : Entity) (p : Path) (s : State) :
    R.Retraces (fun _ => 0) (Alike frontMarks) (body (.decorated e p)) (fun _ => Follow e) s := by
  match e with
  | .variable =>
    refine Retraces.weaken (A := Alike typeMarks) ?_ (fun _ _ h => h.mono front_subset)
      fun _ _ _ h => h
    exact (retraces_param retraces_typeInto s).any.bind fun _ _ _ => Retraces.pure rfl
  | .freeFunction => exact (retraces_freeFunction s).bind fun _ _ _ => Retraces.pure rfl
  | .memberFunction => exact (retraces_memberFunction s).bind fun _ _ _ => Retraces.pure rfl

/-- The mark of a decorated name is there both times. -/
lemma retraces_heading {s : State} (h : s.rest.head? = some '?') :
    R.Retraces (fun _ => 0) (Alike [['?']]) heading (fun _ => Alike frontMarks) s := by
  refine (retraces_accept_decisive (by decide) (by decide) s).bind fun marked u hu => ?_
  cases marked with
  | false => exact absurd (singleton_prefix_iff.2 h) (accept_eq_false (by decide) hu).2
  | true =>
    have hcodes : ∀ e ∈ entityCodes, e.1 ∈ decisiveMarks ∧ e.1 ≠ ['@', 'Z'] := by decide
    have hentity := fun e he => decides_front_of_mem (hcodes e he)
    refine Retraces.weaken (A := Alike nameMarks) ?_ (fun _ _ _ => trivial) fun _ _ _ h => h
    refine (retraces_path u).any.bind (B := fun _ => Alike frontMarks) fun p v _ => ?_
    exact (retraces_code (B := fun _ => Alike frontMarks)
      (fun e he => ⟨(hentity e he).1, (hentity e he).2.1⟩)
      (fun e he r r' _ => (hentity e he).2.alike r r') (fun _ _ h => h) v).bind fun _ _ _ =>
        Retraces.pure (Nat.zero_sub _)

/-- What follows a symbol matters as far as it shows where the symbol ends. -/
lemma retraces_symbol_of_heading {s v : State} {e : Entity} {p : Path}
    (hs : s.rest.head? = some '?') (h : heading s = .ok (.decorated e p) v) :
    R.Retraces (fun _ => 0) (Alike [['?']]) symbol (fun _ => Follow e) s := by
  refine (retraces_heading hs).bind fun head u hu => ?_
  rw [h] at hu
  cases hu
  exact retraces_body e p v

lemma retraces_symbol {s : State} (h : s.rest.head? = some '?') :
    R.Retraces (fun _ => 0) (Alike [['?']]) symbol (fun _ => Alike typeMarks) s := by
  refine (retraces_heading h).bind fun head u _ => ?_
  cases head with
  | identifier name =>
    refine Retraces.weaken (A := Alike typeMarks) ?_ (fun _ _ h => h.mono front_subset)
      fun _ _ _ h => h
    exact (retraces_issue .unknown {} u).bind fun _ _ _ => Retraces.pure rfl
  | decorated e p => exact (retraces_body e p u).weaken (fun _ _ h => h) fun _ _ _ h => .inl h

end Undecorate.Reading.Respelling
