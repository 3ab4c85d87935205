import Undecorate.Decoder
import Undecorate.Proofs.TypeTree
import Undecorate.Proofs.Reading.Lexeme

/-!
Every production gives a tree that is formed, or fails in one of the ways that `Fails` allows.

The reader of a nested type is a parameter of the productions, so each of them is shown to read
formed trees provided that reader does; `typeWithin` closes the recursion by induction on the
levels that are left. The main result is how reading a text that starts with `?` can end.
-/

namespace Undecorate.Reading

open TypeTree

variable {t : Text}

/-! ### Codes -/

/-- A primitive type is looked for where no other type code comes next. -/
lemma ends_primitive {s : State} (hs : Sound t s) (hcodes : typeCodes.Missing s.rest) :
    Ends t 1 (fun _ => True) s (primitive s) := by
  refine (tries_letter (P := fun _ => True) (by simp)).bind hs (fun p _ => Reads.pure trivial)
    fun u hu hru hletters => ?_
  refine (tries_code (P := fun _ => True) (by decide)).bind hu (fun p _ => Reads.pure trivial)
    fun v hv hrv hextended => ?_
  refine hv.fails rfl ⟨?_, ?_, hextended⟩
  · rw [hrv, hru]
    exact hcodes
  · rw [hrv]
    exact hletters

lemma reads_storage : Reads t 0 storage fun q => q.Stored := by
  refine (tries_letter (P := Qualifiers.Stored) (by decide)).reads.bind fun q hq => ?_
  cases q with
  | none => exact Reads.pure (by decide)
  | some q => exact Reads.pure (hq q rfl)

lemma reads_returnStorage : Reads t 0 returnStorage fun q => q.Stored := by
  refine (tries_code (P := Qualifiers.Stored) (by decide)).reads.bind fun q hq => ?_
  cases q with
  | none => exact Reads.pure (by decide)
  | some q => exact Reads.pure (hq q rfl)

lemma reads_arrayStorage : Reads t 0 arrayStorage fun q => ∀ a ∈ q, a.Stored := by
  intro s hs
  have hmark : arrayStorageMark ≠ [] := by decide
  rcases accept_cases hmark s with ⟨c, hr, hc⟩ | ⟨-, hc⟩
  · rw [arrayStorage, bind_of_ok hc]
    have hpass := hs.pass (l := .code arrayStorageMark) hr trivial
    refine Ends.from (k := 1) (s := s.pass (.code arrayStorageMark) c) ?_ ?_
    · refine (tries_code (P := Qualifiers.Stored) (by decide)).bind hpass
        (fun q hq => Reads.pure (by simpa using hq)) fun u hu hru hmissing => ?_
      -- the mark is the last that was read
      have hspelled := hu.spelled_eq hpass hru
      rw [State.spelled_pass] at hspelled
      exact hu.fails rfl ⟨⟨s.spelled, hspelled.symm⟩, hmissing⟩
    · change c.rest.length + 0 ≤ s.rest.length + 1
      rw [hr, List.length_append]
      omega
  · rw [arrayStorage, bind_of_ok hc]
    exact Reads.pure (by simp) s hs

/-- A function class is looked for where no code of a variable or free function comes next. -/
lemma ends_functionClass {s : State} (hs : Sound t s) (hcodes : entityCodes.Missing s.rest) :
    Ends t 1 (fun f => f ≠ {}) s (functionClass s) := by
  refine (tries_letter (P := fun f => f ≠ {}) (by decide)).bind hs (fun f hf => Reads.pure hf)
    fun u hu hru hmissing => ?_
  exact hu.fails rfl ⟨by rw [hru]; exact hcodes, hmissing⟩

lemma reads_convention : Reads t 1 convention fun c => c ≠ .regcall := by
  intro s hs
  exact (tries_letter (P := fun c => c ≠ .regcall) (by decide)).bind hs
    (fun c hc => Reads.pure hc) fun u hu _ hmissing => hu.fails rfl hmissing

lemma reads_path : Reads t 0 path fun p => ∀ part ∈ p, '@' ∉ part :=
  reads_repeatUntil (reads_accept _) reads_namePart

/-! ### Types -/

/-- The reader gives formed types for slots whose qualifiers have a storage letter, and always
moves the cursor. -/
def ReadsTypes (t : Text) (nt : Slot → ReadM TypeTree) : Prop :=
  ∀ slot : Slot, slot.qualifiers.Stored → Reads t 1 (nt slot) TypeTree.Formed

section Productions

variable {nt : Slot → ReadM TypeTree} (hnt : ReadsTypes t nt)

include hnt

lemma reads_param : Reads t 1 (param nt) TypeTree.Formed :=
  (reads_issue .unknown {}).andThen fun slot hs => hnt slot (by rw [hs]; decide)

lemma reads_listedParam {unclosed : Malformed} (h : unclosed.shown? = none) :
    Reads t 1 (listedParam nt unclosed) TypeTree.Formed := by
  have hend : Reads t 0 exhausted fun _ => True := fun _ hs => ⟨trivial, hs, Nat.le_refl _⟩
  refine hend.andThen fun b _ => ?_
  cases b with
  | true => exact reads_throw h
  | false => exact reads_param hnt

lemma reads_aggregate {key : TagKey} {slot : Slot} (hk : key ≠ .enumKey)
    (hs : slot.qualifiers.Stored) : Reads t 0 (aggregate nt key slot) TypeTree.Formed := by
  refine (reads_accept _).bind fun marked _ => ?_
  cases marked with
  | false => exact reads_path.bind fun p hp => Reads.pure (.named key slot.serial hs hp)
  | true =>
    refine reads_templateBase.andThen fun base hb => ?_
    refine (reads_repeatUntil (reads_accept _) (reads_listedParam hnt rfl)).bind fun args ha => ?_
    exact Reads.pure (.template slot.serial hk hs hb ha)

omit hnt in
lemma reads_enumeration {slot : Slot} (hs : slot.qualifiers.Stored) :
    Reads t 0 (enumeration slot) TypeTree.Formed :=
  reads_path.bind fun _ hp => Reads.pure (.named .enumKey slot.serial hs hp)

omit hnt in
lemma reads_closeParams : Reads t 0 closeParams fun _ => True := by
  refine (reads_accept _).bind fun closed _ => ?_
  cases closed with
  | true => exact Reads.pure trivial
  | false => exact reads_accept _

lemma reads_functionPointer {slot : Slot} (hs : slot.qualifiers.Stored) :
    Reads t 0 (functionPointer nt slot) TypeTree.Formed := by
  refine (reads_issue .function {}).bind fun function hf => ?_
  refine (reads_param hnt).andThen fun result hr => ?_
  refine (reads_repeatUntil reads_closeParams (reads_listedParam hnt rfl)).bind fun params hp => ?_
  have := Formed.functionPointer slot.serial function.serial hs hr hp
  rw [← hf] at this
  exact Reads.pure this

lemma reads_indirection {kind : Kind} {slot : Slot} (hk : kind.isIndirection = true)
    (hs : slot.qualifiers.Stored) : Reads t 0 (indirection nt kind slot) TypeTree.Formed := by
  refine (reads_accept _).bind fun _ _ => ?_
  refine reads_storage.bind fun q hq => ?_
  refine (reads_issue .unknown q).bind fun target ht => ?_
  refine (hnt target (ht ▸ hq)).andThen fun inner hi => ?_
  exact Reads.pure (.indirection slot.serial hk hs hi)

omit hnt in
lemma reads_extent : Reads t 1 extent fun row => row.2.qualifiers.Stored :=
  reads_numeral.bind fun n _ => (reads_issue .unknown {}).bind fun element he =>
    Reads.pure (by rw [he]; decide)

omit hnt in
lemma stored_elementSlot {slot : Slot} {rows : List (Int × Slot)} (hs : slot.qualifiers.Stored)
    (hr : ∀ row ∈ rows, row.2.qualifiers.Stored) : (elementSlot slot rows).qualifiers.Stored := by
  induction rows generalizing slot with
  | nil => exact hs
  | cons row rows ih =>
    exact ih (hr row (by simp)) fun other ho => hr other (by simp [ho])

omit hnt in
lemma formed_arrayOf {element : TypeTree} {slot : Slot} {rows : List (Int × Slot)}
    (he : element.Formed) (hs : slot.qualifiers.Stored)
    (hr : ∀ row ∈ rows, row.2.qualifiers.Stored) : (arrayOf element slot rows).Formed := by
  induction rows generalizing slot with
  | nil => exact he
  | cons row rows ih =>
    have hi := ih (hr row (by simp)) fun other ho => hr other (by simp [ho])
    exact .array slot.serial row.1 hs hi

lemma reads_array {slot : Slot} (hs : slot.qualifiers.Stored) :
    Reads t 0 (array nt slot) TypeTree.Formed := by
  refine reads_dimension.andThen fun n _ => ?_
  refine (reads_repeatTimes reads_extent n).bind fun rows hr => ?_
  refine reads_arrayStorage.bind fun q hq => ?_
  refine (hnt _ (stored_elementSlot hs hr)).andThen fun element he => ?_
  refine Reads.pure (formed_arrayOf he ?_ hr)
  cases q with
  | none => exact hs
  | some q => exact hq q rfl

/-- The code itself moves the cursor, or else the primitive type does. -/
lemma reads_typeCode {slot : Slot} (hs : slot.qualifiers.Stored) :
    Reads t 1 (typeCode nt slot) TypeTree.Formed := by
  intro s hsound
  refine (tries_code (P := fun c => c ≠ .aggregate .enumKey) (by decide)).bind hsound
    (fun c hc => ?_) fun u hu _ hmissing => ?_
  · cases c with
    | aggregate key => exact reads_aggregate hnt (by rintro rfl; exact hc rfl) hs
    | enumeration => exact reads_enumeration hs
    | functionPointer => exact reads_functionPointer hnt hs
    | reference => exact reads_indirection hnt rfl hs
    | pointer => exact reads_indirection hnt rfl hs
    | constPointer => exact reads_indirection hnt rfl ⟨hs.1, hs.2.1, hs.2.2⟩
    | array => exact reads_array hnt hs
  · exact (ends_primitive hu hmissing).bind fun p v _ hv _ =>
      Reads.pure (.primitive p slot.serial hs) v hv

end Productions

lemma reads_typeWithin (levels : Nat) : ReadsTypes t (typeWithin levels) := by
  induction levels with
  | zero => exact fun slot _ => reads_nested fun _ hs => ⟨hs.fits, Malformed.blames_of_silent rfl⟩
  | succ levels ih => exact fun slot hs => reads_nested (reads_typeCode ih hs)

lemma reads_typeInto : ReadsTypes t typeInto :=
  fun slot hs s h => reads_typeWithin (depthLimit - s.depth) slot hs s h

/-! ### Symbols -/

lemma reads_paramsEnd (mark : Text) :
    Reads t 0 (do if ← exhausted then pure true else upcoming mark) fun _ => True := by
  have hend : Reads t 0 exhausted fun _ => True := fun _ hs => ⟨trivial, hs, Nat.le_refl _⟩
  refine hend.bind fun b _ => ?_
  cases b with
  | true => exact Reads.pure trivial
  | false => exact fun _ hs => ⟨trivial, hs, Nat.le_refl _⟩

lemma reads_params (mark : Text) :
    Reads t 0 (repeatUntil (do if ← exhausted then pure true else upcoming mark) (param typeInto))
      fun params => ∀ p ∈ params, p.Formed :=
  reads_repeatUntil (reads_paramsEnd mark) (reads_param reads_typeInto)

lemma reads_freeFunction {p : Path} (hp : ∀ part ∈ p, '@' ∉ part) :
    Reads t 0 freeFunction fun type => Symbol.Formed { path := p, type } := by
  refine (reads_issue .function {}).bind fun slot hs => ?_
  refine reads_convention.andThen fun c hc => ?_
  refine reads_returnStorage.bind fun q hq => ?_
  refine (reads_issue .unknown q).bind fun resultSlot hr => ?_
  refine (reads_typeInto resultSlot (hr ▸ hq)).andThen fun result hresult => ?_
  refine (reads_params ['@']).bind fun params hparams => ?_
  have := Symbol.Formed.freeFunction slot.serial hp hc hresult hparams
  exact Reads.pure (by rw [Slot.node, hs]; exact this)

lemma reads_memberResult {q : Qualifiers} (hq : q.Stored) :
    Reads t 0 (memberResult q) fun result => result.Formed ∨
      ∃ q j, q.Stored ∧ result = .leaf { kind := .noReturn, qualifiers := q, serial := j } := by
  refine (reads_accept _).bind fun alone _ => ?_
  cases alone with
  | true =>
    refine (reads_issue .noReturn q).bind fun slot hs => ?_
    exact Reads.pure (.inr ⟨slot.qualifiers, slot.serial, hs ▸ hq, rfl⟩)
  | false =>
    refine (reads_issue .unknown q).bind fun slot hs => ?_
    refine (reads_typeInto slot (hs ▸ hq)).andThen fun result hr => ?_
    exact (reads_accept _).bind fun _ _ => Reads.pure (.inl hr)

lemma ends_memberFunction {p : Path} (hp : ∀ part ∈ p, '@' ∉ part) {s : State} (hs : Sound t s)
    (hcodes : entityCodes.Missing s.rest) :
    Ends t 0 (fun type => Symbol.Formed { path := p, type }) s (memberFunction s) := by
  rw [memberFunction, bind_of_ok (issue_eq .function {} s)]
  have hs' : Sound t { s with issued := s.issued + 1 } := ⟨hs.text, hs.names, hs.fits⟩
  refine (ends_functionClass hs' hcodes).andThen fun f u hf hu _ => ?_
  refine Reads.bind (reads_accept _) (fun _ _ => ?_) u hu
  refine reads_convention.andThen fun c hc => ?_
  refine reads_storage.bind fun q hq => ?_
  refine (reads_memberResult hq).bind fun result hr => ?_
  refine (reads_params ['Z']).bind fun params hparams => ?_
  exact Reads.pure (Symbol.Formed.memberFunction s.issued hp hf hc hr hparams)

lemma ends_body {p : Path} (hp : ∀ part ∈ p, '@' ∉ part) {s : State} (hs : Sound t s) :
    ∀ e : Entity, (e = .memberFunction → entityCodes.Missing s.rest) →
      Ends t 0 Symbol.Formed s (body (.decorated e p) s)
  | .variable, _ =>
    ((reads_param reads_typeInto).andThen fun _ ht => Reads.pure (.ofVariable hp ht)) s hs
  | .freeFunction, _ => ((reads_freeFunction hp).bind fun _ ht => Reads.pure ht) s hs
  | .memberFunction, hcodes =>
    (ends_memberFunction hp hs (hcodes rfl)).bind fun _ u ht hu _ => Reads.pure ht u hu

/-- Behind the mark of a decorated name there is always a path. -/
lemma ends_heading {s : State} {w : Text} (hs : Sound t s) (h : s.rest = '?' :: w) :
    Ends t 0 (fun head => ∃ e p, head = .decorated e p ∧ ∀ part ∈ p, '@' ∉ part) s (heading s) := by
  rw [heading, bind_of_ok (accept_eq (List.cons_ne_nil _ _) h)]
  have hrest : Reads t 0 (do
      let p ← path
      let entity ← code entityCodes
      pure (Heading.decorated (entity.getD .memberFunction) p))
      fun head => ∃ e p, head = .decorated e p ∧ ∀ part ∈ p, '@' ∉ part := by
    refine reads_path.bind fun p hp => ?_
    refine (tries_code (P := fun _ => True) (by decide)).reads.bind fun entity _ => ?_
    exact Reads.pure ⟨_, p, rfl, hp⟩
  refine (hrest _ ?_).from ?_
  · exact hs.pass h trivial
  · change w.length + 0 ≤ s.rest.length + 0
    simp [h]

lemma decorated_of_heading {head : Heading} {v : State} (ht : t.head? = some '?')
    (h : heading (.start t) = .ok head v) : ∃ e p, head = .decorated e p := by
  obtain ⟨w, hw⟩ := List.head?_eq_some_iff.1 ht
  have hends := ends_heading (sound_start t) hw
  rw [h] at hends
  obtain ⟨e, p, he, -⟩ := hends.1
  exact ⟨e, p, he⟩

/-- A name is that of a member function where no code says otherwise. -/
lemma missing_of_heading {s u : State} {p : Path}
    (h : heading s = .ok (.decorated .memberFunction p) u) : entityCodes.Missing u.rest := by
  obtain ⟨marked, v, -, h⟩ := bind_eq_ok_iff.1 h
  cases marked with
  | false => cases h
  | true =>
    obtain ⟨q, w, -, h⟩ := bind_eq_ok_iff.1 h
    obtain ⟨entity, x, hentity, h⟩ := bind_eq_ok_iff.1 h
    have hnot : ∀ e ∈ entityCodes, e.2 ≠ .memberFunction := by decide
    have hne : ∀ e ∈ entityCodes, e.1 ≠ [] := by decide
    rcases code_cases hne w with
      ⟨spelling, a, c, hmem, -, -, hc⟩ | ⟨hahead, hc⟩ <;> rw [hc] at hentity <;> cases hentity
    · injection h with h
      injection h with h
      exact absurd h (hnot _ hmem)
    · cases h
      exact missing_of_ahead? hahead

lemma ends_symbol {s : State} {w : Text} (hs : Sound t s) (h : s.rest = '?' :: w) :
    Ends t 0 Symbol.Formed s (symbol s) := by
  have hends := ends_heading hs h
  cases hhead : heading s with
  | error f u =>
    rw [hhead] at hends
    rw [symbol, bind_of_error hhead]
    exact hends
  | ok head u =>
    rw [hhead] at hends
    obtain ⟨⟨e, p, rfl, hp⟩, hu, hk⟩ := hends
    rw [symbol, bind_of_ok hhead]
    refine (ends_body hp hu e ?_).from hk
    rintro rfl
    exact missing_of_heading hhead

/-- A text without the mark is the name of a symbol without a type, and no lexeme is read. -/
lemma symbol_of_identifier (h : t.head? ≠ some '?') :
    symbol (.start t) =
      .ok { path := [t], type := .leaf {} } { State.start t with issued := 1 } := by
  have hmark : ¬ ['?'] <+: t := by
    rintro ⟨w, rfl⟩
    simp at h
  have hheading : heading (.start t) = .ok (.identifier t) (.start t) := by
    rw [heading, bind_of_ok (accept_of_no_mark hmark)]
    rfl
  rw [symbol, bind_of_ok hheading, body, bind_of_ok (issue_eq .unknown {} (.start t))]
  rfl

end Undecorate.Reading

namespace Undecorate

open Reading

/-! ### Whole texts -/

lemma decoder_of_ok {t : Text} {s : Symbol} {u : State} (h : symbol (.start t) = .ok s u) :
    Decoder.parse {} t = (.ok s, { state := u }) := by
  have : symbol (Decoder.restart {} t) = .ok s u := h
  simp only [Decoder.parse, this]

lemma decoder_of_error {t : Text} {f : Failure} {u : State} (h : symbol (.start t) = .error f u) :
    Decoder.parse {} t = (.error f, { state := u }) := by
  have : symbol (Decoder.restart {} t) = .error f u := h
  simp only [Decoder.parse, this]

lemma parse_of_identifier {t : Text} (h : t.head? ≠ some '?') :
    parse t = .ok { path := [t], type := .leaf {} } := by
  rw [parse, decoder_of_ok (symbol_of_identifier h)]

/-- The ways in which reading a whole text can end. -/
lemma decoder_cases (t : Text) :
    (∃ s u, Decoder.parse {} t = (.ok s, { state := u }) ∧ (∀ l ∈ u.lexemes, l.Fits) ∧
      (s.Formed ∨ s = { path := [t], type := .leaf {} } ∧ t.head? ≠ some '?')) ∨
    ∃ f u, Decoder.parse {} t = (.error f, { state := u }) ∧ Fails t f u := by
  by_cases h : t.head? = some '?'
  · obtain ⟨w, hw⟩ := List.head?_eq_some_iff.1 h
    have hends := ends_symbol (sound_start t) hw
    cases hr : symbol (.start t) with
    | error f u =>
      rw [hr] at hends
      exact .inr ⟨f, u, decoder_of_error hr, hends⟩
    | ok s u =>
      rw [hr] at hends
      exact .inl ⟨s, u, decoder_of_ok hr, hends.2.1.fits, .inl hends.1⟩
  · refine .inl ⟨_, _, decoder_of_ok (symbol_of_identifier h), ?_, .inr ⟨rfl, h⟩⟩
    simp [State.start]

/-- **What is read is formed**: a decorated name that is read has a formed type, and no `@` in its
names. -/
theorem formed_of_parse {t : Text} {s : Symbol} (ht : t.head? = some '?') (h : parse t = .ok s) :
    s.Formed := by
  rcases decoder_cases t with ⟨s', u, hd, -, hs | ⟨-, hne⟩⟩ | ⟨f, u, hd, -⟩
  · rw [parse, hd] at h
    cases h
    exact hs
  · exact absurd ht hne
  · rw [parse, hd] at h
    cases h

lemma ok_of_parse {t : Text} {s : Symbol} (h : parse t = .ok s) :
    ∃ u, symbol (.start t) = .ok s u := by
  cases hr : symbol (.start t) with
  | error f u =>
    rw [parse, decoder_of_error hr] at h
    cases h
  | ok s' u =>
    rw [parse, decoder_of_ok hr] at h
    cases h
    exact ⟨u, rfl⟩

/-- What is left behind where a decorated name is read. -/
lemma symbol_of_parse {t : Text} {s : Symbol} (ht : t.head? = some '?') (h : parse t = .ok s) :
    ∃ u, symbol (.start t) = .ok s u ∧ Sound t u := by
  obtain ⟨w, hw⟩ := List.head?_eq_some_iff.1 ht
  obtain ⟨u, hu⟩ := ok_of_parse h
  have hends := ends_symbol (sound_start t) hw
  rw [hu] at hends
  exact ⟨u, hu, hends.2.1⟩

/-- The lexemes that a text is read as, in order. -/
def lexemes (t : Text) : List Lexeme := (Decoder.parse {} t).2.state.lexemes.reverse

/-- The text behind the last lexeme. -/
def unread (t : Text) : Text := (Decoder.parse {} t).2.state.rest

/-- What a test finds of the symbol that a text is read as. -/
lemma exists_of_test {t : Text} {p : Symbol → Bool} (h : (parse t).toOption.any p = true) :
    ∃ s, parse t = .ok s ∧ p s = true := by
  cases hs : parse t with
  | error f =>
    rw [hs] at h
    cases h
  | ok s =>
    rw [hs] at h
    exact ⟨s, rfl, h⟩

lemma render_of_toOption {s : Symbol} {d : Text} (h : s.render.toOption = some d) :
    s.render = .ok d := by
  cases hr : s.render with
  | error f =>
    rw [hr] at h
    cases h
  | ok e =>
    rw [hr] at h
    cases h
    rfl

end Undecorate
