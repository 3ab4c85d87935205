import Mathlib.Data.List.Find
import Mathlib.Data.List.Infix
import Undecorate.Proofs.Encoding.Spelling
import Undecorate.Proofs.Reading.Lexeme

/-!
What the reader looks at before it decides.

A step decides by the marks that come next and by the end of the text. Two texts are `Alike` for a
list of marks if such a decision is the same in both. Behind a mark that is `Decisive` the texts
may differ as they like, since no other mark goes on from it; behind a mark that another one starts
with they have to be alike again.
-/

namespace Undecorate.Reading

/-- The same marks come next in both texts, and both have an end here or none has. -/
structure Alike (marks : List Text) (r r' : Text) : Prop where
  ends : r = [] ↔ r' = []
  starts : ∀ m ∈ marks, m <+: r ↔ m <+: r'

/-- No other mark goes on from this one. -/
def Decisive (marks : List Text) (w : Text) : Prop := w ≠ [] ∧ ∀ m ∈ marks, w <+: m → m = w

/-- Where another mark goes on from this one, the rest of it is a mark too. -/
def Resumed (marks : List Text) (w : Text) : Prop :=
  w ≠ [] ∧ ∀ m ∈ marks, w <+: m → m = w ∨ m.drop w.length ∈ marks

instance (marks : List Text) (w : Text) : Decidable (Decisive marks w) :=
  inferInstanceAs (Decidable (_ ∧ _))

instance (marks : List Text) (w : Text) : Decidable (Resumed marks w) :=
  inferInstanceAs (Decidable (_ ∧ _))

variable {α : Type} {marks : List Text} {r r' : Text}

lemma Alike.refl (marks : List Text) (r : Text) : Alike marks r r :=
  ⟨Iff.rfl, fun _ _ => Iff.rfl⟩

lemma Alike.mono {fewer : List Text} (h : Alike marks r r') (hf : fewer ⊆ marks) :
    Alike fewer r r' :=
  ⟨h.ends, fun m hm => h.starts m (hf hm)⟩

/-- Texts in which none of the marks comes next are alike. -/
lemma alike_of_no_mark (hr : r ≠ []) (hr' : r' ≠ []) (h : ∀ m ∈ marks, ¬ m <+: r ∧ ¬ m <+: r') :
    Alike marks r r' :=
  ⟨iff_of_false hr hr', fun m hm => iff_of_false (h m hm).1 (h m hm).2⟩

/-- Only a mark that goes on from `w` reaches what is behind `w`. -/
lemma prefix_append_congr {m w : Text}
    (h : w <+: m → (m.drop w.length <+: r ↔ m.drop w.length <+: r')) :
    m <+: w ++ r ↔ m <+: w ++ r' := by
  by_cases hw : w <+: m
  · obtain ⟨e, rfl⟩ := hw
    simpa using h ⟨e, rfl⟩
  · have hshort : ∀ q, m <+: w ++ q ↔ m <+: w := fun q =>
      ⟨fun hm => (List.prefix_or_prefix_of_prefix hm (List.prefix_append w q)).resolve_right hw,
        fun hm => hm.trans (List.prefix_append w q)⟩
    rw [hshort, hshort]

lemma Decisive.alike {w : Text} (hw : Decisive marks w) (r r' : Text) :
    Alike marks (w ++ r) (w ++ r') := by
  refine ⟨by simp [hw.1], fun m hm => prefix_append_congr fun hp => ?_⟩
  simp [hw.2 m hm hp]

lemma Resumed.alike {w : Text} (hw : Resumed marks w) (h : Alike marks r r') :
    Alike marks (w ++ r) (w ++ r') := by
  refine ⟨by simp [hw.1], fun m hm => prefix_append_congr fun hp => ?_⟩
  rcases hw.2 m hm hp with rfl | hd
  · simp
  · exact h.starts _ hd

lemma Decisive.resumed {w : Text} (hw : Decisive marks w) : Resumed marks w :=
  ⟨hw.1, fun m hm hp => .inl (hw.2 m hm hp)⟩

/-! ### Decisions -/

lemma isSome_behind?_iff {m : Text} : (Text.behind? m r).isSome = true ↔ m <+: r := by
  rw [Option.isSome_iff_exists]
  exact exists_congr fun after => Text.behind?_eq_some_iff.trans eq_comm

lemma Alike.behind?_eq {m : Text} (h : Alike marks r r') (hm : m ∈ marks) :
    (Text.behind? m r).isSome = (Text.behind? m r').isSome := by
  rw [Bool.eq_iff_iff, isSome_behind?_iff, isSome_behind?_iff, h.starts m hm]

/-- A table whose codes are marks gives the same code for texts that are alike. -/
lemma Alike.ahead?_eq {table : CodeTable α} (h : Alike marks r r')
    (ht : ∀ e ∈ table, e.1 ∈ marks) : table.ahead? r = table.ahead? r' := by
  refine List.find?_congr fun e he => ?_
  exact h.behind?_eq (ht e he)

lemma singleton_prefix_iff {c : Char} : [c] <+: r ↔ r.head? = some c := by
  cases r <;> simp [eq_comm]

/-- A table whose letters are marks gives the same letter for texts that are alike. -/
lemma Alike.lookup_eq {table : LetterTable α} (h : Alike marks r r')
    (ht : ∀ e ∈ table, [e.1] ∈ marks) :
    r.head?.bind (fun x => table.lookup x) = r'.head?.bind (fun x => table.lookup x) := by
  have hhead : ∀ c v, table.lookup c = some v → (r.head? = some c ↔ r'.head? = some c) := by
    intro c v hc
    rw [← singleton_prefix_iff, ← singleton_prefix_iff]
    exact h.starts [c] (ht _ (mem_of_lookup_eq_some hc))
  ext v
  simp only [Option.bind_eq_some_iff]
  exact exists_congr fun c => and_congr_left fun hc => hhead c v hc

/-! ### Numbers

A digit or a number is read from its own text, whatever follows. -/

lemma digitChar_of_digit? {c d : Cursor} {n : Nat} (h : c.digit? = some (n, d)) :
    (Nat.digitChar n).isDigit = true ∧ (Nat.digitChar n).toNat - '0'.toNat = n := by
  unfold Cursor.digit? at h
  split at h
  · split at h
    · next hx =>
      cases h
      rw [digitChar_toNat hx]
      exact ⟨hx, rfl⟩
    · cases h
  · cases h

lemma digit?_append {c d e : Cursor} {n : Nat} {v : Text} (h : c.digit? = some (n, d))
    (he : e.rest = Nat.digitChar n :: v) : ∃ d', e.digit? = some (n, d') ∧ d'.rest = v := by
  obtain ⟨hdigit, hvalue⟩ := digitChar_of_digit? h
  simpa [Cursor.digit?, Cursor.take, he, hdigit] using hvalue

lemma digit?_eq_none_iff {c : Cursor} :
    c.digit? = none ↔ ∀ x ∈ c.rest.head?, x.isDigit = false := by
  unfold Cursor.digit? Cursor.take
  cases c.rest <;> simp

lemma letterRun?_append {c d e : Cursor} {n : Nat} {w v : Text} (h : c.letterRun? = some (n, d))
    (hw : c.rest = w ++ d.rest) (he : e.rest = w ++ v) :
    ∃ d', e.letterRun? = some (n, d') ∧ d'.rest = v := by
  unfold Cursor.letterRun? Cursor.readUntil? at h
  cases hcut : Text.cut? ['@'] c.rest with
  | none => simp [hcut] at h
  | some p =>
    obtain ⟨run, r⟩ := p
    simp only [hcut, Option.map_some] at h
    split at h
    · next hall =>
      cases h
      have hrun : w ++ r = run ++ ['@'] ++ r := hw ▸ Text.eq_of_cut?_eq_some hcut
      rw [List.append_cancel_right hrun, List.append_assoc, List.singleton_append] at he
      have hcut' := Encoding.cut?_append_at (r := v) (not_mem_of_cut? hcut)
      simp [Cursor.letterRun?, Cursor.readUntil?, he, hcut', hall]
    · cases h

lemma magnitude?_append {c d e : Cursor} {n : Nat} {w v : Text} (h : c.magnitude? = some (n, d))
    (hw : c.rest = w ++ d.rest) (he : e.rest = w ++ v) :
    w ≠ [] ∧ ∃ d', e.magnitude? = some (n, d') ∧ d'.rest = v := by
  have hne : w ≠ [] := by
    obtain ⟨x, hx, hr⟩ := rest_of_magnitude? h
    rwa [List.append_cancel_right (hw.symm.trans hr)]
  refine ⟨hne, ?_⟩
  unfold Cursor.magnitude? at h
  split at h
  · next k after hd =>
    cases h
    have hk : w ++ d.rest = [Nat.digitChar k] ++ d.rest := hw ▸ digit?_eq_some hd
    rw [List.append_cancel_right hk] at he
    obtain ⟨d', hd', hr⟩ := digit?_append hd he
    exact ⟨d', by simp [Cursor.magnitude?, hd'], hr⟩
  · next hd =>
    obtain ⟨d', hd', hr⟩ := letterRun?_append h hw he
    have hno : e.digit? = none := by
      rw [digit?_eq_none_iff, hw, List.head?_append_of_ne_nil _ hne] at hd
      rwa [digit?_eq_none_iff, he, List.head?_append_of_ne_nil _ hne]
    exact ⟨d', by simp [Cursor.magnitude?, hno, hd'], hr⟩

/-- Behind a sign, the magnitude is negated. -/
lemma number_eq_some_iff_of_sign {c d : Cursor} {r : Text} {m : Int} (h : c.rest = '?' :: r) :
    c.number = (some m, d) ↔ ∃ n : Nat,
      ({ before := '?' :: c.before, rest := r } : Cursor).magnitude? = some (n, d) ∧ m = -n := by
  cases hm : ({ before := '?' :: c.before, rest := r } : Cursor).magnitude? <;>
    simp [Cursor.number, Cursor.consume?, Cursor.startsWith, h, Text.behind?, hm, Prod.ext_iff,
      eq_comm, and_comm]

lemma number_eq_some_iff_of_no_sign {c d : Cursor} {m : Int} (h : c.rest.head? ≠ some '?') :
    c.number = (some m, d) ↔ ∃ n : Nat, c.magnitude? = some (n, d) ∧ m = n := by
  have hno : Text.behind? ['?'] c.rest = none := by
    rw [← Option.not_isSome_iff_eq_none, isSome_behind?_iff, singleton_prefix_iff]
    exact h
  cases hm : c.magnitude? <;>
    simp [Cursor.number, Cursor.consume?, Cursor.startsWith, hno, hm, Prod.ext_iff, eq_comm,
      and_comm]

lemma number_append {c d e : Cursor} {n : Int} {w v : Text} (h : c.number = (some n, d))
    (hw : c.rest = w ++ d.rest) (he : e.rest = w ++ v) :
    ∃ d', e.number = (some n, d') ∧ d'.rest = v := by
  by_cases hsign : c.rest.head? = some '?'
  · obtain ⟨r, hr⟩ := List.head?_eq_some_iff.1 hsign
    obtain ⟨m, hm, hn⟩ := (number_eq_some_iff_of_sign hr).1 h
    obtain ⟨x, -, hx⟩ := rest_of_magnitude? hm
    change r = x ++ d.rest at hx
    have hwx : w ++ d.rest = '?' :: x ++ d.rest := by rw [← hw, hr, hx, List.cons_append]
    rw [List.append_cancel_right hwx] at he
    obtain ⟨-, d', hd', hr'⟩ := magnitude?_append (v := v)
      (e := { before := '?' :: e.before, rest := x ++ v }) hm hx rfl
    exact ⟨d', (number_eq_some_iff_of_sign he).2 ⟨m, hd', hn⟩, hr'⟩
  · obtain ⟨m, hm, hn⟩ := (number_eq_some_iff_of_no_sign hsign).1 h
    obtain ⟨hne, d', hd', hr'⟩ := magnitude?_append hm hw he
    have hno : e.rest.head? ≠ some '?' := by
      rw [hw, List.head?_append_of_ne_nil _ hne] at hsign
      rwa [he, List.head?_append_of_ne_nil _ hne]
    exact ⟨d', (number_eq_some_iff_of_no_sign hno).2 ⟨m, hd', hn⟩, hr'⟩

/-! ### The marks of decorated names -/

/-- What comes first behind the name of a symbol, in a type, in its storage or in what closes a list
of types, and how a mark that another one starts with goes on. -/
def typeMarks : List Text :=
  entityCodes.map Prod.fst ++ typeCodes.map Prod.fst ++ primitiveLetters.map (fun e => [e.1]) ++
    extendedPrimitiveCodes.map Prod.fst ++ storageLetters.map (fun e => [e.1]) ++
    returnStorageCodes.map Prod.fst ++ arrayStorageCodes.map Prod.fst ++
    functionClassLetters.map (fun e => [e.1]) ++ conventionLetters.map (fun e => [e.1]) ++
    [arrayStorageMark, ['@', 'Z'], ['Z'], ['@'], ['6', 'A']]

/-- The marks of types without `P`, which may turn out to be `P6A`, and `@`, which may turn out to
be `@Z`. -/
def decisiveMarks : List Text := typeMarks.filter fun m => m ≠ ['P'] ∧ m ≠ ['@']

lemma mem_typeMarks {m : Text} (h : m ∈ decisiveMarks) : m ∈ typeMarks := List.mem_of_mem_filter h

lemma decisive_of_mem : ∀ m ∈ decisiveMarks, Decisive typeMarks m := by
  decide +kernel

lemma resumed_pointer : Resumed typeMarks ['P'] := by
  decide +kernel

/-- The marks that show in front of the first type of a symbol. `@Z` is none of them, since there is
no list of parameters yet that it could close. -/
def frontMarks : List Text := typeMarks.filter (· ≠ ['@', 'Z'])

lemma front_subset : frontMarks ⊆ typeMarks := fun _ => List.mem_of_mem_filter

lemma decides_of_mem {m : Text} (h : m ∈ decisiveMarks) : m ∈ typeMarks ∧ Decisive typeMarks m :=
  ⟨mem_typeMarks h, decisive_of_mem m h⟩

lemma decides_front_of_mem {m : Text} (h : m ∈ decisiveMarks ∧ m ≠ ['@', 'Z']) :
    m ∈ frontMarks ∧ Decisive frontMarks m := by
  have hd := decisive_of_mem m h.1
  exact ⟨List.mem_filter.2 ⟨mem_typeMarks h.1, by simpa using h.2⟩, hd.1,
    fun w hw => hd.2 w (front_subset hw)⟩

/-- Without `@Z`, no other mark goes on from `@`. -/
lemma decisive_front_at : Decisive frontMarks ['@'] := by
  decide +kernel

/-- What ends a name, and what a template starts with in its place. -/
def nameMarks : List Text := [['@'], ['?', '$']]

/-! ### Where parameters end

The parameters of a function that is not pointed to end before a mark or with the text. Which of the
two it is makes no difference. -/

/-- The parameters have come to their end. -/
def Closed (mark r : Text) : Prop := r = [] ∨ mark <+: r

instance (mark r : Text) : Decidable (Closed mark r) := inferInstanceAs (Decidable (_ ∨ _))

/-- A symbol may end in front of this text: a variable in front of any text, a function where its
parameters end. -/
def EndsBefore : Entity → Text → Prop
  | .variable, _ => True
  | .freeFunction, r => Closed ['@'] r
  | .memberFunction, r => Closed ['Z'] r

instance : (e : Entity) → (r : Text) → Decidable (EndsBefore e r)
  | .variable, _ => .isTrue trivial
  | .freeFunction, r => inferInstanceAs (Decidable (Closed ['@'] r))
  | .memberFunction, r => inferInstanceAs (Decidable (Closed ['Z'] r))

/-- The same marks come next in both texts, or the parameters end in both. -/
def Continues (mark r r' : Text) : Prop := Alike typeMarks r r' ∨ Closed mark r ∧ Closed mark r'

lemma Continues.closed_iff {mark : Text} (h : Continues mark r r') (hm : mark ∈ typeMarks) :
    Closed mark r ↔ Closed mark r' := by
  rcases h with h | ⟨h, h'⟩
  · exact or_congr h.ends (h.starts mark hm)
  · exact iff_of_true h h'

/-- Another mark shows in both texts or in none of them. -/
lemma Continues.prefix_iff {c d : Char} (h : Continues [c] r r') (hd : [d] ∈ typeMarks)
    (hcd : c ≠ d) : [d] <+: r ↔ [d] <+: r' := by
  have hno : ∀ q : Text, Closed [c] q → ¬ [d] <+: q := by
    rintro q (rfl | hq) hp
    · simp at hp
    · rw [singleton_prefix_iff] at hq hp
      exact hcd (Option.some.inj (hq.symm.trans hp))
  rcases h with h | ⟨h, h'⟩
  · exact h.starts [d] hd
  · exact iff_of_false (hno r h) (hno r' h')

/-- The same marks come next in both texts, or the symbol may end in front of both. -/
def Follow (e : Entity) (r r' : Text) : Prop :=
  Alike typeMarks r r' ∨ EndsBefore e r ∧ EndsBefore e r'

end Undecorate.Reading
