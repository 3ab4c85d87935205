import Undecorate.Proofs.Reading.Formed
import Undecorate.Proofs.Declaration.Word

/-!
Which declarations keep their words apart.

The writer puts a space in front of `const` and of a name only where a letter stands before them,
so that a word runs into the one before it if that ends in a digit or an underscore. Only the name
of a tag can end so, and only if no template arguments follow. `wordsApart` goes through a symbol
and looks for such places; if there are none, the words of the declaration are the words that were
written, and otherwise some of them have become one.
-/

namespace Undecorate

open Script

/-! ### Scripts -/

namespace Script

variable {a b : Script} {w t : Text} {x y : Bool}

/-- Behind `w` the words of the script are set off, and its pieces stand apart, exactly if `x`. -/
def Spaced (s : Script) (w : Text) (x : Bool) : Prop :=
  s.fault = none → (SetOff w s.pieces ↔ x = true) ∧ (Apart w s.pieces ↔ x = true)

lemma Spaced.append (ha : a.Spaced w x) (hb : a.fault = none → b.Spaced (written w a.pieces) y) :
    (a ++ b).Spaced w (x && y) := by
  intro hf
  obtain ⟨hfa, hfb⟩ := fault_append_eq_none.1 hf
  obtain ⟨hsa, haa⟩ := ha hfa
  obtain ⟨hsb, hab⟩ := hb hfa hfb
  rw [pieces_append hfa, setOff_append, apart_append, Bool.and_eq_true, hsa, haa, hsb, hab]
  exact ⟨Iff.rfl, Iff.rfl⟩

/-- Where the first of two scripts leaves nothing to ask for. -/
lemma Spaced.andThen (ha : a.Spaced w true)
    (hb : a.fault = none → b.Spaced (written w a.pieces) y) : (a ++ b).Spaced w y := by
  simpa using ha.append hb

lemma spaced_fail (f : Fault) (w : Text) (x : Bool) : (fail f).Spaced w x := fun h => by cases h

lemma spaced_empty (w : Text) : ({} : Script).Spaced w true :=
  fun _ => ⟨by simp [setOff_nil], by simp [Apart]⟩

lemma spaced_text (h : w.meets t = false) : (text t).Spaced w true :=
  fun _ => ⟨by simp [text, setOff_text, setOff_nil], by simp [text, Apart, h]⟩

end Script

lemma written_of_text (w t : Text) : written w (text t).pieces = w ++ t := by
  simp [text]

lemma spaced_constMark (node : Node) (w : Text) :
    (constMark node).Spaced w (!(node.qualifiers.isConst && w.endsBare)) := by
  unfold constMark
  split_ifs with hc
  · intro _
    have hmeets : (afterGap w).meets "const".toList = w.endsBare := by
      rw [Text.meets, endsWord_afterGap]
      exact Bool.and_true _
    change (SetOff w [.gap, .text "const".toList] ↔ _) ∧ (Apart w [.gap, .text "const".toList] ↔ _)
    simp only [setOff_gap, setOff_text, setOff_nil, Apart, hmeets, hc]
    simp
  · simpa [hc] using spaced_empty w

lemma endsBare_constMark (node : Node) (w : Text) :
    (written w (constMark node).pieces).endsBare = (!node.qualifiers.isConst && w.endsBare) := by
  unfold constMark
  split_ifs with hc
  · change (written w [.gap, .text "const".toList]).endsBare = _
    rw [written_gap, written_text, written_nil, Text.endsBare_append_of_ne (by decide), hc]
    rfl
  · simp [hc]

/-- Whether a name is written with a digit or an underscore at its end. -/
def Path.endsBare : Path → Bool
  | [] => false
  | base :: _ => base.endsBare

lemma baseName_of_isWord {base : Text} (h : base.IsWord) : baseName base = base := by
  have hmark : base.head? ≠ some '?' := by
    intro hb
    obtain ⟨cls, rfl⟩ := List.head?_eq_some_iff.1 hb
    have := h.2
    rw [List.all_cons, show isWordChar '?' = false by decide] at this
    cases this
  unfold baseName
  split <;> simp_all

lemma Text.IsWord.meets {t : Text} (h : t.IsWord) (w u : Text) :
    w.meets (t ++ u) = w.endsWord := by
  obtain ⟨hne, hall⟩ := h
  cases t with
  | nil => exact absurd rfl hne
  | cons c t =>
    rw [List.all_cons, Bool.and_eq_true] at hall
    simp [Text.meets, hall.1]

/-- The parts of a name behind its gap: only what stands before the first one matters. -/
lemma apart_parts {scopes : Path} {base : Text} (hs : ∀ scope ∈ scopes, scope.IsWord)
    (hb : base.IsWord) (w : Text) :
    Apart w ((scopes.map fun scope => Piece.text (scope ++ "::".toList)) ++ [.text base]) ↔
      w.endsWord = false := by
  induction scopes generalizing w with
  | nil =>
    have := hb.meets w []
    rw [List.append_nil] at this
    simp [Apart, this]
  | cons scope scopes ih =>
    have hcolon : (w ++ (scope ++ "::".toList)).endsWord = false := by
      have hshape : w ++ (scope ++ "::".toList) = w ++ scope ++ [':'] ++ [':'] := by simp
      rw [hshape]
      exact Text.endsWord_append_singleton _ ':'
    rw [List.map_cons, List.cons_append, Apart, (hs scope (by simp)).meets,
      ih (fun s h => hs s (by simp [h])), hcolon]
    simp

lemma spaced_qualified {p : Path} (h : ∀ part ∈ p, part.IsWord) (w : Text) :
    (qualified p).Spaced w (p.isEmpty || !w.endsBare) := by
  cases p with
  | nil => exact spaced_empty w
  | cons base scopes =>
    intro _
    have hbase : base.IsWord := h base (by simp)
    have hscopes : ∀ scope ∈ scopes.reverse, scope.IsWord := fun s hs => h s (by simp_all)
    have hno : ∀ (q : List Piece) (w : Text), .gap ∉ q → SetOff w q := by
      rintro q w hq before after rfl
      simp at hq
    have hset := hno ((scopes.reverse.map fun scope => Piece.text (scope ++ "::".toList)) ++
      [.text base]) (afterGap w) (by simp)
    have hapart := apart_parts hscopes hbase (afterGap w)
    rw [endsWord_afterGap] at hapart
    simp only [qualified, baseName_of_isWord hbase, List.cons_append, setOff_gap, Apart, hset,
      hapart]
    simp

lemma endsBare_qualified {p : Path} (h : ∀ part ∈ p, part.IsWord) {w : Text}
    (hw : w.endsBare = false) : (written w (qualified p).pieces).endsBare = p.endsBare := by
  cases p with
  | nil => simpa [qualified, Path.endsBare] using hw
  | cons base scopes =>
    have hbase : base.IsWord := h base (by simp)
    simp only [qualified, baseName_of_isWord hbase, written_append, written_text, written_nil]
    rw [Text.endsBare_append_of_ne hbase.1]
    rfl

lemma spaced_bounds (extent : Option Int) (w : Text) : (bounds extent).Spaced w true := by
  have hopen : isWordChar '[' = false := by decide
  unfold bounds
  split
  · exact spaced_text (Text.meets_of_right hopen w _)
  · split
    · exact spaced_text (Text.meets_of_right hopen w _)
    · exact spaced_fail _ w true

lemma spaced_paren (inner : Option TypeTree) (mark : Char) (h : isWordChar mark = false)
    (w : Text) : (paren inner mark).Spaced w true := by
  unfold paren
  split_ifs
  · exact spaced_text (Text.meets_of_right h w [])
  · exact spaced_empty w

/-! ### Types -/

namespace TypeTree

mutual

/-- Whether the left side ends in a digit or an underscore. -/
def endsBare : TypeTree → Bool
  | mk node inner args =>
    match node.kind with
    | .function => endsBareInner inner
    | .array => !node.qualifiers.isConst && endsBareInner inner
    | .tag _ => !node.qualifiers.isConst && (args.isEmpty && node.path.endsBare)
    | _ => false

def endsBareInner : Option TypeTree → Bool
  | none => false
  | some t => endsBare t

end

mutual

/-- Whether no `const` on the left side runs into what stands before it. -/
def leftApart : TypeTree → Bool
  | mk node inner args =>
    match node.kind with
    | .function => leftApartInner inner
    | .pointer => leftApartInner inner
    | .reference => leftApartInner inner
    | .array => leftApartInner inner && !(node.qualifiers.isConst && endsBareInner inner)
    | .tag _ =>
      argsApart args && !(node.qualifiers.isConst && (args.isEmpty && node.path.endsBare))
    | _ => true

def leftApartInner : Option TypeTree → Bool
  | none => true
  | some t => leftApart t

/-- Whether no `const` on the right side runs into what stands before it. -/
def rightApart : TypeTree → Bool
  | mk node inner args =>
    match node.kind with
    | .function => argsApart args
    | .pointer => rightApartInner inner
    | .reference => rightApartInner inner
    | .array => rightApartInner inner
    | _ => true

def rightApartInner : Option TypeTree → Bool
  | none => true
  | some t => rightApart t

def argsApart : List TypeTree → Bool
  | [] => true
  | t :: ts => leftApart t && rightApart t && argsApart ts

end

/-- The two sides are spaced as computed. Behind a text that ends in no word, the left side ends as
computed. -/
structure SpacedSides (t : TypeTree) : Prop where
  left : ∀ w : Text, w.endsWord = false → (left t).Spaced w t.leftApart
  last : ∀ w : Text, w.endsWord = false → (TypeTree.left t).fault = none →
    (written w (TypeTree.left t).pieces).endsBare = t.endsBare
  right : ∀ w : Text, (TypeTree.right t).Spaced w t.rightApart

/-- All names in the tree are words. -/
def WordNames (t : TypeTree) : Prop := ∀ u ∈ t.walk, ∀ part ∈ u.node.path, part.IsWord

lemma spaced_furtherParams {ts : List TypeTree} (h : ∀ a ∈ ts, a.SpacedSides) (w : Text) :
    (furtherParams ts).Spaced w (argsApart ts) := by
  induction ts generalizing w with
  | nil => exact spaced_empty w
  | cons t ts ih =>
    have hcomma := spaced_text (w := w) (t := [',']) (Text.meets_of_right (by decide) w [])
    have hleft := (h t (by simp)).left (w ++ [',']) (Text.endsWord_append_singleton w ',')
    have hfirst := hcomma.andThen fun _ => written_of_text w [','] ▸ hleft
    exact (hfirst.append fun _ => (h t (by simp)).right _).append
      fun _ => ih (fun a ha => h a (by simp [ha])) _

lemma spaced_params {ts : List TypeTree} (h : ∀ a ∈ ts, a.SpacedSides) {w : Text}
    (hw : w.endsWord = false) : (params ts).Spaced w (argsApart ts) := by
  cases ts with
  | nil => exact spaced_empty w
  | cons t ts =>
    have hleft := (h t (by simp)).left w hw
    exact (hleft.append fun _ => (h t (by simp)).right _).append
      fun _ => spaced_furtherParams (fun a ha => h a (by simp [ha])) _

/-- A list of parameters in brackets. -/
lemma spaced_bracketed {ts : List TypeTree} {o c : Char} (h : ∀ a ∈ ts, a.SpacedSides)
    (ho : isWordChar o = false) (hc : isWordChar c = false) (w : Text) :
    (text [o] ++ params ts ++ text [c]).Spaced w (argsApart ts) := by
  have hopen := spaced_text (w := w) (t := [o]) (Text.meets_of_right ho w [])
  have hparams := spaced_params h (w := w ++ [o]) (Text.endsWord_append_singleton w o ▸ ho)
  have hclose := ((hopen.andThen fun _ => written_of_text w [o] ▸ hparams).append
    fun _ => spaced_text (t := [c]) (Text.meets_of_right hc _ []))
  rwa [Bool.and_true] at hclose

section Kinds

variable {node : Node} {inner : Option TypeTree} {args : List TypeTree}

lemma spaced_leftInner (h : ∀ t ∈ inner, t.SpacedSides) {w : Text} (hw : w.endsWord = false) :
    (leftInner inner).Spaced w (leftApartInner inner) := by
  cases inner with
  | none => exact spaced_fail _ w _
  | some t => exact (h t rfl).left w hw

lemma spaced_rightInner (h : ∀ t ∈ inner, t.SpacedSides) (w : Text) :
    (rightInner inner).Spaced w (rightApartInner inner) := by
  cases inner with
  | none => exact spaced_fail _ w _
  | some t => exact (h t rfl).right w

lemma endsBare_leftInner (h : ∀ t ∈ inner, t.SpacedSides) {w : Text} (hw : w.endsWord = false)
    (hf : (leftInner inner).fault = none) :
    (written w (leftInner inner).pieces).endsBare = endsBareInner inner := by
  cases inner with
  | none => cases hf
  | some t => exact (h t rfl).last w hw hf

/-- All types but functions have their `const` at the end of the left side. -/
lemma spacedSides_of_left (base : Script) (x bare : Bool)
    (hl : TypeTree.left (mk node inner args) = base ++ constMark node)
    (hbase : ∀ w : Text, w.endsWord = false → base.Spaced w x)
    (hlast : ∀ w : Text, w.endsWord = false → base.fault = none →
      (written w base.pieces).endsBare = bare)
    (hx : (mk node inner args).leftApart = (x && !(node.qualifiers.isConst && bare)))
    (hbare : (mk node inner args).endsBare = (!node.qualifiers.isConst && bare))
    (hr : ∀ w : Text, (TypeTree.right (mk node inner args)).Spaced w
      (mk node inner args).rightApart) : (mk node inner args).SpacedSides where
  left w hw := by
    rw [hl, hx]
    exact (hbase w hw).append fun hf => hlast w hw hf ▸ spaced_constMark node _
  last w hw hf := by
    rw [hl] at hf ⊢
    have hfb := (fault_append_eq_none.1 hf).1
    rw [pieces_append hfb, written_append, endsBare_constMark, hlast w hw hfb, hbare]
  right := hr

lemma spacedSides_primitive {p : Primitive} (hk : node.kind = .primitive p) :
    (mk node inner args).SpacedSides := by
  have hletter : p.spelling.endsBare = false := by cases p <;> decide
  have hne : p.spelling ≠ [] := by cases p <;> decide
  refine spacedSides_of_left (text p.spelling) true false (by simp only [TypeTree.left, hk])
    (fun w hw => spaced_text (Text.meets_of_left hw)) (fun w _ _ => ?_)
    (by simp [leftApart, hk]) (by simp [TypeTree.endsBare, hk]) fun w => ?_
  · rw [written_of_text, Text.endsBare_append_of_ne hne, hletter]
  · simpa only [TypeTree.right, rightApart, hk] using spaced_empty w

/-- Types without a text of their own. -/
lemma spacedSides_blank (hk : node.kind = .unknown ∨ node.kind = .noReturn) :
    (mk node inner args).SpacedSides := by
  have hlast : ∀ w : Text, w.endsWord = false → ({} : Script).fault = none →
      (written w ({} : Script).pieces).endsBare = false := by
    intro w hw _
    simpa using Text.endsBare_of_not_endsWord hw
  rcases hk with hk | hk
  · refine spacedSides_of_left _ true false (by simp only [TypeTree.left, hk, empty_append])
      (fun w _ => spaced_empty w) hlast (by simp [leftApart, hk]) (by simp [TypeTree.endsBare, hk])
      fun w => ?_
    simpa only [TypeTree.right, rightApart, hk] using spaced_empty w
  · refine spacedSides_of_left _ true false (by simp only [TypeTree.left, hk, empty_append])
      (fun w _ => spaced_empty w) hlast (by simp [leftApart, hk]) (by simp [TypeTree.endsBare, hk])
      fun w => ?_
    simpa only [TypeTree.right, rightApart, hk] using spaced_empty w

/-- Behind its keyword the name of a tag is set off, and decides how the text ends. -/
lemma spaced_tagName (key : TagKey) {p : Path} (hp : ∀ part ∈ p, part.IsWord) (w : Text) :
    (w.endsWord = false → (text (key.spelling ++ [' ']) ++ qualified p).Spaced w true) ∧
      (written w (text (key.spelling ++ [' ']) ++ qualified p).pieces).endsBare = p.endsBare := by
  have hspace : (w ++ (key.spelling ++ [' '])).endsWord = false := by
    rw [← List.append_assoc]
    exact Text.endsWord_append_singleton _ ' '
  have hbare := Text.endsBare_of_not_endsWord hspace
  constructor
  · intro hw
    have hpath := spaced_qualified hp (w ++ (key.spelling ++ [' ']))
    rw [hbare, Bool.not_false, Bool.or_true] at hpath
    exact (spaced_text (Text.meets_of_left hw)).andThen fun _ => written_of_text w _ ▸ hpath
  · rw [pieces_append rfl, written_append, written_of_text]
    exact endsBare_qualified hp hbare

lemma spacedSides_tag {key : TagKey} (hk : node.kind = .tag key)
    (hp : ∀ part ∈ node.path, part.IsWord) (ha : ∀ a ∈ args, a.SpacedSides) :
    (mk node inner args).SpacedSides := by
  refine spacedSides_of_left (text (key.spelling ++ [' ']) ++ qualified node.path ++
      if args.isEmpty then {} else text ['<'] ++ params args ++ text ['>'])
    (argsApart args) (args.isEmpty && node.path.endsBare) (by simp only [TypeTree.left, hk])
    (fun w hw => ?_) (fun w hw hf => ?_) (by simp only [leftApart, hk])
    (by simp only [TypeTree.endsBare, hk]) fun w => ?_
  · refine ((spaced_tagName key hp w).1 hw).andThen fun _ => ?_
    split_ifs with he
    · rw [List.isEmpty_iff.1 he]
      exact spaced_empty _
    · exact spaced_bracketed ha (by decide) (by decide) _
  · obtain ⟨hfn, hfa⟩ := fault_append_eq_none.1 hf
    rw [pieces_append hfn, written_append]
    split_ifs at hfa ⊢ with he
    · rw [written_nil, (spaced_tagName key hp w).2, he, Bool.true_and]
    · obtain ⟨hfo, -⟩ := fault_append_eq_none.1 hfa
      rw [pieces_append hfo, written_append, written_of_text, Text.endsBare_append_of_ne (by simp)]
      simp only [he, Bool.false_and]
      rfl
  · simpa only [TypeTree.right, rightApart, hk] using spaced_empty w

/-- The sign of a pointer or reference, behind its target. -/
lemma spaced_sign (hi : ∀ t ∈ inner, t.SpacedSides) {sign : Char} (hs : isWordChar sign = false)
    {w : Text} (hw : w.endsWord = false) :
    (leftInner inner ++ paren inner '(' ++ text [sign]).Spaced w (leftApartInner inner) ∧
      ((leftInner inner ++ paren inner '(' ++ text [sign]).fault = none →
        (written w (leftInner inner ++ paren inner '(' ++ text [sign]).pieces).endsBare =
          false) := by
  constructor
  · have hopen := (spaced_leftInner hi hw).append fun _ =>
      spaced_paren inner '(' (by decide) _
    have := hopen.append fun _ => spaced_text (t := [sign]) (Text.meets_of_right hs _ [])
    simpa using this
  · intro hf
    rw [pieces_append (fault_append_eq_none.1 hf).1, written_append, written_of_text]
    exact Text.endsBare_of_not_endsWord (Text.endsWord_append_singleton _ sign ▸ hs)

lemma spacedSides_indirection (hk : node.kind.isIndirection = true)
    (hi : ∀ t ∈ inner, t.SpacedSides) : (mk node inner args).SpacedSides := by
  obtain ⟨sign, hs, hl⟩ : ∃ sign, isWordChar sign = false ∧
      TypeTree.left (mk node inner args) =
        leftInner inner ++ paren inner '(' ++ text [sign] ++ constMark node := by
    rcases eq_of_isIndirection hk with hk | hk
    · exact ⟨'*', by decide, by simp only [TypeTree.left, hk]⟩
    · exact ⟨'&', by decide, by simp only [TypeTree.left, hk]⟩
  refine spacedSides_of_left _ (leftApartInner inner) false hl
    (fun w hw => (spaced_sign hi hs hw).1) (fun w hw => (spaced_sign hi hs hw).2) ?_ ?_ fun w => ?_
  · rcases eq_of_isIndirection hk with hk | hk <;> simp [leftApart, hk]
  · rcases eq_of_isIndirection hk with hk | hk <;> simp [TypeTree.endsBare, hk]
  · have hright := (spaced_paren inner ')' (by decide) w).andThen
      fun _ => spaced_rightInner hi _
    rcases eq_of_isIndirection hk with hk | hk
    · simpa only [TypeTree.right, rightApart, hk] using hright
    · simpa only [TypeTree.right, rightApart, hk] using hright

lemma spacedSides_array (hk : node.kind = .array) (hi : ∀ t ∈ inner, t.SpacedSides) :
    (mk node inner args).SpacedSides := by
  refine spacedSides_of_left _ (leftApartInner inner) (endsBareInner inner)
    (by simp only [TypeTree.left, hk]) (fun w hw => spaced_leftInner hi hw)
    (fun w hw hf => endsBare_leftInner hi hw hf) (by simp only [leftApart, hk])
    (by simp only [TypeTree.endsBare, hk]) fun w => ?_
  have := (spaced_bounds node.extent w).andThen fun _ => spaced_rightInner hi _
  simpa only [TypeTree.right, rightApart, hk] using this

lemma spacedSides_function (hk : node.kind = .function) (hi : ∀ t ∈ inner, t.SpacedSides)
    (ha : ∀ a ∈ args, a.SpacedSides) : (mk node inner args).SpacedSides where
  left w hw := by
    simpa only [TypeTree.left, leftApart, hk] using spaced_leftInner hi hw
  last w hw hf := by
    simp only [TypeTree.left, TypeTree.endsBare, hk] at hf ⊢
    exact endsBare_leftInner hi hw hf
  right w := by
    have := spaced_bracketed (o := '(') (c := ')') ha (by decide) (by decide) w
    simpa only [TypeTree.right, rightApart, hk] using this

end Kinds

lemma spacedSides (t : TypeTree) (hn : t.WordNames) : t.SpacedSides := by
  induction t using TypeTree.induction with
  | mk node inner args hi ha =>
    have hinner : ∀ t ∈ inner, t.SpacedSides := fun t ht =>
      hi t ht fun u hu => hn u (mem_walk_of_inner ht hu)
    have hargs : ∀ a ∈ args, a.SpacedSides := fun a hm =>
      ha a hm fun u hu => hn u (mem_walk_of_arg hm hu)
    cases hk : node.kind with
    | unknown => exact spacedSides_blank (.inl hk)
    | noReturn => exact spacedSides_blank (.inr hk)
    | function => exact spacedSides_function hk hinner hargs
    | pointer => exact spacedSides_indirection (by rw [hk]; rfl) hinner
    | reference => exact spacedSides_indirection (by rw [hk]; rfl) hinner
    | array => exact spacedSides_array hk hinner
    | tag key => exact spacedSides_tag hk (hn _ (self_mem_walk _)) hargs
    | primitive p => exact spacedSides_primitive hk

/-- A named type whose name ends in a digit or an underscore, with no template arguments behind
it. -/
def EndsInBareName (t : TypeTree) : Prop :=
  t.kind.isTag = true ∧ t.args = [] ∧ t.node.path.endsBare = true

lemma argsApart_eq_true {ts : List TypeTree}
    (h : ∀ a ∈ ts, a.leftApart = true ∧ a.rightApart = true) : argsApart ts = true := by
  induction ts with
  | nil => rfl
  | cons t ts ih =>
    have ht := h t (by simp)
    simp [argsApart, ht.1, ht.2, ih fun a ha => h a (by simp [ha])]

/-- Without such names nothing can run together. -/
lemma apart_of_no_bareName {t : TypeTree} (h : ∀ u ∈ t.walk, ¬ u.EndsInBareName) :
    t.endsBare = false ∧ t.leftApart = true ∧ t.rightApart = true := by
  induction t using TypeTree.induction with
  | mk node inner args hi ha =>
    have hargs : argsApart args = true := argsApart_eq_true fun a hm =>
      (ha a hm fun u hu => h u (mem_walk_of_arg hm hu)).2
    have hinner : endsBareInner inner = false ∧ leftApartInner inner = true ∧
        rightApartInner inner = true := by
      cases inner with
      | none => exact ⟨rfl, rfl, rfl⟩
      | some t => exact hi t rfl fun u hu => h u (mem_walk_of_inner rfl hu)
    obtain ⟨hbare, hleft, hright⟩ := hinner
    have hself := h _ (self_mem_walk _)
    cases hk : node.kind with
    | tag key =>
      have hname : (args.isEmpty && node.path.endsBare) = false := by
        by_contra hb
        rw [Bool.not_eq_false, Bool.and_eq_true, List.isEmpty_iff] at hb
        refine hself ⟨?_, hb.1, hb.2⟩
        change node.kind.isTag = true
        rw [hk]
        rfl
      simp [TypeTree.endsBare, leftApart, rightApart, hk, hname, hargs]
    | _ => simp [TypeTree.endsBare, leftApart, rightApart, hk, hbare, hleft, hright, hargs]

end TypeTree

/-! ### Declarations -/

/-- Whether neither a `const` nor the name runs into what stands before it. -/
def Symbol.wordsApart (s : Symbol) : Bool :=
  s.type.leftApart && (s.path.isEmpty || !s.type.endsBare) && s.type.rightApart

lemma spaced_declare {s : Symbol} (hp : ∀ part ∈ s.path, part.IsWord) (hn : s.type.WordNames) :
    (s.type.declare s.path).Spaced [] s.wordsApart := by
  have hsides := s.type.spacedSides hn
  refine ((hsides.left [] rfl).append fun hf => ?_).append fun _ => hsides.right _
  rw [← hsides.last [] rfl hf]
  exact spaced_qualified hp _

lemma written_of_render {s : Symbol} {d : Text} (h : s.render = .ok d) :
    (s.type.declare s.path).fault = none ∧ written [] (s.type.declare s.path).pieces = d := by
  unfold Symbol.render Script.render at h
  split at h
  · cases h
  · next hf =>
    cases h
    exact ⟨hf, rfl⟩

lemma words_iff_wordsApart {s : Symbol} {d : Text} (hp : ∀ part ∈ s.path, part.IsWord)
    (hn : s.type.WordNames) (hd : s.render = .ok d) :
    (SetOff [] (s.type.declare s.path).pieces ↔ s.wordsApart = true) ∧
    (d.words = (s.type.declare s.path).pieces.flatMap Piece.words ↔ s.wordsApart = true) := by
  obtain ⟨hf, rfl⟩ := written_of_render hd
  obtain ⟨hset, hapart⟩ := spaced_declare hp hn hf
  refine ⟨hset, ?_⟩
  rw [← hapart, ← words_written_iff]
  rfl

/-- A gap leaves no letter before it. -/
lemma not_isAlpha_before_gap (w : Text) (before : List Piece) :
    (written w (before ++ [.gap])).getLast?.any Char.isAlpha = false := by
  rw [written_append, written_gap, written_nil]
  generalize written w before = v
  unfold afterGap
  cases hv : v.getLast? with
  | none => simp [endsInLetter, hv]
  | some c =>
    by_cases hl : isLetter c = true
    · have hspace : Char.isAlpha ' ' = false := by decide
      simp [endsInLetter, hv, hl, hspace]
    · have halpha : c.isAlpha = false := by
        by_contra ha
        have ha := Bool.not_eq_false _ ▸ ha
        have hascii := toNat_lt_of_isWordChar (c := c) (by simp [isWordChar, Char.isAlphanum, ha])
        exact hl (by simp [isLetter, hascii, ha])
      simp [endsInLetter, hv, hl, halpha]

/-- **Words in a declaration**: no letter ever stands right before a `const` or a name. That no
digit or underscore does either, and that the words of the declaration are the words that were
written, are both the same as `wordsApart`. It holds if no name that ends in one of these is without
template arguments. -/
theorem words_render_iff {s : Symbol} {d : Text} (hp : ∀ part ∈ s.path, part.IsWord)
    (hn : ∀ u ∈ s.type.walk, ∀ part ∈ u.node.path, part.IsWord) (hd : s.render = .ok d) :
    (∀ before after, (s.type.declare s.path).pieces = before ++ .gap :: after →
      (written [] (before ++ [.gap])).getLast?.any Char.isAlpha = false) ∧
    (SetOff [] (s.type.declare s.path).pieces ↔ s.wordsApart = true) ∧
    (d.words = (s.type.declare s.path).pieces.flatMap Piece.words ↔ s.wordsApart = true) ∧
    ((∀ u ∈ s.type.walk, ¬ u.EndsInBareName) → s.wordsApart = true) := by
  obtain ⟨hset, hwords⟩ := words_iff_wordsApart hp hn hd
  refine ⟨fun before _ _ => not_isAlpha_before_gap [] before, hset, hwords, fun h => ?_⟩
  obtain ⟨hbare, hleft, hright⟩ := TypeTree.apart_of_no_bareName h
  simp [Symbol.wordsApart, hbare, hleft, hright]

/-- Whether a symbol has this declaration, and nothing but words for its names. -/
def declaresInWords (d : Text) (s : Symbol) : Bool :=
  s.path.all (fun part => decide part.IsWord) &&
    s.type.walk.all (fun u => u.node.path.all fun part => decide part.IsWord) &&
      decide (s.render.toOption = some d)

lemma declaresInWords_spec {d : Text} {s : Symbol} (h : declaresInWords d s = true) :
    (∀ part ∈ s.path, part.IsWord) ∧ (∀ u ∈ s.type.walk, ∀ part ∈ u.node.path, part.IsWord) ∧
      s.render = .ok d := by
  simp only [declaresInWords, Bool.and_eq_true, List.all_eq_true, decide_eq_true_eq] at h
  exact ⟨h.1.1, h.1.2, render_of_toOption h.2⟩

theorem words_render_iff_template :
    ∃ s, parse "?x@@3PBV?$Box1@_W@@A".toList = .ok s ∧
      s.render = .ok "class Box1<wchar_t>const*x".toList ∧
      SetOff [] (s.type.declare s.path).pieces ∧
      (s.type.declare s.path).pieces.flatMap Piece.words =
        ["class", "Box1", "wchar_t", "const", "x"].map String.toList := by
  obtain ⟨s, hs, htest⟩ := exists_of_test (t := "?x@@3PBV?$Box1@_W@@A".toList)
    (p := fun s => declaresInWords "class Box1<wchar_t>const*x".toList s && s.wordsApart)
    (by decide +kernel)
  rw [Bool.and_eq_true] at htest
  obtain ⟨hp, hn, hd⟩ := declaresInWords_spec htest.1
  obtain ⟨-, hset, hwords, -⟩ := words_render_iff hp hn hd
  exact ⟨s, hs, hd, hset.2 htest.2, (hwords.2 htest.2).symm.trans (by decide)⟩

/-- The name of a struct that ends in a digit and the name behind it become one word. -/
theorem not_setOff_digit :
    ∃ s, parse "?x@@3UFoo1@@A".toList = .ok s ∧ (∀ part ∈ s.path, part.IsWord) ∧
      (∀ u ∈ s.type.walk, ∀ part ∈ u.node.path, part.IsWord) ∧
      s.render = .ok "struct Foo1x".toList ∧ ¬ SetOff [] (s.type.declare s.path).pieces ∧
      Text.words "struct Foo1x".toList ≠ (s.type.declare s.path).pieces.flatMap Piece.words := by
  obtain ⟨s, hs, htest⟩ := exists_of_test (t := "?x@@3UFoo1@@A".toList)
    (p := fun s => declaresInWords "struct Foo1x".toList s && !s.wordsApart) (by decide +kernel)
  rw [Bool.and_eq_true, Bool.not_eq_true'] at htest
  obtain ⟨hp, hn, hd⟩ := declaresInWords_spec htest.1
  obtain ⟨hset, hwords⟩ := words_iff_wordsApart hp hn hd
  have hno : ¬ s.wordsApart = true := by simp [htest.2]
  exact ⟨s, hs, hp, hn, hd, fun h => hno (hset.1 h), fun h => hno (hwords.1 h)⟩

end Undecorate
