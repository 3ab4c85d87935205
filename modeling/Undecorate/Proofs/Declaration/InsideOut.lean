import Mathlib.Tactic.SplitIfs
import Undecorate.Declaration.CallDepth
import Undecorate.Proofs.Declaration.Character

/-!
Declarators read from the inside out.

`decl` puts a declaration together the way it is read: the name is the first declarator, a pointer
puts `*` in front of it, an array or a function writes its brackets behind it, and a parenthesis
goes around a pointer to one of these, until a base type stands in front of it all. The writer goes
through the type twice instead, once for each side of the name. Both give the same text if no
function returns a type that has a right side of its own.
-/

namespace Undecorate

open Script

/-- A declarator as far as it has been put together. One that starts with a word, which is `const`
or a name, is set off from a letter in front of it. -/
structure Declarator where
  word : Bool := false
  text : Text := []

namespace Declarator

/-- The declarator behind a text. -/
def after (d : Declarator) (t : Text) : Text :=
  if d.word && endsInLetter false t then t ++ ' ' :: d.text else t ++ d.text

def followedBy (d : Declarator) (t : Text) : Declarator := { d with text := d.text ++ t }

/-- The declarator behind the `const` of this node, if it has one. -/
def qualified (d : Declarator) (node : Node) : Declarator :=
  if node.qualifiers.isConst then { word := true, text := d.after "const".toList } else d

/-- The declarator of a pointer or reference to `inner`. -/
def pointing (d : Declarator) (mark : Char) (inner : Option TypeTree) : Declarator :=
  if inner.any (·.kind.bindsTighter) then { text := '(' :: (d.after [mark] ++ [')']) }
  else { text := d.after [mark] }

end Declarator

/-- A name in the form `outer::inner`. -/
def Path.text : Path → Text
  | [] => []
  | base :: scopes => (scopes.reverse.flatMap fun scope => scope ++ "::".toList) ++ baseName base

/-- A name is a declarator. The empty one writes nothing and is no word. -/
def Declarator.ofPath (p : Path) : Declarator := { word := !p.isEmpty, text := p.text }

/-- The brackets of an array. -/
def extentText : Option Int → Text
  | none => []
  | some n => '[' :: (decimal n ++ [']'])

namespace TypeTree

mutual

/-- The declaration of a declarator with this type. -/
def decl : TypeTree → Declarator → Text
  | mk node inner args, d =>
    match node.kind with
    | .primitive p => (d.qualified node).after p.spelling
    | .tag key =>
      (d.qualified node).after (key.spelling ++ ' ' :: (node.path.text ++
        if args.isEmpty then [] else '<' :: ([','].intercalate (declArgs args) ++ ['>'])))
    | .unknown => (d.qualified node).after []
    | .noReturn => (d.qualified node).after []
    | .pointer => declInner inner ((d.qualified node).pointing '*' inner)
    | .reference => declInner inner ((d.qualified node).pointing '&' inner)
    | .array => declInner inner ((d.qualified node).followedBy (extentText node.extent))
    | .function =>
      declInner inner (d.followedBy ('(' :: ([','].intercalate (declArgs args) ++ [')'])))

def declInner : Option TypeTree → Declarator → Text
  | none, d => d.text
  | some t, d => decl t d

/-- Every type alone, as a declaration without a name. -/
def declArgs : List TypeTree → List Text
  | [] => []
  | t :: ts => decl t {} :: declArgs ts

end

mutual

/-- Whether the type is a function or an array, or gets to one through pointers and references. -/
def reachesTight : TypeTree → Bool
  | mk node inner _ =>
    node.kind.bindsTighter || node.kind.isIndirection && reachesTightInner inner

def reachesTightInner : Option TypeTree → Bool
  | none => false
  | some t => reachesTight t

end

/-- The types that have a declaration, and in which no function returns a type with a right side
of its own. -/
structure Declarable (t : TypeTree) : Prop where
  inner : ∀ u ∈ t.walk, u.kind.hasInner = true → u.inner.isSome = true
  extent : ∀ u ∈ t.walk, u.kind = .array → ∃ n ∈ u.node.extent, (decimal? n).isSome = true
  result : ∀ u ∈ t.walk, u.kind = .function → ∀ r ∈ u.inner, r.reachesTight = false

end TypeTree

/-! ### Scripts of declarators -/

namespace Script

/-- The script writes the declarator, wherever it stands. -/
def Lays (s : Script) (d : Declarator) : Prop :=
  s.fault = none ∧ ∀ before, layout before s.pieces =
    if d.word && before then ' ' :: d.text else d.text

/-- The script writes the text, if it stands alone. -/
def Writes (s : Script) (t : Text) : Prop := s.fault = none ∧ layout false s.pieces = t

variable {s m : Script} {d : Declarator} {t u : Text}

lemma Writes.render (h : s.Writes t) : s.render = .ok t := by
  simp only [Script.render, h.1, h.2]
  rfl

lemma Lays.writes (h : s.Lays d) : s.Writes d.text := ⟨h.1, by simpa using h.2 false⟩

lemma Writes.append (hs : s.Writes t) (hm : m.Lays d) : (s ++ m).Writes (d.after t) := by
  refine ⟨fault_append_eq_none.2 ⟨hs.1, hm.1⟩, ?_⟩
  rw [pieces_append hs.1, layout_append, hs.2, hm.2, Declarator.after]
  split_ifs <;> rfl

lemma Lays.append (hs : s.Lays d) (hm : m.Lays { text := u }) : (s ++ m).Lays (d.followedBy u) := by
  refine ⟨fault_append_eq_none.2 ⟨hs.1, hm.1⟩, fun before => ?_⟩
  rw [pieces_append hs.1, layout_append, hs.2 before, hm.2]
  simp only [Declarator.followedBy, Bool.false_and]
  split_ifs <;> simp_all

lemma lays_empty : ({} : Script).Lays {} := ⟨rfl, fun _ => rfl⟩

lemma lays_text (t : Text) : (text t).Lays { text := t } :=
  ⟨rfl, fun before => by simp [text, layout]⟩

/-- Behind a text that is not empty it does not matter what came before. -/
lemma endsInLetter_of_ne_nil (before : Bool) (ht : t ≠ []) :
    endsInLetter before t = endsInLetter false t := by
  simp only [endsInLetter, List.getLast?_eq_some_getLast ht]

lemma Lays.behind (hm : m.Lays d) (ht : t ≠ []) : (text t ++ m).Lays { text := d.after t } := by
  refine ⟨hm.1, fun before => ?_⟩
  change t ++ layout (endsInLetter before t) m.pieces = _
  rw [hm.2, endsInLetter_of_ne_nil before ht, Declarator.after]
  simp only [Bool.false_and]
  split_ifs <;> simp_all

/-- The script of a text that stands alone, behind a character that is no letter. -/
lemma Writes.behind {c : Char} (hs : s.Writes t) (hc : isLetter c = false) :
    (text [c] ++ s).Lays { text := c :: t } := by
  refine ⟨hs.1, fun before => ?_⟩
  change [c] ++ layout (endsInLetter before [c]) s.pieces = _
  have hlast : endsInLetter before [c] = false := hc
  rw [hlast, hs.2]
  simp

end Script

lemma lays_constMark {m : Script} {d : Declarator} (hm : m.Lays d) (node : Node) :
    (constMark node ++ m).Lays (d.qualified node) := by
  unfold constMark Declarator.qualified
  split_ifs
  · have hconst := hm.behind (t := "const".toList) (by decide)
    rw [append_assoc]
    refine ⟨hconst.1, fun before => ?_⟩
    have hafter := hconst.2 false
    change (if before = true then ' ' :: layout false (text "const".toList ++ m).pieces
      else layout false (text "const".toList ++ m).pieces) = _
    rw [hafter]
    simp
  · exact hm

lemma layout_scopes (scopes : Path) (before : Bool) (t : Text) :
    layout before ((scopes.map fun scope => Piece.text (scope ++ "::".toList)) ++ [.text t]) =
      (scopes.flatMap fun scope => scope ++ "::".toList) ++ t := by
  induction scopes generalizing before with
  | nil => simp [layout]
  | cons scope scopes ih =>
    rw [List.map_cons, List.cons_append, layout, ih, List.flatMap_cons]
    simp only [List.append_assoc]

lemma lays_qualified (p : Path) : (qualified p).Lays (.ofPath p) := by
  cases p with
  | nil => exact lays_empty
  | cons base scopes =>
    refine ⟨rfl, fun before => ?_⟩
    have := layout_scopes scopes.reverse false (baseName base)
    simp only [qualified, List.cons_append, layout, this, Declarator.ofPath, Path.text]
    simp

lemma lays_bounds {extent : Option Int} {n : Int} (hn : n ∈ extent)
    (hd : (decimal? n).isSome = true) : (bounds extent).Lays { text := extentText extent } := by
  cases hn
  have hsome : decimal? n = some (decimal n) := by
    unfold decimal? at hd ⊢
    split_ifs at hd ⊢
    · rfl
    · cases hd
  simp only [bounds, hsome, extentText]
  exact lays_text _

namespace TypeTree

variable {t : TypeTree} {d : Declarator} {m : Script}

lemma Declarable.of_mem (h : t.Declarable) {u : TypeTree} (hu : ∀ v ∈ u.walk, v ∈ t.walk) :
    u.Declarable where
  inner v hv := h.inner v (hu v hv)
  extent v hv := h.extent v (hu v hv)
  result v hv := h.result v (hu v hv)

/-- Both sides of the type around any declarator. -/
def Surrounds (t : TypeTree) : Prop :=
  ∀ (m : Script) (d : Declarator), m.Lays d → (left t ++ m ++ right t).Writes (t.decl d)

lemma writes_alone (h : t.Surrounds) : (left t ++ right t).Writes (t.decl {}) := by
  have := h {} {} lays_empty
  rwa [append_empty] at this

/-- Behind the first parameter, every further one stands behind a comma. -/
lemma intercalate_cons (x : Text) (xs : List Text) :
    [','].intercalate (x :: xs) = x ++ xs.flatMap fun y => ',' :: y := by
  induction xs generalizing x with
  | nil => simp
  | cons y xs ih =>
    rw [List.intercalate_cons_cons, ih, List.flatMap_cons]
    simp

lemma lays_furtherParams {ts : List TypeTree} (h : ∀ a ∈ ts, a.Surrounds) :
    (furtherParams ts).Lays { text := (declArgs ts).flatMap fun a => ',' :: a } := by
  induction ts with
  | nil => exact lays_empty
  | cons a ts ih =>
    have ha := (writes_alone (h a (by simp))).behind (c := ',') (by decide)
    have hfurther := ih fun b hb => h b (by simp [hb])
    rw [furtherParams, declArgs, append_assoc (text [','])]
    exact ha.append hfurther

lemma writes_params {ts : List TypeTree} (h : ∀ a ∈ ts, a.Surrounds) :
    (params ts).Writes ([','].intercalate (declArgs ts)) := by
  cases ts with
  | nil => exact ⟨rfl, rfl⟩
  | cons a ts =>
    have ha := writes_alone (h a (by simp))
    have hts : ∀ b ∈ ts, b.Surrounds := fun b hb => h b (by simp [hb])
    rw [params, declArgs, intercalate_cons]
    exact ha.append (lays_furtherParams hts)

/-- A list of parameters in brackets. -/
lemma lays_bracketed {ts : List TypeTree} {o c : Char} (h : ∀ a ∈ ts, a.Surrounds)
    (ho : isLetter o = false) :
    (text [o] ++ params ts ++ text [c]).Lays
      { text := o :: ([','].intercalate (declArgs ts) ++ [c]) } :=
  ((writes_params h).behind ho).append (lays_text [c])

/-! ### Types -/

/-- A type without anything on its right side. -/
lemma right_eq_empty (h : t.Declarable) (hr : t.reachesTight = false) : right t = {} := by
  induction t using TypeTree.induction with
  | mk node inner args hi ha =>
    simp only [reachesTight, Bool.or_eq_false_iff, Bool.and_eq_false_imp] at hr
    obtain ⟨hloose, hthrough⟩ := hr
    have hindirection : node.kind.isIndirection = true →
        paren inner ')' ++ rightInner inner = {} := by
      intro hk
      have hhas : node.kind.hasInner = true := by simp [Kind.hasInner, hk]
      obtain ⟨i, rfl⟩ := Option.isSome_iff_exists.1 (h.inner _ (self_mem_walk _) hhas)
      have hir : i.reachesTight = false := hthrough hk
      have hib : i.kind.bindsTighter = false := by
        obtain ⟨inode, iinner, iargs⟩ := i
        rw [reachesTight, Bool.or_eq_false_iff] at hir
        exact hir.1
      have hright := hi i rfl (h.of_mem fun v hv => mem_walk_of_inner rfl hv) hir
      simp [paren, rightInner, hib, hright]
    cases hk : node.kind with
    | pointer => simpa only [right, hk] using hindirection (by rw [hk]; rfl)
    | reference => simpa only [right, hk] using hindirection (by rw [hk]; rfl)
    | function =>
      rw [hk] at hloose
      cases hloose
    | array =>
      rw [hk] at hloose
      cases hloose
    | _ => simp only [right, hk]

section Kinds

variable {node : Node} {inner : Option TypeTree} {args : List TypeTree}

/-- A base type, which stands to the left of everything. -/
lemma surrounds_base {base : Script} {w : Text}
    (hl : left (mk node inner args) = base ++ constMark node)
    (hr : right (mk node inner args) = {}) (hb : base.Writes w)
    (hd : ∀ d, decl (mk node inner args) d = (d.qualified node).after w) :
    (mk node inner args).Surrounds := by
  intro m d hm
  rw [hl, hr, hd, append_empty, append_assoc]
  exact hb.append (lays_constMark hm node)

lemma surrounds_tag {key : TagKey} (hk : node.kind = .tag key) (ha : ∀ a ∈ args, a.Surrounds) :
    (mk node inner args).Surrounds := by
  have hname : (text (key.spelling ++ [' ']) ++ qualified node.path).Writes
      (key.spelling ++ ' ' :: node.path.text) := by
    have := (lays_text (key.spelling ++ [' '])).writes.append (lays_qualified node.path)
    have hspace : endsInLetter false (key.spelling ++ [' ']) = false := by
      simp only [endsInLetter, List.getLast?_concat]
      decide
    rw [Declarator.after, hspace] at this
    simpa [Declarator.ofPath] using this
  have hargs : (if args.isEmpty then {} else text ['<'] ++ params args ++ text ['>']).Lays
      { text := if args.isEmpty then [] else
          '<' :: ([','].intercalate (declArgs args) ++ ['>']) } := by
    split_ifs
    · exact lays_empty
    · exact lays_bracketed ha (by decide)
  have hbase := hname.append hargs
  refine surrounds_base ?_ (by simp only [right, hk]) hbase fun d => ?_
  · simp only [left, hk]
  · simp only [decl, hk, Declarator.after]
    simp

lemma surrounds_indirection {t : TypeTree} (hk : node.kind.isIndirection = true)
    (ht : t.Surrounds) : (mk node (some t) args).Surrounds := by
  intro m d hm
  have hinner := lays_constMark hm node
  -- what stands around the declarator here, seen from the target
  have hwrap : ∀ mark, (paren (some t) '(' ++ (text [mark] ++ (constMark node ++ m)) ++
      paren (some t) ')').Lays ((d.qualified node).pointing mark (some t)) := by
    intro mark
    have hmark := hinner.behind (t := [mark]) (by simp)
    unfold paren Declarator.pointing
    split_ifs
    · have hopen := hmark.writes.behind (c := '(') (by decide)
      exact hopen.append (lays_text [')'])
    · rwa [empty_append, append_empty]
  rcases eq_of_isIndirection hk with hk | hk
  · have := ht _ _ (hwrap '*')
    simp only [left, right, hk, decl, leftInner, rightInner, declInner]
    simpa only [append_assoc] using this
  · have := ht _ _ (hwrap '&')
    simp only [left, right, hk, decl, leftInner, rightInner, declInner]
    simpa only [append_assoc] using this

lemma surrounds_array {t : TypeTree} {n : Int} (hk : node.kind = .array) (hn : n ∈ node.extent)
    (hd : (decimal? n).isSome = true) (ht : t.Surrounds) : (mk node (some t) args).Surrounds := by
  intro m d hm
  have := ht _ _ ((lays_constMark hm node).append (lays_bounds hn hd))
  simp only [left, right, hk, decl, leftInner, rightInner, declInner]
  simpa only [append_assoc] using this

/-- The right side of the result is left out, but there is none. -/
lemma surrounds_function {t : TypeTree} (hk : node.kind = .function) (hr : right t = {})
    (ht : t.Surrounds) (ha : ∀ a ∈ args, a.Surrounds) : (mk node (some t) args).Surrounds := by
  intro m d hm
  have := ht _ _ (hm.append (lays_bracketed (o := '(') (c := ')') ha (by decide)))
  rw [hr, append_empty] at this
  simp only [left, right, hk, decl, leftInner, declInner]
  simpa only [append_assoc] using this

end Kinds

lemma surrounds (h : t.Declarable) : t.Surrounds := by
  induction t using TypeTree.induction with
  | mk node inner args hi ha =>
    have hargs : ∀ a ∈ args, a.Surrounds := fun a hm =>
      ha a hm (h.of_mem fun v hv => mem_walk_of_arg hm hv)
    have hinner : node.kind.hasInner = true → ∃ t, inner = some t ∧ t.Declarable ∧ t.Surrounds := by
      intro hk
      obtain ⟨t, rfl⟩ := Option.isSome_iff_exists.1 (h.inner _ (self_mem_walk _) hk)
      have ht := h.of_mem (u := t) fun v hv => mem_walk_of_inner rfl hv
      exact ⟨t, rfl, ht, hi t rfl ht⟩
    cases hk : node.kind with
    | primitive p =>
      exact surrounds_base (by simp only [left, hk]) (by simp only [right, hk])
        (lays_text p.spelling).writes fun d => by simp only [decl, hk]
    | unknown =>
      exact surrounds_base (by simp only [left, hk, empty_append]) (by simp only [right, hk])
        lays_empty.writes fun d => by simp only [decl, hk]
    | noReturn =>
      exact surrounds_base (by simp only [left, hk, empty_append]) (by simp only [right, hk])
        lays_empty.writes fun d => by simp only [decl, hk]
    | tag key => exact surrounds_tag hk hargs
    | pointer =>
      obtain ⟨t, rfl, -, hs⟩ := hinner (by rw [hk]; rfl)
      exact surrounds_indirection (by rw [hk]; rfl) hs
    | reference =>
      obtain ⟨t, rfl, -, hs⟩ := hinner (by rw [hk]; rfl)
      exact surrounds_indirection (by rw [hk]; rfl) hs
    | array =>
      obtain ⟨t, rfl, -, hs⟩ := hinner (by rw [hk]; rfl)
      obtain ⟨n, hn, hd⟩ := h.extent _ (self_mem_walk _) hk
      exact surrounds_array hk hn hd hs
    | function =>
      obtain ⟨t, rfl, ht, hs⟩ := hinner (by rw [hk]; rfl)
      have hr := right_eq_empty ht (h.result _ (self_mem_walk _) hk t rfl)
      exact surrounds_function hk hr hs hargs

end TypeTree

/-- **The two sides agree with the inside-out reading**: a name with a declarable type is written
as `decl` reads it, and so is the type alone. -/
theorem render_eq_decl {t : TypeTree} (h : t.Declarable) (p : Path) :
    Symbol.render { path := p, type := t } = .ok (t.decl (.ofPath p)) ∧
      t.render = .ok (t.decl {}) :=
  ⟨(TypeTree.surrounds h _ _ (lays_qualified p)).render,
    (TypeTree.writes_alone (TypeTree.surrounds h)).render⟩

/-- A table of three constant pointers to functions, which take a template instance and a
reference and return a pointer to a constant. -/
def dispatchTable : TypeTree :=
  let int : TypeTree := .leaf { kind := .primitive .int }
  let constInt : TypeTree := .leaf { kind := .primitive .int, qualifiers := { isConst := true } }
  let box : TypeTree := .mk { kind := .tag .structKey, path := ["Box".toList] } none [int]
  let function : TypeTree := .mk { kind := .function, convention := some .cdecl }
    (some (.mk { kind := .pointer } (some constInt) []))
    [box, .mk { kind := .reference } (some int) []]
  .mk { kind := .array, extent := some 3 }
    (some (.mk { kind := .pointer, qualifiers := { isConst := true } } (some function) [])) []

theorem render_eq_decl_dispatchTable :
    dispatchTable.Declarable ∧
      dispatchTable.decl (.ofPath ["table".toList, "ns".toList]) =
        "int const*(*const ns::table[3])(struct Box<int>,int&)".toList ∧
      Symbol.render { path := ["table".toList, "ns".toList], type := dispatchTable } =
        .ok "int const*(*const ns::table[3])(struct Box<int>,int&)".toList := by
  have h : dispatchTable.Declarable :=
    ⟨by decide +kernel, by decide +kernel, by decide +kernel⟩
  have hd : dispatchTable.decl (.ofPath ["table".toList, "ns".toList]) =
      "int const*(*const ns::table[3])(struct Box<int>,int&)".toList := by decide +kernel
  exact ⟨h, hd, hd ▸ (render_eq_decl h ["table".toList, "ns".toList]).1⟩

/-- What is given out is the inside-out reading, where there is room for the calls that write it. -/
theorem displayWithin_eq_decl {t : TypeTree} (h : t.Declarable) (p : Path) (room : Nat) :
    Symbol.displayWithin room { path := p, type := t } =
      if room < Symbol.callDepth { path := p, type := t } then .error .tooDeep
      else .ok (t.decl (.ofPath p)) := by
  rw [Symbol.displayWithin, Symbol.render, TypeTree.declare,
    (TypeTree.surrounds h _ _ (lays_qualified p)).render]
  rfl

end Undecorate
