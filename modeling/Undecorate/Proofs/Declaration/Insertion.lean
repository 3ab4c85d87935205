import Undecorate.Declaration.Writer
import Undecorate.Proofs.Declaration.InsideOut

/-!
A declaration is its type with the name put in.

The writer only remembers whether a letter was written last, and only a gap asks for it. The right
side of a type is `Steady`: it starts with a bracket or is empty, so it is the same text wherever it
stands. A name starts with a gap and does not look back any further. So the name can be put between
the two sides of any type, of one that was read or not, and nothing else changes; and what cuts the
type short cuts the declaration short.
-/

namespace Undecorate

namespace Script

variable {s a b : Script} {t : Text}

/-- What a fresh writer writes of the script, as far as it goes. -/
def alone (s : Script) : Text := (({} : Writer).play s).1.written

lemma alone_eq_layout (s : Script) : s.alone = layout false s.pieces := rfl

/-- The script is the same text whatever stands before it. -/
def Steady (s : Script) : Prop := ∀ before, layout before s.pieces = s.alone

lemma fault_append (a b : Script) : (a ++ b).fault = a.fault.or b.fault := by
  obtain ⟨p, _ | f⟩ := a <;> rfl

lemma render_of_fault {f : Fault} (h : s.fault = some f) : s.render = .error f := by
  simp only [Script.render, h]
  rfl

lemma render_of_complete (h : s.fault = none) : s.render = .ok s.alone := by
  simp only [Script.render, h]
  rfl

/-! ### Steady scripts -/

lemma steady_empty : ({} : Script).Steady := fun _ => rfl

lemma steady_text (t : Text) : (text t).Steady := fun _ => rfl

lemma steady_fail (f : Fault) : (fail f).Steady := fun _ => rfl

lemma Steady.append (ha : a.Steady) (hb : b.Steady) : (a ++ b).Steady := by
  intro before
  cases hf : a.fault with
  | some f =>
    have hab : a ++ b = a := by simp [append_def, Script.append, hf]
    rw [hab]
    exact ha before
  | none =>
    have hab := pieces_append (b := b) hf
    rw [alone_eq_layout, hab, layout_append, layout_append, ha before, hb, hb]
    rfl

/-- Behind a text that is not empty, a script does not depend on what stands before the text. -/
lemma steady_behind (s : Script) (ht : t ≠ []) : (text t ++ s).Steady := by
  intro before
  change t ++ layout (endsInLetter before t) s.pieces =
    t ++ layout (endsInLetter false t) s.pieces
  rw [endsInLetter_of_ne_nil before ht]

/-- A complete script in front of a steady one. -/
lemma alone_append (ha : a.fault = none) (hb : b.Steady) : (a ++ b).alone = a.alone ++ b.alone := by
  rw [alone_eq_layout, pieces_append ha, layout_append, hb]
  rfl

end Script

open Script

/-! ### The right side of a type -/

lemma steady_bounds (extent : Option Int) : (bounds extent).Steady := by
  cases extent with
  | none => exact steady_text _
  | some n =>
    simp only [bounds]
    split
    · exact steady_text _
    · exact steady_fail .numberTooLong

lemma steady_paren (inner : Option TypeTree) (mark : Char) : (paren inner mark).Steady := by
  unfold paren
  split_ifs
  · exact steady_text [mark]
  · exact steady_empty

lemma TypeTree.steady_right (t : TypeTree) : (right t).Steady := by
  induction t using TypeTree.induction with
  | mk node inner args hi ha =>
    have hinner : (rightInner inner).Steady := by
      cases inner with
      | none => exact steady_fail .missingInner
      | some i => exact hi i rfl
    cases hk : node.kind with
    | function =>
      -- the parameters themselves are not steady, but they stand behind a parenthesis
      simp only [right, hk, append_assoc]
      exact steady_behind _ (by simp)
    | pointer =>
      simp only [right, hk]
      exact (steady_paren inner ')').append hinner
    | reference =>
      simp only [right, hk]
      exact (steady_paren inner ')').append hinner
    | array =>
      simp only [right, hk]
      exact (steady_bounds node.extent).append hinner
    | _ =>
      simp only [right, hk]
      exact steady_empty

/-! ### The name between the two sides -/

/-- What keeps a name apart from the text in front of it. -/
def separator (p : Path) (before : Text) : Text :=
  if p ≠ [] ∧ before.getLast?.any isLetter = true then [' '] else []

/-- A name behind a complete script. -/
lemma alone_append_qualified {a : Script} (ha : a.fault = none) (p : Path) :
    (a ++ qualified p).alone = a.alone ++ separator p a.alone ++ (qualified p).alone := by
  have hname : ∀ before, layout before (qualified p).pieces =
      (if p ≠ [] ∧ before = true then [' '] else []) ++ (qualified p).alone := by
    intro before
    rw [(lays_qualified p).2 before, alone_eq_layout, (lays_qualified p).2 false]
    cases p <;> cases before <;> rfl
  have hlast : endsInLetter false a.alone = a.alone.getLast?.any isLetter := by
    unfold endsInLetter
    cases a.alone.getLast? <;> rfl
  calc (a ++ qualified p).alone
      = a.alone ++ layout (endsInLetter false a.alone) (qualified p).pieces := by
        rw [alone_eq_layout, pieces_append ha, layout_append]
        rfl
    _ = a.alone ++ separator p a.alone ++ (qualified p).alone := by
        rw [hname, hlast, List.append_assoc]
        rfl

/-- **A declaration is its type with the name put in**: whatever the type, it and the symbol fail in
the same way, or the declaration is the left side of the type, the name set off from it by a space
where a letter stands before it, and the right side; and the type alone is the same without the
name. -/
theorem render_inserts_name (p : Path) (t : TypeTree) :
    (∃ f, t.render = .error f ∧ Symbol.render { path := p, type := t } = .error f) ∨
    t.render = .ok (t.left.alone ++ t.right.alone) ∧
      Symbol.render { path := p, type := t } =
        .ok (t.left.alone ++ separator p t.left.alone ++
          Symbol.qualifiedName { path := p, type := t } ++ t.right.alone) := by
  have hname : (qualified p).fault = none := (lays_qualified p).1
  have hsteady := t.steady_right
  -- the name never cuts anything short
  have hsame : (t.declare p).fault = (t.left ++ t.right).fault := by
    simp only [TypeTree.declare, fault_append, hname, Option.or_none]
  cases hf : (t.left ++ t.right).fault with
  | some f => exact .inl ⟨f, render_of_fault hf, render_of_fault (hsame.trans hf)⟩
  | none =>
    obtain ⟨hl, hr⟩ := fault_append_eq_none.1 hf
    have hfront : (t.left ++ qualified p).fault = none := fault_append_eq_none.2 ⟨hl, hname⟩
    refine .inr ⟨?_, ?_⟩
    · rw [TypeTree.render, render_of_complete hf, alone_append hl hsteady]
    · rw [Symbol.render, render_of_complete (hsame.trans hf), TypeTree.declare,
        alone_append hfront hsteady, alone_append_qualified hl]
      rfl

end Undecorate
