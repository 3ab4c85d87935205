import Undecorate.Proofs.Declaration.Character

/-!
The extents that a declaration writes.

A symbol that was read lacks nothing that its declaration is made of, so only an extent with too
many digits can cut the declaration short. Not every extent of the type is written: the result of a
function has its left side in the declaration and not its right side, where its extents would be.
So a declaration is complete exactly if the extents that it does write have few enough digits.
-/

namespace Undecorate

/-- The number has few enough digits to be written. -/
def Writable (n : Int) : Prop := (Nat.toDigits 10 n.natAbs).length ≤ digitLimit

instance (n : Int) : Decidable (Writable n) := inferInstanceAs (Decidable (_ ≤ _))

namespace TypeTree

mutual

/-- The extents that are written with a type. The result of a function is not written as a whole but
on its left side only, and so are the types that it is built from. -/
def extents (whole : Bool) : TypeTree → List Int
  | mk node inner args =>
    match node.kind with
    | .function => innerExtents false inner ++ (if whole then argExtents args else [])
    | .pointer => innerExtents whole inner
    | .reference => innerExtents whole inner
    | .array => (if whole then node.extent.toList else []) ++ innerExtents whole inner
    | .tag _ => argExtents args
    | _ => []

def innerExtents (whole : Bool) : Option TypeTree → List Int
  | none => []
  | some t => extents whole t

/-- Parameters and template arguments are written as a whole, wherever they stand. -/
def argExtents : List TypeTree → List Int
  | [] => []
  | t :: ts => extents true t ++ argExtents ts

end

end TypeTree

/-! ### Scripts that nothing cuts short -/

namespace Script

@[simp] lemma fault_empty : ({} : Script).fault = none := rfl

@[simp] lemma fault_text (t : Text) : (text t).fault = none := rfl

end Script

open Script

@[simp] lemma fault_constMark (node : Node) : (constMark node).fault = none := by
  unfold constMark
  split_ifs <;> rfl

@[simp] lemma fault_paren (inner : Option TypeTree) (mark : Char) :
    (paren inner mark).fault = none := by
  unfold paren
  split_ifs <;> rfl

@[simp] lemma fault_qualified (p : Path) : (qualified p).fault = none := by
  cases p <;> rfl

@[simp] lemma fault_bounds (n : Int) : (bounds (some n)).fault = none ↔ Writable n := by
  unfold Writable
  by_cases h : (Nat.toDigits 10 n.natAbs).length ≤ digitLimit
  · simp [bounds, decimal?, h]
  · simp [bounds, decimal?, h, fail]

/-! ### The two sides of a type -/

namespace TypeTree

/-- What is written on the left, and on both sides, is complete exactly if its extents can be
written. -/
def Exact (t : TypeTree) : Prop :=
  ((left t).fault = none ↔ ∀ n ∈ extents false t, Writable n) ∧
  ((left t).fault = none ∧ (right t).fault = none ↔ ∀ n ∈ extents true t, Writable n)

lemma fault_furtherParams {ts : List TypeTree} (h : ∀ a ∈ ts, a.Exact) :
    (furtherParams ts).fault = none ↔ ∀ n ∈ argExtents ts, Writable n := by
  induction ts with
  | nil => simp [furtherParams, argExtents]
  | cons t ts ih =>
    have ht := (h t (by simp)).2
    have hts := ih fun a ha => h a (by simp [ha])
    simp [furtherParams, argExtents, fault_append_eq_none, or_imp, forall_and, ht, hts]

lemma fault_params {ts : List TypeTree} (h : ∀ a ∈ ts, a.Exact) :
    (params ts).fault = none ↔ ∀ n ∈ argExtents ts, Writable n := by
  cases ts with
  | nil => simp [params, argExtents]
  | cons t ts =>
    have ht := (h t (by simp)).2
    have hts : ∀ a ∈ ts, a.Exact := fun a ha => h a (by simp [ha])
    simp [params, argExtents, fault_append_eq_none, or_imp, forall_and, ht, fault_furtherParams hts]

lemma exact_tag {node : Node} {key : TagKey} {args : List TypeTree} (hk : node.kind = .tag key)
    (ha : ∀ a ∈ args, a.Exact) : (mk node none args).Exact := by
  have hbracketed : (if args.isEmpty then {} else text ['<'] ++ params args ++ text ['>']).fault
      = none ↔ ∀ n ∈ argExtents args, Writable n := by
    split_ifs with he
    · simp [List.isEmpty_iff.1 he, argExtents]
    · simp [fault_append_eq_none, fault_params ha]
  simp only [Exact, left, right, extents, hk, fault_append_eq_none, hbracketed]
  simp

lemma exact_indirection {node : Node} {target : TypeTree} (hk : node.kind.isIndirection = true)
    (ht : target.Exact) : (mk node (some target) []).Exact := by
  obtain ⟨hleft, hboth⟩ := ht
  rcases eq_of_isIndirection hk with hk | hk <;>
    simp [Exact, left, right, leftInner, rightInner, extents, innerExtents, fault_append_eq_none,
      hk, hleft, ← hboth]

/-- A function is written with the left side of its result and with all of its parameters. -/
lemma exact_function {node : Node} {result : TypeTree} {ps : List TypeTree}
    (hk : node.kind = .function) (hr : result.Exact) (hp : ∀ a ∈ ps, a.Exact) :
    (mk node (some result) ps).Exact := by
  have hparams := fault_params hp
  simp [Exact, left, right, leftInner, extents, innerExtents, fault_append_eq_none, hk, hr.1,
    hparams, or_imp, forall_and]

lemma exact_array {node : Node} {inner : TypeTree} {n : Int} (hk : node.kind = .array)
    (hn : node.extent = some n) (hi : inner.Exact) : (mk node (some inner) []).Exact := by
  obtain ⟨hleft, hboth⟩ := hi
  refine ⟨?_, ?_⟩
  · simp [left, leftInner, extents, innerExtents, fault_append_eq_none, hk, hleft]
  · simp [left, right, leftInner, rightInner, extents, innerExtents, fault_append_eq_none, hk, hn,
      ← hboth, and_left_comm]

/-- One case for every form of a type. -/
lemma exact_of_formed {t : TypeTree} (h : t.Formed) : t.Exact := by
  induction h with
  | primitive p i hq => simp [Exact, leaf, left, right, extents, fault_append_eq_none]
  | named key i hq hp => exact exact_tag rfl (by simp)
  | template i hk hq hb ha ih => exact exact_tag rfl ih
  | indirection i hk hq ht ih => exact exact_indirection hk ih
  | functionPointer i j hq hr hp ihr ihp => exact exact_indirection rfl (exact_function rfl ihr ihp)
  | array i n hq hi ih => exact exact_array rfl rfl ih

end TypeTree

lemma exact_of_symbol {s : Symbol} (h : s.Formed) : s.type.Exact := by
  have hparams : ∀ {ps : List TypeTree}, (∀ a ∈ ps, a.Formed) → ∀ a ∈ ps, a.Exact :=
    fun h a ha => TypeTree.exact_of_formed (h a ha)
  cases h with
  | ofVariable hp ht => exact TypeTree.exact_of_formed ht
  | freeFunction i hp hc hr ha =>
    exact TypeTree.exact_function rfl (TypeTree.exact_of_formed hr) (hparams ha)
  | memberFunction i hp hf hc hr ha =>
    refine TypeTree.exact_function rfl ?_ (hparams ha)
    rcases hr with hr | ⟨q, j, -, rfl⟩
    · exact TypeTree.exact_of_formed hr
    · simp [TypeTree.Exact, TypeTree.leaf, TypeTree.left, TypeTree.right, TypeTree.extents]

/-- A declaration is complete exactly if the extents that are written in it have few enough
digits. -/
lemma render_eq_ok_iff {s : Symbol} (h : s.Formed) :
    (∃ d, s.render = .ok d) ↔ ∀ n ∈ s.type.extents true, Writable n := by
  have hfault : (s.type.declare s.path).fault = none ↔ ∀ n ∈ s.type.extents true, Writable n := by
    rw [← (exact_of_symbol h).2]
    simp [TypeTree.declare, fault_append_eq_none]
  rw [← hfault, Symbol.render, Script.render]
  cases (s.type.declare s.path).fault with
  | none => simp [pure, Except.pure]
  | some f => simp [throw, throwThe, MonadExceptOf.throw]

end Undecorate
