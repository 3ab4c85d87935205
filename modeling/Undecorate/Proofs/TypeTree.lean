import Mathlib.Tactic.Lemma
import Undecorate.Symbol

/-!
Induction over type trees, what `walk` goes through, and the trees that can be read.
-/

namespace Undecorate

lemma eq_of_isIndirection {k : Kind} (h : k.isIndirection = true) :
    k = .pointer ∨ k = .reference := by
  cases k <;> simp_all [Kind.isIndirection, Kind.isPointer, Kind.isReference]

namespace TypeTree

/-- Induction over a tree, with the statement for the inner tree and for every argument. -/
@[elab_as_elim]
theorem induction {motive : TypeTree → Prop}
    (mk : ∀ node inner args, (∀ t ∈ inner, motive t) → (∀ a ∈ args, motive a) →
      motive (.mk node inner args)) (t : TypeTree) : motive t :=
  @TypeTree.rec motive (fun inner => ∀ t ∈ inner, motive t) (fun args => ∀ a ∈ args, motive a)
    mk (by simp) (fun t ht => by simpa using ht) (by simp)
    (fun t ts ht hts => by simpa using ⟨ht, hts⟩) t

lemma walkArgs_eq_flatMap (ts : List TypeTree) : walkArgs ts = ts.flatMap walk := by
  induction ts with
  | nil => rfl
  | cons t ts ih => rw [walkArgs, ih, List.flatMap_cons]

lemma mem_walkArgs {t : TypeTree} {ts : List TypeTree} :
    t ∈ walkArgs ts ↔ ∃ a ∈ ts, t ∈ a.walk := by
  rw [walkArgs_eq_flatMap, List.mem_flatMap]

lemma mem_walk {t node inner args} :
    t ∈ walk (mk node inner args) ↔
      t = mk node inner args ∨ (∃ i ∈ inner, t ∈ i.walk) ∨ ∃ a ∈ args, t ∈ a.walk := by
  cases inner with
  | none => simp [walk, walkInner, mem_walkArgs]
  | some i => simp [walk, walkInner, mem_walkArgs]

lemma self_mem_walk (t : TypeTree) : t ∈ t.walk := by
  obtain ⟨node, inner, args⟩ := t
  exact mem_walk.2 (.inl rfl)

lemma mem_walk_of_inner {t i : TypeTree} {node : Node} {inner : Option TypeTree}
    {args : List TypeTree} (hi : i ∈ inner) (h : t ∈ i.walk) : t ∈ (mk node inner args).walk :=
  mem_walk.2 (.inr (.inl ⟨i, hi, h⟩))

lemma mem_walk_of_arg {t a : TypeTree} {node : Node} {inner : Option TypeTree}
    {args : List TypeTree} (ha : a ∈ args) (h : t ∈ a.walk) : t ∈ (mk node inner args).walk :=
  mem_walk.2 (.inr (.inr ⟨a, ha, h⟩))

lemma length_walk_le_of_mem {t : TypeTree} {args : List TypeTree} (ht : t ∈ args) :
    t.walk.length ≤ (walkArgs args).length := by
  induction args with
  | nil => cases ht
  | cons u us ih =>
    rw [walkArgs, List.length_append]
    rcases List.mem_cons.1 ht with rfl | ht
    · omega
    · have := ih ht
      omega

end TypeTree

/-- The qualifiers that have a storage letter. -/
def Qualifiers.Stored (q : Qualifiers) : Prop :=
  q.isHuge = false ∧ q.isUnaligned = false ∧ q.isRestrict = false

instance (q : Qualifiers) : Decidable q.Stored := inferInstanceAs (Decidable (_ ∧ _))

/-- The types that can be read. A function is found only under a pointer. -/
inductive TypeTree.Formed : TypeTree → Prop
  | primitive (p : Primitive) (i : Nat) {q : Qualifiers} (hq : q.Stored) :
      Formed (leaf { kind := .primitive p, qualifiers := q, serial := i })
  | named (key : TagKey) (i : Nat) {q : Qualifiers} {p : Path} (hq : q.Stored)
      (hp : ∀ part ∈ p, '@' ∉ part) :
      Formed (leaf { kind := .tag key, qualifiers := q, path := p, serial := i })
  | template (i : Nat) {key : TagKey} {q : Qualifiers} {base : Text} {args : List TypeTree}
      (hk : key ≠ .enumKey) (hq : q.Stored) (hb : '@' ∉ base) (ha : ∀ a ∈ args, a.Formed) :
      Formed (mk { kind := .tag key, qualifiers := q, path := [base], serial := i } none args)
  | indirection (i : Nat) {kind : Kind} {q : Qualifiers} {target : TypeTree}
      (hk : kind.isIndirection = true) (hq : q.Stored) (ht : target.Formed) :
      Formed (mk { kind, qualifiers := q, serial := i } (some target) [])
  | functionPointer (i j : Nat) {q : Qualifiers} {result : TypeTree} {params : List TypeTree}
      (hq : q.Stored) (hr : result.Formed) (hp : ∀ p ∈ params, p.Formed) :
      Formed (mk { kind := .pointer, qualifiers := q, serial := i }
        (some (mk { kind := .function, convention := some .cdecl, serial := j }
          (some result) params)) [])
  | array (i : Nat) (n : Int) {q : Qualifiers} {inner : TypeTree} (hq : q.Stored)
      (hi : inner.Formed) :
      Formed (mk { kind := .array, qualifiers := q, extent := some n, serial := i } (some inner) [])

/-- The symbols that can be read where the text starts with `?`. -/
inductive Symbol.Formed : Symbol → Prop
  | ofVariable {p : Path} {t : TypeTree} (hp : ∀ part ∈ p, '@' ∉ part) (ht : t.Formed) :
      Formed { path := p, type := t }
  | freeFunction (i : Nat) {p : Path} {c : CallingConvention} {result : TypeTree}
      {params : List TypeTree} (hp : ∀ part ∈ p, '@' ∉ part) (hc : c ≠ .regcall)
      (hr : result.Formed) (ha : ∀ a ∈ params, a.Formed) :
      Formed
        { path := p
          type := .mk { kind := .function, convention := some c, serial := i }
            (some result) params }
  | memberFunction (i : Nat) {p : Path} {f : FunctionClass} {c : CallingConvention}
      {result : TypeTree} {params : List TypeTree} (hp : ∀ part ∈ p, '@' ∉ part)
      (hf : f ≠ {}) (hc : c ≠ .regcall)
      (hr : result.Formed ∨
        ∃ q j, q.Stored ∧ result = .leaf { kind := .noReturn, qualifiers := q, serial := j })
      (ha : ∀ a ∈ params, a.Formed) :
      Formed
        { path := p
          type := .mk { kind := .function, convention := some c, functionClass := f, serial := i }
            (some result) params }

end Undecorate
