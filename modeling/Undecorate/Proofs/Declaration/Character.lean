import Mathlib.Tactic.SplitIfs
import Undecorate.Proofs.TypeTree

/-!
The characters of a declaration, and what can cut it short.

Apart from its names and its parentheses, a declaration is made of characters of the writer's own.
A script `Keeps A P` if all its characters are in `A` and whatever cuts it short has `P`. This goes
through `++`, so it is shown for the small scripts first and then for the two sides of a type.
-/

namespace Undecorate

/-- The characters that the writer itself uses, besides parentheses. -/
def isOwn (c : Char) : Bool := c.isAlphanum || " _:~[]-<>,*&".toList.contains c

namespace Script

variable {A : Char → Prop} {P : Fault → Prop} {a b : Script}

lemma fault_append_eq_none : (a ++ b).fault = none ↔ a.fault = none ∧ b.fault = none := by
  obtain ⟨p, _ | f⟩ := a <;> simp [append_def, append]

lemma pieces_append (h : a.fault = none) : (a ++ b).pieces = a.pieces ++ b.pieces := by
  obtain ⟨p, f⟩ := a
  cases h
  rfl

/-- All characters that the script writes are in `A`, and what cuts it short has `P`. -/
structure Keeps (A : Char → Prop) (P : Fault → Prop) (s : Script) : Prop where
  within : ∀ t, .text t ∈ s.pieces → ∀ c ∈ t, A c
  blames : ∀ f ∈ s.fault, P f

lemma Keeps.append (ha : a.Keeps A P) (hb : b.Keeps A P) : (a ++ b).Keeps A P := by
  cases hf : a.fault with
  | some f =>
    have hab : a ++ b = a := by simp [append_def, Script.append, hf]
    rw [hab]
    exact ha
  | none =>
    have hab : a ++ b = { pieces := a.pieces ++ b.pieces, fault := b.fault } := by
      simp [append_def, Script.append, hf]
    rw [hab]
    refine ⟨fun t ht => ?_, hb.blames⟩
    rcases List.mem_append.1 ht with ht | ht
    · exact ha.within t ht
    · exact hb.within t ht

lemma keeps_empty : ({} : Script).Keeps A P := ⟨by simp, by simp⟩

lemma keeps_gap : gap.Keeps A P := ⟨by simp [gap], by simp [gap]⟩

lemma keeps_text {t : Text} (h : ∀ c ∈ t, A c) : (text t).Keeps A P :=
  ⟨by simpa [text] using h, by simp [text]⟩

lemma keeps_fail {f : Fault} (h : P f) : (fail f).Keeps A P :=
  ⟨by simp [fail], by simpa [fail] using h⟩

/-- The text of a script is made of the characters that it writes and of spaces. -/
lemma mem_layout {pieces : List Piece} (hs : A ' ') (h : ∀ t, .text t ∈ pieces → ∀ c ∈ t, A c)
    (before : Bool) : ∀ c ∈ layout before pieces, A c := by
  induction pieces generalizing before with
  | nil => simp [layout]
  | cons piece pieces ih =>
    have hrest : ∀ t, .text t ∈ pieces → ∀ c ∈ t, A c := fun t ht => h t (by simp [ht])
    intro c hc
    cases piece with
    | text t =>
      rw [layout, List.mem_append] at hc
      rcases hc with hc | hc
      · exact h t (by simp) c hc
      · exact ih hrest _ c hc
    | gap =>
      rw [layout] at hc
      split_ifs at hc
      · rcases List.mem_cons.1 hc with rfl | hc
        · exact hs
        · exact ih hrest _ c hc
      · exact ih hrest _ c hc

lemma Keeps.of_render_eq_ok {d : Text} (h : a.Keeps A P) (hs : A ' ') (hd : a.render = .ok d) :
    ∀ c ∈ d, A c := by
  unfold render at hd
  split at hd
  · cases hd
  · cases hd
    exact mem_layout hs h.within false

lemma Keeps.of_render_eq_error {f : Fault} (h : a.Keeps A P) (hf : a.render = .error f) : P f := by
  unfold render at hf
  split at hf
  · next hg =>
    cases hf
    exact h.blames _ hg
  · cases hf

end Script

open Script

/-! ### Small scripts -/

section Small

variable {A : Char → Prop} {P : Fault → Prop} (hA : ∀ c, isOwn c = true → A c)

include hA

/-- A text of the writer's own. -/
lemma keeps_own {t : Text} (h : t.all isOwn = true) : (text t).Keeps A P :=
  keeps_text fun c hc => hA c (List.all_eq_true.1 h c hc)

lemma keeps_constMark (node : Node) : (constMark node).Keeps A P := by
  unfold constMark
  split_ifs
  · exact keeps_gap.append (keeps_own hA rfl)
  · exact keeps_empty

lemma own_of_mem_decimal {n : Int} {c : Char} (h : c ∈ decimal n) : A c := by
  have hdigits : ∀ d ∈ Nat.toDigits 10 n.natAbs, A d := by
    intro d hd
    have := Nat.isDigit_of_mem_toDigits (by decide) (by decide) hd
    exact hA d (by simp [isOwn, Char.isAlphanum, this])
  unfold decimal at h
  split_ifs at h
  · rcases List.mem_cons.1 h with rfl | h
    · exact hA '-' rfl
    · exact hdigits c h
  · exact hdigits c h

/-- Only an extent with too many digits cannot be written. -/
lemma keeps_bounds {extent : Option Int}
    (hP : ∀ n ∈ extent, digitLimit < (Nat.toDigits 10 n.natAbs).length → P .numberTooLong) :
    (bounds extent).Keeps A P := by
  cases extent with
  | none => exact keeps_own hA rfl
  | some n =>
    by_cases hn : (Nat.toDigits 10 n.natAbs).length ≤ digitLimit
    · simp only [bounds, decimal?, hn, if_true]
      refine keeps_text fun c hc => ?_
      simp only [List.mem_cons, List.mem_append, List.not_mem_nil, or_false] at hc
      rcases hc with rfl | hc | rfl
      · exact hA '[' rfl
      · exact own_of_mem_decimal hA hc
      · exact hA ']' rfl
    · simp only [bounds, decimal?, hn, if_false]
      exact keeps_fail (hP n rfl (by omega))

lemma own_baseName {base : Text} (h : ∀ c ∈ base, A c) : ∀ c ∈ baseName base, A c := by
  have hcolon : A ':' := hA ':' rfl
  have htilde : A '~' := hA '~' rfl
  unfold baseName
  split
  · next cls =>
    have hcls : ∀ c ∈ cls, A c := fun c hc => h c (by simp [hc])
    simpa [or_imp, forall_and, hcolon] using hcls
  · next cls =>
    have hcls : ∀ c ∈ cls, A c := fun c hc => h c (by simp [hc])
    simpa [or_imp, forall_and, hcolon, htilde] using hcls
  · exact h

lemma keeps_qualified {p : Path} (h : ∀ part ∈ p, ∀ c ∈ part, A c) : (qualified p).Keeps A P := by
  cases p with
  | nil => exact keeps_empty
  | cons base scopes =>
    refine ⟨fun t ht => ?_, by simp [qualified]⟩
    simp only [qualified, List.cons_append, List.mem_cons, List.mem_append, List.mem_map,
      List.mem_reverse, List.not_mem_nil, or_false, reduceCtorEq, false_or, Piece.text.injEq] at ht
    rcases ht with ⟨scope, hs, rfl⟩ | rfl
    · have hcolon : A ':' := hA ':' rfl
      have hscope : ∀ c ∈ scope, A c := h scope (by simp [hs])
      simpa [or_imp, forall_and, hcolon] using hscope
    · exact own_baseName hA (h base (by simp))

end Small

/-! ### The two sides of a type -/

/-- An array whose extent has more digits than can be written. -/
def TypeTree.Oversized (t : TypeTree) : Prop :=
  t.kind = .array ∧ ∃ n ∈ t.node.extent, digitLimit < (Nat.toDigits 10 n.natAbs).length

namespace TypeTree

variable {P : Fault → Prop}

/-- No `@` is written, and what cuts the type short has `P`. -/
def Clean (P : Fault → Prop) (t : TypeTree) : Prop :=
  (left t).Keeps (· ≠ '@') P ∧ (right t).Keeps (· ≠ '@') P

lemma ne_at_of_isOwn (c : Char) (h : isOwn c = true) : c ≠ '@' := by
  rintro rfl
  revert h
  decide

lemma keeps_furtherParams {ts : List TypeTree} (h : ∀ a ∈ ts, a.Clean P) :
    (furtherParams ts).Keeps (· ≠ '@') P := by
  induction ts with
  | nil => exact keeps_empty
  | cons t ts ih =>
    obtain ⟨hl, hr⟩ := h t (by simp)
    have hcomma : (text [',']).Keeps (· ≠ '@') P := keeps_own ne_at_of_isOwn rfl
    exact ((hcomma.append hl).append hr).append (ih fun a ha => h a (by simp [ha]))

lemma keeps_params {ts : List TypeTree} (h : ∀ a ∈ ts, a.Clean P) :
    (params ts).Keeps (· ≠ '@') P := by
  cases ts with
  | nil => exact keeps_empty
  | cons t ts =>
    obtain ⟨hl, hr⟩ := h t (by simp)
    exact (hl.append hr).append (keeps_furtherParams fun a ha => h a (by simp [ha]))

lemma keeps_paren (inner : Option TypeTree) (mark : Char) (h : mark ≠ '@') :
    (paren inner mark).Keeps (· ≠ '@') P := by
  unfold paren
  split_ifs
  · exact keeps_text (by simpa using h)
  · exact keeps_empty

lemma clean_function {node : Node} {result : TypeTree} {params : List TypeTree}
    (hk : node.kind = .function) (hr : result.Clean P) (hp : ∀ a ∈ params, a.Clean P) :
    (mk node (some result) params).Clean P := by
  have hopen : (text ['(']).Keeps (· ≠ '@') P := keeps_text (by simp)
  have hclose : (text [')']).Keeps (· ≠ '@') P := keeps_text (by simp)
  simp only [Clean, left, right, hk, leftInner]
  exact ⟨hr.1, (hopen.append (keeps_params hp)).append hclose⟩

lemma clean_indirection {node : Node} {target : TypeTree} (hk : node.kind.isIndirection = true)
    (ht : target.Clean P) : (mk node (some target) []).Clean P := by
  have hstar : (text ['*']).Keeps (· ≠ '@') P := keeps_own ne_at_of_isOwn rfl
  have hamp : (text ['&']).Keeps (· ≠ '@') P := keeps_own ne_at_of_isOwn rfl
  have hopen := keeps_paren (P := P) (some target) '(' (by decide)
  have hclose := keeps_paren (P := P) (some target) ')' (by decide)
  have hconst := keeps_constMark (P := P) ne_at_of_isOwn node
  rcases eq_of_isIndirection hk with hk | hk
  · simp only [Clean, left, right, hk, leftInner, rightInner]
    exact ⟨((ht.1.append hopen).append hstar).append hconst, hclose.append ht.2⟩
  · simp only [Clean, left, right, hk, leftInner, rightInner]
    exact ⟨((ht.1.append hopen).append hamp).append hconst, hclose.append ht.2⟩

lemma clean_tag {node : Node} {key : TagKey} {args : List TypeTree} (hk : node.kind = .tag key)
    (hp : ∀ part ∈ node.path, '@' ∉ part) (ha : ∀ a ∈ args, a.Clean P) :
    (mk node none args).Clean P := by
  have hkey : (text (key.spelling ++ [' '])).Keeps (· ≠ '@') P :=
    keeps_own ne_at_of_isOwn (by cases key <;> rfl)
  have hname : (qualified node.path).Keeps (· ≠ '@') P :=
    keeps_qualified ne_at_of_isOwn fun part hpart c hc hat => hp part hpart (hat ▸ hc)
  have hopen : (text ['<']).Keeps (· ≠ '@') P := keeps_own ne_at_of_isOwn rfl
  have hclose : (text ['>']).Keeps (· ≠ '@') P := keeps_own ne_at_of_isOwn rfl
  simp only [Clean, left, right, hk]
  refine ⟨((hkey.append hname).append ?_).append (keeps_constMark ne_at_of_isOwn node), keeps_empty⟩
  split_ifs
  · exact keeps_empty
  · exact (hopen.append (keeps_params ha)).append hclose

lemma clean_array {node : Node} {inner : TypeTree} (hk : node.kind = .array)
    (hP : (mk node (some inner) []).Oversized → P .numberTooLong) (hi : inner.Clean P) :
    (mk node (some inner) []).Clean P := by
  simp only [Clean, left, right, hk, leftInner, rightInner]
  refine ⟨hi.1.append (keeps_constMark ne_at_of_isOwn node), ?_⟩
  exact (keeps_bounds ne_at_of_isOwn fun n hn hd => hP ⟨hk, n, hn, hd⟩).append hi.2

/-- One case for every form of a type. The arrays of a part are arrays of the whole. -/
lemma clean_of_formed {t : TypeTree} (h : t.Formed)
    (hP : ∀ a ∈ t.walk, a.Oversized → P .numberTooLong) : t.Clean P := by
  induction h with
  | primitive p i hq =>
    refine ⟨?_, keeps_empty⟩
    exact (keeps_own ne_at_of_isOwn (by cases p <;> rfl)).append
      (keeps_constMark ne_at_of_isOwn _)
  | named key i hq hp => exact clean_tag rfl hp (by simp)
  | @template i key q base args hk hq hb ha ih =>
    refine clean_tag rfl (by simpa using hb) fun a hm => ih a hm fun b hbm => ?_
    exact hP b (mem_walk_of_arg hm hbm)
  | @indirection i kind q target hk hq ht ih =>
    exact clean_indirection hk (ih fun a hm => hP a (mem_walk_of_inner rfl hm))
  | @functionPointer i j q result params hq hr hp ihr ihp =>
    refine clean_indirection rfl (clean_function rfl (ihr fun a hm => hP a ?_)
      fun p hpm => ihp p hpm fun a hm => hP a ?_)
    · exact mem_walk_of_inner rfl (mem_walk_of_inner rfl hm)
    · exact mem_walk_of_inner rfl (mem_walk_of_arg hpm hm)
  | @array i n q inner hq hi ih =>
    refine clean_array rfl (hP _ (self_mem_walk _)) (ih fun a hm => hP a ?_)
    exact mem_walk_of_inner rfl hm

/-- A function that is declared, with a result or without. -/
lemma clean_declared {node : Node} {result : TypeTree} {params : List TypeTree}
    (hk : node.kind = .function)
    (hr : result.Formed ∨
      ∃ q j, q.Stored ∧ result = .leaf { kind := .noReturn, qualifiers := q, serial := j })
    (ha : ∀ a ∈ params, a.Formed)
    (hP : ∀ a ∈ (mk node (some result) params).walk, a.Oversized → P .numberTooLong) :
    (mk node (some result) params).Clean P := by
  have hparams : ∀ a ∈ params, a.Clean P := fun a hm =>
    clean_of_formed (ha a hm) fun b hb => hP b (mem_walk_of_arg hm hb)
  refine clean_function hk ?_ hparams
  rcases hr with hr | ⟨q, j, -, rfl⟩
  · exact clean_of_formed hr fun b hb => hP b (mem_walk_of_inner rfl hb)
  · exact ⟨keeps_constMark ne_at_of_isOwn _, keeps_empty⟩

end TypeTree

/-! ### Symbols -/

lemma clean_of_symbol {P : Fault → Prop} {s : Symbol} (h : s.Formed)
    (hP : ∀ a ∈ s.type.walk, a.Oversized → P .numberTooLong) : s.type.Clean P := by
  cases h with
  | ofVariable hp ht => exact TypeTree.clean_of_formed ht hP
  | freeFunction i hp hc hr ha => exact TypeTree.clean_declared rfl (.inl hr) ha hP
  | memberFunction i hp hf hc hr ha => exact TypeTree.clean_declared rfl hr ha hP

lemma Symbol.Formed.path_free {s : Symbol} (h : s.Formed) : ∀ part ∈ s.path, '@' ∉ part := by
  cases h with
  | ofVariable hp ht => exact hp
  | freeFunction i hp hc hr ha => exact hp
  | memberFunction i hp hf hc hr ha => exact hp

lemma keeps_declare {P : Fault → Prop} {s : Symbol} (h : s.Formed)
    (hP : ∀ a ∈ s.type.walk, a.Oversized → P .numberTooLong) :
    (s.type.declare s.path).Keeps (· ≠ '@') P := by
  obtain ⟨hl, hr⟩ := clean_of_symbol h hP
  have hname : (qualified s.path).Keeps (· ≠ '@') P :=
    keeps_qualified TypeTree.ne_at_of_isOwn fun part hp c hc hat => h.path_free part hp (hat ▸ hc)
  exact (hl.append hname).append hr

end Undecorate
