import Undecorate.Proofs.Reading.Formed
import Undecorate.Proofs.Declaration.Parenthesis

/-!
Which declarations are balanced.

Every `)` closes an earlier `(`, but a function that returns a pointer or reference to a function or
array leaves a parenthesis open: its right side has nothing of its result. These functions are the
only reason, so a declaration is balanced exactly if there is none of them in its type.
-/

namespace Undecorate

open Script

namespace TypeTree

/-! ### What stays open -/

mutual

/-- Whether the left side of the type opens a parenthesis on the way to its base. -/
def wrapped : TypeTree → Bool
  | mk node inner _ =>
    match node.kind with
    | .function => wrappedInner inner
    | .pointer => inner.any (·.kind.bindsTighter) || wrappedInner inner
    | .reference => inner.any (·.kind.bindsTighter) || wrappedInner inner
    | .array => wrappedInner inner
    | _ => false

def wrappedInner : Option TypeTree → Bool
  | none => false
  | some t => wrapped t

end

/-- A function whose result is declared with a parenthesis. -/
def ReturnsWrapped (t : TypeTree) : Prop := t.kind = .function ∧ ∃ r ∈ t.inner, r.wrapped = true

lemma unclosedArgs_eq_zero {ts : List TypeTree} :
    unclosedArgs ts = 0 ↔ ∀ a ∈ ts, a.unclosed = 0 := by
  induction ts with
  | nil => simp [unclosedArgs]
  | cons t ts ih => simp [unclosedArgs, ih]

/-- Since functions are found under pointers only, a type that opens nothing has no function on the
way to its base, and nothing is left out on its right side. -/
lemma opened_eq_zero {t : TypeTree} (h : t.Formed) :
    t.opened = 0 ↔ t.wrapped = false ∧ t.unclosed = 0 := by
  induction h with
  | primitive p i hq => simp [opened, wrapped, unclosed, leaf]
  | named key i hq hp => simp [opened, wrapped, unclosed, leaf]
  | template i hk hq hb ha ih => simp [opened, wrapped, unclosed]
  | @indirection i kind q target hk hq ht ih =>
    by_cases hb : target.kind.bindsTighter = true
    · rcases eq_of_isIndirection hk with rfl | rfl <;>
        simp [opened, wrapped, tightness, hb]
    · rcases eq_of_isIndirection hk with rfl | rfl <;>
        simp [opened, openedInner, wrapped, wrappedInner, unclosed, unclosedInner, tightness, hb,
          ih]
  | functionPointer i j hq hr hp ihr ihp =>
    simp [opened, wrapped, tightness, kind, node, Kind.bindsTighter, Kind.isFunction]
  | array i n hq hi ih =>
    simp [opened, openedInner, wrapped, wrappedInner, unclosed, unclosedInner, ih]

/-- A function leaves nothing open if its result opens nothing and its parameters leave nothing
open. -/
lemma unclosed_function (node : Node) {result : TypeTree} {params : List TypeTree}
    (hk : node.kind = .function)
    (ho : result.opened = 0 ↔ result.wrapped = false ∧ result.unclosed = 0)
    (hr : result.unclosed = 0 ↔ ∀ f ∈ result.walk, ¬ f.ReturnsWrapped)
    (hp : ∀ p ∈ params, (p.unclosed = 0 ↔ ∀ f ∈ p.walk, ¬ f.ReturnsWrapped)) :
    (mk node (some result) params).unclosed = 0 ↔
      ∀ f ∈ (mk node (some result) params).walk, ¬ f.ReturnsWrapped := by
  have hself : (mk node (some result) params).ReturnsWrapped ↔ result.wrapped = true := by
    simp [ReturnsWrapped, kind, TypeTree.node, inner, hk]
  simp only [unclosed, hk, openedInner, Nat.add_eq_zero_iff, unclosedArgs_eq_zero]
  constructor
  · rintro ⟨h₁, h₂⟩ f hf
    rcases mem_walk.1 hf with rfl | ⟨r, hrm, hf⟩ | ⟨p, hpm, hf⟩
    · rw [hself, (ho.1 h₁).1]
      decide
    · cases hrm
      exact hr.1 (ho.1 h₁).2 f hf
    · exact (hp p hpm).1 (h₂ p hpm) f hf
  · intro h
    refine ⟨ho.2 ⟨?_, hr.2 fun f hf => h f ?_⟩, fun p hpm => (hp p hpm).2 fun f hf => h f ?_⟩
    · have := h _ (self_mem_walk _)
      rw [hself] at this
      simpa using this
    · exact mem_walk_of_inner rfl hf
    · exact mem_walk_of_arg hpm hf

lemma forall_walk_of_ne {node : Node} {inner : Option TypeTree} {args : List TypeTree}
    (hk : node.kind ≠ .function) :
    (∀ f ∈ (mk node inner args).walk, ¬ f.ReturnsWrapped) ↔
      (∀ t ∈ inner, ∀ f ∈ t.walk, ¬ f.ReturnsWrapped) ∧
        ∀ a ∈ args, ∀ f ∈ a.walk, ¬ f.ReturnsWrapped := by
  constructor
  · intro h
    exact ⟨fun t ht f hf => h f (mem_walk_of_inner ht hf),
      fun a ha f hf => h f (mem_walk_of_arg ha hf)⟩
  · rintro ⟨hi, ha⟩ f hf
    rcases mem_walk.1 hf with rfl | ⟨t, ht, hf⟩ | ⟨a, hm, hf⟩
    · exact fun h => hk h.1
    · exact hi t ht f hf
    · exact ha a hm f hf

/-- A type leaves parentheses open exactly if some function in it returns a wrapped type. -/
lemma unclosed_eq_zero {t : TypeTree} (h : t.Formed) :
    t.unclosed = 0 ↔ ∀ f ∈ t.walk, ¬ f.ReturnsWrapped := by
  induction h with
  | primitive p i hq =>
    rw [leaf, forall_walk_of_ne (by simp)]
    simp [unclosed]
  | named key i hq hp =>
    rw [leaf, forall_walk_of_ne (by simp)]
    simp [unclosed, unclosedArgs]
  | @template i key q base args hk hq hb ha ih =>
    rw [forall_walk_of_ne (by simp)]
    simp only [unclosed, unclosedArgs_eq_zero]
    constructor
    · exact fun h => ⟨by simp, fun a hm => (ih a hm).1 (h a hm)⟩
    · exact fun h a hm => (ih a hm).2 (h.2 a hm)
  | @indirection i kind q target hk hq ht ih =>
    rcases eq_of_isIndirection hk with rfl | rfl <;>
      simp [forall_walk_of_ne, unclosed, unclosedInner, ih]
  | @functionPointer i j q result params hq hr hp ihr ihp =>
    have hf := unclosed_function { kind := .function, convention := some .cdecl, serial := j } rfl
      (opened_eq_zero hr) ihr ihp
    rw [forall_walk_of_ne (by simp), unclosed, unclosedInner, hf]
    simp
  | array i n hq hi ih => simp [forall_walk_of_ne, unclosed, unclosedInner, ih]

end TypeTree

lemma unclosed_eq_zero_of_symbol {s : Symbol} (h : s.Formed) :
    s.type.unclosed = 0 ↔ ∀ f ∈ s.type.walk, ¬ f.ReturnsWrapped := by
  cases h with
  | ofVariable hp ht => exact TypeTree.unclosed_eq_zero ht
  | freeFunction i hp hc hr ha =>
    exact TypeTree.unclosed_function _ rfl (TypeTree.opened_eq_zero hr)
      (TypeTree.unclosed_eq_zero hr) fun a hm => TypeTree.unclosed_eq_zero (ha a hm)
  | @memberFunction i p f c result params hp hf hc hr ha =>
    refine TypeTree.unclosed_function _ rfl ?_ ?_ fun a hm => TypeTree.unclosed_eq_zero (ha a hm)
    · rcases hr with hr | ⟨q, j, -, rfl⟩
      · exact TypeTree.opened_eq_zero hr
      · simp [TypeTree.opened, TypeTree.wrapped, TypeTree.unclosed, TypeTree.leaf]
    · rcases hr with hr | ⟨q, j, -, rfl⟩
      · exact TypeTree.unclosed_eq_zero hr
      · simp [TypeTree.forall_walk_of_ne, TypeTree.unclosed, TypeTree.leaf]

/-! ### Declarations -/

/-- The number of parentheses that a declaration leaves open. -/
lemma openAfter_render {s : Symbol} {d : Text} (hp : ∀ part ∈ s.path, part.Bare)
    (hb : s.type.BareNames) (hd : s.render = .ok d) : d.openAfter 0 = some s.type.unclosed := by
  obtain ⟨hl, hr⟩ := s.type.counted hb
  have hmoves : (s.type.declare s.path).Moves 0 (0 + s.type.unclosed) :=
    ((hl 0).append (moves_qualified hp _)).append (hr 0)
  rw [Nat.zero_add] at hmoves
  unfold Symbol.render Script.render at hd
  split at hd
  · cases hd
  · next hf =>
    cases hd
    exact hmoves hf false

/-- **Parentheses in a declaration**: in the declaration of a decorated name every `)` closes an
earlier `(`, and it leaves open exactly what `unclosed` counts. So all parentheses are closed if and
only if no function in the type returns a pointer or reference that has to be parenthesised. -/
theorem balanced_render_iff {t d : Text} {s : Symbol} (ht : t.head? = some '?')
    (h : parse t = .ok s) (hp : ∀ part ∈ s.path, part.Bare)
    (hb : ∀ u ∈ s.type.walk, ∀ part ∈ u.node.path, part.Bare) (hd : s.render = .ok d) :
    d.ClosesOpened ∧ d.count '(' = d.count ')' + s.type.unclosed ∧
      (d.Balanced ↔ ∀ f ∈ s.type.walk, ¬ f.ReturnsWrapped) := by
  obtain ⟨hclose, hcount⟩ := Text.openAfter_eq_some (openAfter_render hp hb hd)
  simp only [Nat.zero_add] at hclose hcount
  refine ⟨hclose, by omega, ?_⟩
  rw [← unclosed_eq_zero_of_symbol (formed_of_parse ht h)]
  constructor
  · intro hbal
    have := hbal.2
    omega
  · exact fun hz => ⟨hclose, by omega⟩

/-- Whether a symbol has this declaration and no parenthesis in its names. -/
def declaresBarely (d : Text) (s : Symbol) : Bool :=
  s.path.all (fun part => decide part.Bare) &&
    s.type.walk.all (fun u => u.node.path.all fun part => decide part.Bare) &&
      decide (s.render.toOption = some d)

lemma declaresBarely_spec {d : Text} {s : Symbol} (h : declaresBarely d s = true) :
    (∀ part ∈ s.path, part.Bare) ∧ (∀ u ∈ s.type.walk, ∀ part ∈ u.node.path, part.Bare) ∧
      s.render = .ok d := by
  simp only [declaresBarely, Bool.and_eq_true, List.all_eq_true, decide_eq_true_eq] at h
  exact ⟨h.1.1, h.1.2, render_of_toOption h.2⟩

theorem balanced_render_iff_call :
    ∃ s, parse "?call@@YAXP6AXH@Z@Z".toList = .ok s ∧
      s.render = .ok "void call(void(*)(int))".toList ∧
      Text.Balanced "void call(void(*)(int))".toList ∧ ∀ f ∈ s.type.walk, ¬ f.ReturnsWrapped := by
  obtain ⟨s, hs, htest⟩ := exists_of_test (t := "?call@@YAXP6AXH@Z@Z".toList)
    (p := declaresBarely "void call(void(*)(int))".toList) (by decide +kernel)
  obtain ⟨hp, hb, hd⟩ := declaresBarely_spec htest
  obtain ⟨hclose, -, hiff⟩ := balanced_render_iff (by decide) hs hp hb hd
  have hbal : Text.Balanced "void call(void(*)(int))".toList := ⟨hclose, by decide⟩
  exact ⟨s, hs, hd, hbal, hiff.1 hbal⟩

/-- A function that returns a pointer to a function leaves a parenthesis open. -/
theorem not_balanced_functionResult :
    ∃ s, parse "?f@@YAP6AHXZX@Z".toList = .ok s ∧ (∀ part ∈ s.path, part.Bare) ∧
      (∀ u ∈ s.type.walk, ∀ part ∈ u.node.path, part.Bare) ∧
      s.render = .ok "int(*f(void)".toList ∧ ¬ Text.Balanced "int(*f(void)".toList := by
  obtain ⟨s, hs, htest⟩ := exists_of_test (t := "?f@@YAP6AHXZX@Z".toList)
    (p := declaresBarely "int(*f(void)".toList) (by decide +kernel)
  obtain ⟨hp, hb, hd⟩ := declaresBarely_spec htest
  exact ⟨s, hs, hp, hb, hd, fun hbal => absurd hbal.2 (by decide)⟩

end Undecorate
