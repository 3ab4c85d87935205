import Mathlib.Tactic.SplitIfs
import Undecorate.Proofs.Declaration.Character

/-!
Counting parentheses.

The left side of a type opens a parenthesis for every pointer or reference to a function or array
on the way to its base, and the right side closes them again, but not those in the result of a
function. `opened` and `unclosed` count what is open behind the left side and behind both, and the
scripts are shown to move as counted.
-/

namespace Undecorate

/-! ### Counting in a text -/

namespace Text

/-- How many parentheses are open after a text that is entered with `n` open ones. There is no
answer if one is closed that was not open. -/
def openAfter : Text → Nat → Option Nat
  | [], n => some n
  | c :: t, n =>
    if c = '(' then openAfter t (n + 1)
    else if c = ')' then
      match n with
      | 0 => none
      | n + 1 => openAfter t n
    else openAfter t n

/-- Every `)` closes an earlier `(`. -/
def ClosesOpened (t : Text) : Prop := ∀ p, p <+: t → p.count ')' ≤ p.count '('

/-- Every `)` closes an earlier `(`, and every `(` is closed. -/
def Balanced (t : Text) : Prop := t.ClosesOpened ∧ t.count '(' = t.count ')'

/-- The text has no parentheses. -/
def Bare (t : Text) : Prop := '(' ∉ t ∧ ')' ∉ t

instance (t : Text) : Decidable t.Bare := inferInstanceAs (Decidable (_ ∧ _))

lemma openAfter_append (t u : Text) (n : Nat) :
    openAfter (t ++ u) n = (openAfter t n).bind (openAfter u) := by
  induction t generalizing n with
  | nil => rfl
  | cons c t ih =>
    simp only [List.cons_append, openAfter]
    split_ifs with h₁ h₂
    · exact ih (n + 1)
    · cases n with
      | zero => rfl
      | succ n => exact ih n
    · exact ih n

lemma openAfter_of_bare {t : Text} (h : t.Bare) (n : Nat) : openAfter t n = some n := by
  induction t with
  | nil => rfl
  | cons c t ih =>
    simp only [Bare, List.mem_cons, not_or] at h
    simp only [openAfter, Ne.symm h.1.1, Ne.symm h.2.1, if_false]
    exact ih ⟨h.1.2, h.2.2⟩

lemma openAfter_eq_some {t : Text} {n k : Nat} (h : openAfter t n = some k) :
    (∀ p, p <+: t → p.count ')' ≤ n + p.count '(') ∧ n + t.count '(' = k + t.count ')' := by
  induction t generalizing n with
  | nil =>
    cases h
    simp
  | cons c t ih =>
    have hstep : ∃ m, openAfter t m = some k ∧
        m + [c].count ')' = n + [c].count '(' ∧ [c].count ')' ≤ n + [c].count '(' := by
      simp only [openAfter] at h
      split_ifs at h with h₁ h₂
      · exact ⟨n + 1, h, by simp [h₁], by simp [h₁]⟩
      · cases n with
        | zero => cases h
        | succ n => exact ⟨n, h, by simp [h₂], by simp [h₂]⟩
      · exact ⟨n, h, by simp [h₁, h₂], by simp [h₂]⟩
    obtain ⟨m, hm, hc, hle⟩ := hstep
    obtain ⟨hp, ht⟩ := ih hm
    refine ⟨fun p hpre => ?_, ?_⟩
    · rcases p with _ | ⟨d, p⟩
      · simp
      · obtain ⟨rfl, hpt⟩ := List.cons_prefix_cons.1 hpre
        have := hp p hpt
        rw [← List.singleton_append, List.count_append, List.count_append]
        omega
    · rw [← List.singleton_append, List.count_append, List.count_append]
      omega

end Text

/-! ### Scripts -/

namespace Script

/-- Where nothing cuts it short, the script leads from `n` open parentheses to `k`. -/
def Moves (s : Script) (n k : Nat) : Prop :=
  s.fault = none → ∀ before, (layout before s.pieces).openAfter n = some k

lemma Moves.append {a b : Script} {n m k : Nat} (ha : a.Moves n m) (hb : b.Moves m k) :
    (a ++ b).Moves n k := by
  intro hf before
  obtain ⟨hfa, hfb⟩ := fault_append_eq_none.1 hf
  rw [pieces_append hfa, layout_append, Text.openAfter_append, ha hfa before]
  exact hb hfb _

/-- A script without parentheses. -/
lemma Keeps.moves {P : Fault → Prop} {s : Script} (h : s.Keeps (fun c => c ≠ '(' ∧ c ≠ ')') P)
    (n : Nat) : s.Moves n n := by
  intro _ before
  have hno := mem_layout (by decide) h.within before
  exact Text.openAfter_of_bare ⟨fun hm => (hno _ hm).1 rfl, fun hm => (hno _ hm).2 rfl⟩ n

lemma moves_empty (n : Nat) : ({} : Script).Moves n n := fun _ _ => rfl

lemma moves_fail (f : Fault) (n k : Nat) : (fail f).Moves n k := fun h => by cases h

lemma moves_open (n : Nat) : (text ['(']).Moves n (n + 1) := fun _ _ => rfl

lemma moves_close (n : Nat) : (text [')']).Moves (n + 1) n := fun _ _ => rfl

end Script

open Script

/-- The characters of the writer's own, which parentheses are not counted among. -/
lemma ne_paren_of_isOwn (c : Char) (h : isOwn c = true) : c ≠ '(' ∧ c ≠ ')' := by
  constructor <;> rintro rfl <;> exact absurd h (by decide)

lemma moves_own {t : Text} (h : t.all isOwn = true) (n : Nat) : (text t).Moves n n :=
  (keeps_own (P := fun _ => True) ne_paren_of_isOwn h).moves n

lemma moves_constMark (node : Node) (n : Nat) : (constMark node).Moves n n :=
  (keeps_constMark (P := fun _ => True) ne_paren_of_isOwn node).moves n

lemma moves_bounds (extent : Option Int) (n : Nat) : (bounds extent).Moves n n :=
  (keeps_bounds (P := fun _ => True) ne_paren_of_isOwn fun _ _ _ => trivial).moves n

lemma moves_qualified {p : Path} (h : ∀ part ∈ p, part.Bare) (n : Nat) :
    (qualified p).Moves n n := by
  refine (keeps_qualified (P := fun _ => True) ne_paren_of_isOwn fun part hp c hc => ?_).moves n
  exact ⟨fun he => (h part hp).1 (he ▸ hc), fun he => (h part hp).2 (he ▸ hc)⟩

/-! ### The two sides of a type -/

namespace TypeTree

/-- Whether a pointer or reference to this type is parenthesised, as a number. -/
def tightness (inner : Option TypeTree) : Nat := if inner.any (·.kind.bindsTighter) then 1 else 0

mutual

/-- How many parentheses the left side leaves open. -/
def opened : TypeTree → Nat
  | mk node inner args =>
    match node.kind with
    | .function => openedInner inner
    | .pointer => openedInner inner + tightness inner
    | .reference => openedInner inner + tightness inner
    | .array => openedInner inner
    | .tag _ => unclosedArgs args
    | _ => 0

def openedInner : Option TypeTree → Nat
  | none => 0
  | some t => opened t

/-- How many parentheses are open behind the right side. The right side of a function has nothing
of its result, so what the result opened stays open. -/
def unclosed : TypeTree → Nat
  | mk node inner args =>
    match node.kind with
    | .function => openedInner inner + unclosedArgs args
    | .pointer => unclosedInner inner
    | .reference => unclosedInner inner
    | .array => unclosedInner inner
    | .tag _ => unclosedArgs args
    | _ => 0

def unclosedInner : Option TypeTree → Nat
  | none => 0
  | some t => unclosed t

def unclosedArgs : List TypeTree → Nat
  | [] => 0
  | t :: ts => unclosed t + unclosedArgs ts

end

/-- The parentheses on the two sides are as many as counted. -/
def Counted (t : TypeTree) : Prop :=
  (∀ n, (left t).Moves n (n + opened t)) ∧ ∀ n, (right t).Moves (n + opened t) (n + unclosed t)

/-- No name in the tree has a parenthesis. -/
def BareNames (t : TypeTree) : Prop := ∀ u ∈ t.walk, ∀ part ∈ u.node.path, part.Bare

lemma moves_paren_open (inner : Option TypeTree) (n : Nat) :
    (paren inner '(').Moves n (n + tightness inner) := by
  unfold paren tightness
  split_ifs
  · exact moves_open n
  · exact moves_empty n

lemma moves_paren_close (inner : Option TypeTree) (n : Nat) :
    (paren inner ')').Moves (n + tightness inner) n := by
  unfold paren tightness
  split_ifs
  · exact moves_close n
  · exact moves_empty n

lemma moves_leftInner {inner : Option TypeTree} (h : ∀ t ∈ inner, t.Counted) (n : Nat) :
    (leftInner inner).Moves n (n + openedInner inner) := by
  cases inner with
  | none => exact moves_fail _ _ _
  | some t => exact (h t rfl).1 n

lemma moves_rightInner {inner : Option TypeTree} (h : ∀ t ∈ inner, t.Counted) (n : Nat) :
    (rightInner inner).Moves (n + openedInner inner) (n + unclosedInner inner) := by
  cases inner with
  | none => exact moves_fail _ _ _
  | some t => exact (h t rfl).2 n

lemma moves_furtherParams {ts : List TypeTree} (h : ∀ a ∈ ts, a.Counted) (n : Nat) :
    (furtherParams ts).Moves n (n + unclosedArgs ts) := by
  induction ts generalizing n with
  | nil => exact moves_empty n
  | cons t ts ih =>
    obtain ⟨hl, hr⟩ := h t (by simp)
    have hrest := ih (fun a ha => h a (by simp [ha])) (n + unclosed t)
    rw [Nat.add_assoc] at hrest
    exact (((moves_own rfl n).append (hl n)).append (hr n)).append hrest

lemma moves_params {ts : List TypeTree} (h : ∀ a ∈ ts, a.Counted) (n : Nat) :
    (params ts).Moves n (n + unclosedArgs ts) := by
  cases ts with
  | nil => exact moves_empty n
  | cons t ts =>
    obtain ⟨hl, hr⟩ := h t (by simp)
    have hts : ∀ a ∈ ts, a.Counted := fun a ha => h a (by simp [ha])
    have hrest := moves_furtherParams hts (n + unclosed t)
    rw [Nat.add_assoc] at hrest
    exact ((hl n).append (hr n)).append hrest

lemma counted_function {node : Node} {inner : Option TypeTree} {args : List TypeTree}
    (hk : node.kind = .function) (hi : ∀ t ∈ inner, t.Counted) (ha : ∀ a ∈ args, a.Counted) :
    (mk node inner args).Counted := by
  refine ⟨fun n => ?_, fun n => ?_⟩
  · simp only [left, opened, hk]
    exact moves_leftInner hi n
  · simp only [right, opened, unclosed, hk]
    have hparams := moves_params ha (n + openedInner inner + 1)
    have hclose := moves_close (n + openedInner inner + unclosedArgs args)
    rw [Nat.add_right_comm _ _ 1] at hclose
    rw [← Nat.add_assoc]
    exact ((moves_open _).append hparams).append hclose

lemma counted_indirection {node : Node} {inner : Option TypeTree} {args : List TypeTree}
    (hk : node.kind = .pointer ∨ node.kind = .reference) (hi : ∀ t ∈ inner, t.Counted) :
    (mk node inner args).Counted := by
  have hopen : ∀ n, (leftInner inner ++ paren inner '(').Moves n
      (n + (openedInner inner + tightness inner)) := by
    intro n
    rw [← Nat.add_assoc]
    exact (moves_leftInner hi n).append (moves_paren_open inner _)
  have hclose : ∀ n, (paren inner ')' ++ rightInner inner).Moves
      (n + (openedInner inner + tightness inner)) (n + unclosedInner inner) := by
    intro n
    rw [← Nat.add_assoc]
    exact (moves_paren_close inner _).append (moves_rightInner hi n)
  rcases hk with hk | hk
  · refine ⟨fun n => ?_, fun n => ?_⟩
    · simp only [left, opened, hk]
      exact ((hopen n).append (moves_own rfl _)).append (moves_constMark node _)
    · simp only [right, opened, unclosed, hk]
      exact hclose n
  · refine ⟨fun n => ?_, fun n => ?_⟩
    · simp only [left, opened, hk]
      exact ((hopen n).append (moves_own rfl _)).append (moves_constMark node _)
    · simp only [right, opened, unclosed, hk]
      exact hclose n

lemma counted_array {node : Node} {inner : Option TypeTree} {args : List TypeTree}
    (hk : node.kind = .array) (hi : ∀ t ∈ inner, t.Counted) : (mk node inner args).Counted := by
  refine ⟨fun n => ?_, fun n => ?_⟩
  · simp only [left, opened, hk]
    exact (moves_leftInner hi n).append (moves_constMark node _)
  · simp only [right, opened, unclosed, hk]
    exact (moves_bounds _ _).append (moves_rightInner hi n)

lemma counted_tag {node : Node} {key : TagKey} {inner : Option TypeTree} {args : List TypeTree}
    (hk : node.kind = .tag key) (hp : ∀ part ∈ node.path, part.Bare)
    (ha : ∀ a ∈ args, a.Counted) : (mk node inner args).Counted := by
  refine ⟨fun n => ?_, fun n => ?_⟩
  · simp only [left, opened, hk]
    have hkey := moves_own (t := key.spelling ++ [' ']) (by cases key <;> rfl) n
    refine ((hkey.append (moves_qualified hp n)).append ?_).append (moves_constMark node _)
    split_ifs with he
    · rw [List.isEmpty_iff.1 he]
      exact moves_empty n
    · exact ((moves_own rfl n).append (moves_params ha n)).append (moves_own rfl _)
  · simp only [right, opened, unclosed, hk]
    exact moves_empty _

/-- Every type opens and closes as many parentheses as counted. -/
lemma counted (t : TypeTree) (hb : t.BareNames) : t.Counted := by
  induction t using TypeTree.induction with
  | mk node inner args hi ha =>
    have hinner : ∀ t ∈ inner, t.Counted := fun t ht =>
      hi t ht fun u hu => hb u (mem_walk_of_inner ht hu)
    have hargs : ∀ a ∈ args, a.Counted := fun a hm =>
      ha a hm fun u hu => hb u (mem_walk_of_arg hm hu)
    have hown : ∀ part ∈ node.path, part.Bare := hb _ (self_mem_walk _)
    cases hk : node.kind with
    | function => exact counted_function hk hinner hargs
    | pointer => exact counted_indirection (.inl hk) hinner
    | reference => exact counted_indirection (.inr hk) hinner
    | array => exact counted_array hk hinner
    | tag key => exact counted_tag hk hown hargs
    | primitive p =>
      refine ⟨fun n => ?_, fun n => ?_⟩
      · simp only [left, opened, hk]
        exact (moves_own (by cases p <;> rfl) n).append (moves_constMark node _)
      · simp only [right, opened, unclosed, hk]
        exact moves_empty _
    | unknown =>
      simp only [Counted, left, right, opened, unclosed, hk]
      exact ⟨moves_constMark node, moves_empty⟩
    | noReturn =>
      simp only [Counted, left, right, opened, unclosed, hk]
      exact ⟨moves_constMark node, moves_empty⟩

end TypeTree

end Undecorate
