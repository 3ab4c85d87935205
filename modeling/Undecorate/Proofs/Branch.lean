import Undecorate.Proofs.LongestRun
import Undecorate.Proofs.Encoding.Code

/-!
The ways down a type, from its root to its leaves.

A branch goes a level deeper with every pointer and reference, with every step from a tag to one of
its template arguments, and with every longest run of arrays. A function is no level of its own, nor
is a further dimension of an array. So a branch has fewer levels than the type has levels of
nesting.
-/

namespace Undecorate

/-- A node on the way down a type. -/
structure Stage where
  kind : Kind
  /-- Whether the step to this node goes to an argument and not to the inner tree. -/
  isArg : Bool
deriving DecidableEq

/-- The nodes on the way from the root of a type to one of its leaves. -/
abbrev Branch := List Stage

namespace TypeTree

mutual

/-- The branches of a tree that is itself an argument of the tree above it, or is not. -/
def branchesAs (isArg : Bool) : TypeTree → List Branch
  | mk node inner args =>
    if inner.isNone && args.isEmpty then [[⟨node.kind, isArg⟩]]
    else (branchesInner inner ++ branchesArgs args).map (⟨node.kind, isArg⟩ :: ·)

def branchesInner : Option TypeTree → List Branch
  | none => []
  | some t => branchesAs false t

def branchesArgs : List TypeTree → List Branch
  | [] => []
  | t :: ts => branchesAs true t ++ branchesArgs ts

end

def branches (t : TypeTree) : List Branch := t.branchesAs false

end TypeTree

namespace Branch

/-- How many pointers and references there are on the branch. -/
def indirections (b : Branch) : Nat := b.countP fun stage => stage.kind.isIndirection

/-- How many steps go from a tag to one of its template arguments. -/
def argumentSteps (b : Branch) : Nat :=
  (b.zip b.tail).countP fun (above, below) => above.kind.isTag && below.isArg

/-- The arrays on the branch, each with all its dimensions: the longest runs of array nodes. -/
def arrays (b : Branch) : List Branch := longestRuns (fun stage => stage.kind.isArray) b

/-- How many arrays there are on the branch. -/
def arrayRuns (b : Branch) : Nat := b.arrays.length

/-- How many levels the branch goes down. -/
def levels (b : Branch) : Nat := b.indirections + b.argumentSteps + b.arrayRuns

/-! ### One more node on top -/

variable (stage : Stage) (b : Branch)

lemma indirections_cons :
    indirections (stage :: b) = b.indirections + stage.kind.isIndirection.toNat := by
  unfold indirections
  cases h : stage.kind.isIndirection <;> simp [h]

lemma argumentSteps_cons_le :
    argumentSteps (stage :: b) ≤ b.argumentSteps + stage.kind.isTag.toNat := by
  unfold argumentSteps
  cases b with
  | nil => simp
  | cons below b =>
    cases h : stage.kind.isTag
    · simp [h]
    · simp only [List.tail_cons, List.zip_cons_cons, List.countP_cons, h, Bool.true_and,
        Bool.toNat_true]
      split_ifs <;> omega

lemma arrayRuns_cons :
    arrayRuns (stage :: b) =
      b.arrayRuns + (stage.kind.isArray && !b.head?.any fun below => below.kind.isArray).toNat :=
  length_longestRuns_cons stage b

/-- A node is a level at most, and a function is none. -/
lemma levels_cons_le :
    levels (stage :: b) ≤ b.levels + (!stage.kind.isFunction).toNat := by
  have hindirections := indirections_cons stage b
  have hsteps := argumentSteps_cons_le stage b
  have hruns := arrayRuns_cons stage b
  have hrun : (stage.kind.isArray && !b.head?.any fun below => below.kind.isArray).toNat ≤
      stage.kind.isArray.toNat := by
    cases stage.kind.isArray <;> simp [Bool.toNat_le]
  -- a kind is one of a pointer or reference, a tag, an array and a function at most
  have hkind : stage.kind.isIndirection.toNat + stage.kind.isTag.toNat +
      stage.kind.isArray.toNat ≤ (!stage.kind.isFunction).toNat := by
    cases stage.kind <;>
      simp [Kind.isIndirection, Kind.isPointer, Kind.isReference, Kind.isTag, Kind.isArray,
        Kind.isFunction]
  unfold levels
  omega

variable {stage b}

/-- A further dimension of an array is no level. -/
lemma levels_cons_of_array (hs : stage.kind = .array)
    (hb : (b.head?.any fun below => below.kind.isArray) = true) :
    levels (stage :: b) ≤ b.levels := by
  have hindirections := indirections_cons stage b
  have hsteps := argumentSteps_cons_le stage b
  have hruns := arrayRuns_cons stage b
  rw [hs] at hindirections hsteps
  rw [hb, Bool.not_true, Bool.and_false] at hruns
  change indirections (stage :: b) = b.indirections + 0 at hindirections
  change argumentSteps (stage :: b) ≤ b.argumentSteps + 0 at hsteps
  change arrayRuns (stage :: b) = b.arrayRuns + 0 at hruns
  unfold levels
  omega

end Branch

namespace TypeTree

open Branch

/-! ### The branches of a tree -/

lemma mem_branchesArgs {b : Branch} {ts : List TypeTree} (h : b ∈ branchesArgs ts) :
    ∃ a ∈ ts, b ∈ a.branchesAs true := by
  induction ts with
  | nil => simp [branchesArgs] at h
  | cons t ts ih =>
    rw [branchesArgs, List.mem_append] at h
    rcases h with h | h
    · exact ⟨t, by simp, h⟩
    · obtain ⟨a, ha, hb⟩ := ih h
      exact ⟨a, by simp [ha], hb⟩

/-- A branch is a leaf, or goes on in the inner tree or in an argument. -/
lemma branch_cases {b : Branch} {isArg : Bool} {node : Node} {inner : Option TypeTree}
    {args : List TypeTree} (h : b ∈ (mk node inner args).branchesAs isArg) :
    ∃ below, b = ⟨node.kind, isArg⟩ :: below ∧
      (below = [] ∧ inner = none ∧ args = [] ∨ (∃ i ∈ inner, below ∈ i.branchesAs false) ∨
        ∃ a ∈ args, below ∈ a.branchesAs true) := by
  rw [branchesAs] at h
  split_ifs at h with hleaf
  · obtain ⟨hi, ha⟩ : inner = none ∧ args = [] := by simpa using hleaf
    exact ⟨[], by simpa using h, .inl ⟨rfl, hi, ha⟩⟩
  · obtain ⟨below, hb, rfl⟩ := List.mem_map.1 h
    refine ⟨below, rfl, .inr ?_⟩
    rcases List.mem_append.1 hb with hb | hb
    · cases inner with
      | none => simp [branchesInner] at hb
      | some i => exact .inl ⟨i, rfl, hb⟩
    · exact .inr (mem_branchesArgs hb)

lemma head?_of_mem_branchesAs {b : Branch} {isArg : Bool} {t : TypeTree}
    (h : b ∈ t.branchesAs isArg) : b.head? = some ⟨t.kind, isArg⟩ := by
  obtain ⟨node, inner, args⟩ := t
  obtain ⟨below, rfl, -⟩ := branch_cases h
  rfl

/-- Every branch of the tree has fewer than `n` levels, whatever the tree is an argument of. -/
def Shallow (n : Nat) (t : TypeTree) : Prop := ∀ isArg, ∀ b ∈ t.branchesAs isArg, b.levels < n

/-- A node above trees with fewer than `n` levels. -/
lemma shallow_mk {n : Nat} {node : Node} {inner : Option TypeTree} {args : List TypeTree}
    (hleaf : inner = none → args = [] →
      ∀ isArg, levels [⟨node.kind, isArg⟩] < n + (!node.kind.isFunction).toNat)
    (hi : ∀ i ∈ inner, i.Shallow n) (ha : ∀ a ∈ args, a.Shallow n) :
    (mk node inner args).Shallow (n + (!node.kind.isFunction).toNat) := by
  intro isArg b hb
  obtain ⟨below, rfl, ⟨rfl, hinner, hargs⟩ | ⟨i, hmem, hbelow⟩ | ⟨a, hmem, hbelow⟩⟩ :=
    branch_cases hb
  · exact hleaf hinner hargs isArg
  · have := levels_cons_le ⟨node.kind, isArg⟩ below
    have := hi i hmem false below hbelow
    simp only at *
    omega
  · have := levels_cons_le ⟨node.kind, isArg⟩ below
    have := ha a hmem true below hbelow
    simp only at *
    omega

lemma Shallow.mono {n m : Nat} {t : TypeTree} (h : t.Shallow n) (hnm : n ≤ m) : t.Shallow m :=
  fun isArg b hb => Nat.lt_of_lt_of_le (h isArg b hb) hnm

/-- A function is on the level of its parts. -/
lemma shallow_function {node : Node} {result : TypeTree} {params : List TypeTree}
    (hk : node.kind = .function) (hr : result.Shallow result.nesting)
    (hp : ∀ p ∈ params, p.Shallow p.nesting) :
    (mk node (some result) params).Shallow (mk node (some result) params).nesting := by
  have hparts : (mk node (some result) params).Shallow
      (max result.nesting (nestingArgs params) + (!node.kind.isFunction).toNat) := by
    refine shallow_mk (by simp) (fun r hm => ?_) fun a hm => ?_
    · obtain rfl := Option.mem_some_iff.1 hm
      exact hr.mono (Nat.le_max_left _ _)
    · exact (hp a hm).mono ((Encoding.nesting_le_nestingArgs hm).trans (Nat.le_max_right _ _))
  refine hparts.mono ?_
  simp [TypeTree.nesting, nestingInner, hk, Kind.isFunction]

lemma shallow_leaf {node : Node} (h : node.kind.hasInner = false) : (leaf node).Shallow 1 := by
  intro isArg b hb
  obtain ⟨below, rfl, ⟨rfl, -⟩ | ⟨i, hm, -⟩ | ⟨a, hm, -⟩⟩ := branch_cases hb
  · cases hk : node.kind with
    | unknown | noReturn | tag | primitive => exact Nat.one_pos
    | function | pointer | reference | array =>
      rw [hk] at h
      cases h
  · simp at hm
  · simp at hm

/-- **A branch has fewer levels than the type is nested.** -/
lemma Formed.shallow {t : TypeTree} (h : t.Formed) : t.Shallow t.nesting := by
  induction h with
  | primitive p i hq => exact shallow_leaf rfl
  | named key i hq hp => exact shallow_leaf rfl
  | @template i key q base args hk hq hb ha ih =>
    refine Shallow.mono (shallow_mk (n := nestingArgs args) (fun _ _ _ => Nat.succ_pos _)
      (by simp) fun a hm => ?_) ?_
    · exact (ih a hm).mono (Encoding.nesting_le_nestingArgs hm)
    · simp [TypeTree.nesting, nestingInner, Kind.isFunction]
  | @indirection i kind q target hk hq ht ih =>
    refine (shallow_mk (n := target.nesting) (by simp) (by simpa using ih) (by simp)).mono ?_
    rcases eq_of_isIndirection hk with rfl | rfl <;>
      simp [TypeTree.nesting, nestingInner, nestingArgs, Kind.isFunction]
  | @functionPointer i j q result params hq hr hp ihr ihp =>
    have hfunction : Shallow _ (mk { kind := .function, convention := some .cdecl, serial := j }
        (some result) params) := shallow_function rfl ihr ihp
    refine (shallow_mk (by simp) (by simpa using hfunction) (by simp)).mono ?_
    simp [TypeTree.nesting, nestingInner, nestingArgs, Kind.isFunction]
  | @array i n q inner hq hi ih =>
    intro isArg b hb
    obtain ⟨below, rfl, ⟨-, hnone, -⟩ | ⟨u, hmem, hbelow⟩ | ⟨a, hmem, -⟩⟩ := branch_cases hb
    · cases hnone
    · obtain rfl := Option.mem_some_iff.1 hmem
      have hlt := ih false below hbelow
      have hhead := head?_of_mem_branchesAs hbelow
      cases hk : inner.kind.isArray
      · have := levels_cons_le ⟨.array, isArg⟩ below
        simp only [TypeTree.nesting, nestingInner, Option.any_some, hk, Kind.isFunction] at *
        simp only [Bool.not_false, Bool.toNat_true, Bool.false_eq_true, if_false] at *
        omega
      · have : levels (⟨.array, isArg⟩ :: below) ≤ levels below :=
          levels_cons_of_array rfl (by rw [hhead]; exact hk)
        simp only [TypeTree.nesting, nestingInner, Option.any_some, hk, if_true] at *
        omega
    · simp at hmem

end TypeTree

end Undecorate
