import Undecorate.Proofs.Branch
import Undecorate.Proofs.Encoding.Decoding
import Undecorate.Proofs.Reading.Tracking

/-!
The limit is one of nesting, and not of size.

A type that is read leaves the depth as it was, however many types it is made of. So a list of types
costs no more levels than its deepest member, and what the limit bounds is the number of levels on
a branch. Lists of parameters and template arguments, and the dimensions of an array, may be as long
as one likes.
-/

namespace Undecorate

open Reading TypeTree

/-! ### The levels of a symbol -/

lemma Symbol.Formed.shallow {s : Symbol} (h : s.Formed) : s.type.Shallow s.type.nesting := by
  cases h with
  | ofVariable hp ht => exact ht.shallow
  | freeFunction i hp hc hr ha =>
    exact shallow_function rfl hr.shallow fun a hm => (ha a hm).shallow
  | memberFunction i hp hf hc hr ha =>
    refine shallow_function rfl ?_ fun a hm => (ha a hm).shallow
    rcases hr with hr | ⟨q, j, -, rfl⟩
    · exact hr.shallow
    · exact shallow_leaf rfl

lemma nesting_le_of_parse {t : Text} {s : Symbol} (h : parse t = .ok s) :
    s.type.nesting ≤ depthLimit := by
  obtain ⟨u, hu⟩ := ok_of_parse h
  have htracks := tracks_symbol (Nat.le_refl 0) (show 0 < depthLimit by decide)
  exact (htracks.resurfaces rfl hu).2.type.nesting

lemma levels_lt_of_parse {t : Text} {s : Symbol} (h : parse t = .ok s) {b : Branch}
    (hb : b ∈ s.type.branches) : b.levels < depthLimit := by
  have hshallow : s.type.Shallow s.type.nesting := by
    by_cases ht : t.head? = some '?'
    · exact (formed_of_parse ht h).shallow
    · rw [parse_of_identifier ht] at h
      cases h
      exact shallow_leaf rfl
  exact (hshallow false b hb).trans_le (nesting_le_of_parse h)

/-! ### Numbers leave branches alone -/

lemma TypeTree.branchesAs_numberFrom (isArg : Bool) (i : Nat) (t : TypeTree) :
    (t.numberFrom i).branchesAs isArg = t.branchesAs isArg := by
  induction t using TypeTree.induction generalizing isArg i with
  | mk node inner args hinner hargs =>
    have hin : ∀ j, branchesInner (numberInner j inner) = branchesInner inner := by
      intro j
      cases inner with
      | none => rfl
      | some t => exact hinner t rfl false j
    have hargs : ∀ j, branchesArgs (numberArgs j args) = branchesArgs args := by
      clear hin
      induction args with
      | nil => exact fun j => rfl
      | cons a as ih =>
        intro j
        rw [numberArgs, branchesArgs, branchesArgs, hargs a (by simp),
          ih fun b hb => hargs b (by simp [hb])]
    have hnone : (numberInner (i + 1) inner).isNone = inner.isNone := by cases inner <;> rfl
    have hempty : ∀ j, (numberArgs j args).isEmpty = args.isEmpty := fun j => by cases args <;> rfl
    rw [numberFrom, branchesAs, branchesAs, hin, hargs, hnone, hempty]

lemma TypeTree.length_numberArgs (i : Nat) (ts : List TypeTree) :
    (numberArgs i ts).length = ts.length := by
  induction ts generalizing i with
  | nil => rfl
  | cons t ts ih => rw [numberArgs, List.length_cons, List.length_cons, ih]

/-! ### Lists without a limit -/

/-- The type `int`. -/
def plainInt : TypeTree := .leaf { kind := .primitive .int }

lemma plainInt_spec :
    ∀ n : Nat, ∀ a ∈ List.replicate n plainInt, a.Unqualified ∧ a.Expressible := by
  intro n a ha
  rw [List.eq_of_mem_replicate ha]
  exact ⟨rfl, .primitive .int {} 0⟩

lemma nestingArgs_replicate (n : Nat) : nestingArgs (List.replicate n plainInt) ≤ 1 := by
  induction n with
  | zero => exact Nat.zero_le _
  | succ n ih =>
    rw [List.replicate_succ, nestingArgs]
    exact Nat.max_le.2 ⟨Nat.le_refl _, ih⟩

/-- An array of `int` with that many dimensions. -/
def grid : Nat → TypeTree
  | 0 => plainInt
  | n + 1 => .mk { kind := .array, extent := some 1 } (some (grid n)) []

lemma expressible_grid (n : Nat) : (grid n).Unqualified ∧ (grid n).Expressible := by
  induction n with
  | zero => exact ⟨rfl, .primitive .int {} 0⟩
  | succ n ih => exact ⟨rfl, .array {} 0 1 ih.1 ih.2⟩

/-- However many dimensions it has, the array is one level and its elements are another. -/
lemma nesting_grid_le (n : Nat) : (grid n).nesting ≤ 2 := by
  induction n with
  | zero => decide
  | succ n ih =>
    rw [grid, TypeTree.nesting, nestingInner, Option.any_some]
    split_ifs with hk
    · exact ih
    · cases n with
      | zero => decide
      | succ n => exact absurd rfl hk

lemma branches_grid (n : Nat) :
    (grid n).branches = [List.replicate n ⟨.array, false⟩ ++ [⟨.primitive .int, false⟩]] := by
  induction n with
  | zero => rfl
  | succ n ih =>
    change (branchesInner (some (grid n)) ++ []).map (Stage.mk .array false :: ·) = _
    rw [List.append_nil, branchesInner]
    change (grid n).branches.map _ = _
    rw [ih]
    rfl

lemma longestRuns_replicate {α : Type} {p : α → Bool} {a : α} (ha : p a = true) (n : Nat) :
    longestRuns p (List.replicate (n + 1) a) = [List.replicate (n + 1) a] := by
  have hsplit : (List.replicate (n + 1) a).splitBy (fun x y => p x && p y) =
      [List.replicate (n + 1) a] := by
    refine List.splitBy_eq_iff.2 ⟨by simp, by simp, ?_, by simp⟩
    intro run hrun
    rw [List.mem_singleton.1 hrun]
    exact List.isChain_replicate_of_rel _ (by simp [ha])
  rw [longestRuns, hsplit]
  simp [ha]

lemma arrays_grid (n : Nat) :
    Branch.arrays (List.replicate (n + 1) ⟨.array, false⟩ ++ [⟨.primitive .int, false⟩]) =
      [List.replicate (n + 1) ⟨.array, false⟩] := by
  rw [Branch.arrays, longestRuns_append (by simp [Kind.isArray]), longestRuns_replicate rfl]
  rfl

/-- Some text is read as a symbol with `p`. -/
def Met (p : Symbol → Prop) : Prop := ∃ t s, parse t = .ok s ∧ p s

/-- Parameters of a free function, of a member function and of a function that is pointed to. -/
lemma params_unlimited (n : Nat) :
    Met (fun s => s.isFunction = true ∧ s.functionClass = {} ∧ s.type.args.length = n) ∧
    Met (fun s => s.isFunction = true ∧ s.functionClass ≠ {} ∧ s.type.args.length = n) ∧
    Met fun s => s.type.kind = .pointer ∧
      ∃ f ∈ s.type.inner, f.kind = .function ∧ f.args.length = n := by
  have hparams := plainInt_spec n
  have hu : ∀ a ∈ List.replicate n plainInt, a.Unqualified := fun a ha => (hparams a ha).1
  have he : ∀ a ∈ List.replicate n plainInt, a.Expressible := fun a ha => (hparams a ha).2
  have hint : plainInt.Expressible := .primitive .int {} 0
  have hl : nestingArgs (List.replicate n plainInt) ≤ depthLimit :=
    (nestingArgs_replicate n).trans (by decide)
  refine ⟨?_, ?_, ?_⟩
  · refine ⟨_, _, Encoding.parse_freeFunction {} 0 (p := []) (c := .cdecl) (by simp) (by decide)
      (by decide) rfl hint hu he (by decide) hl, rfl, rfl, ?_⟩
    exact (length_numberArgs _ _).trans List.length_replicate
  · refine ⟨_, _, Encoding.parse_memberFunction {} 0 (p := []) (c := .cdecl)
      (f := { isPublic := true }) (by simp) (by decide) (by decide) (by decide) (by decide)
      (.inl hint) hu he (by decide) hl, rfl, ?_, ?_⟩
    · exact show ({ isPublic := true } : FunctionClass) ≠ {} by decide
    · exact (length_numberArgs _ _).trans List.length_replicate
  · have hpointer :=
      Expressible.functionPointer {} 0 0 (show plainInt.Unqualified from rfl) hint hu he
    refine ⟨_, _, Encoding.parse_variable {} (p := []) (by simp) (show _ = _ from rfl) hpointer ?_,
      rfl, _, rfl, rfl, ?_⟩
    · have hresult : plainInt.nesting = 1 := rfl
      have := nestingArgs_replicate n
      simp only [TypeTree.nesting, nestingInner, nestingArgs, hresult, depthLimit]
      omega
    · exact (length_numberArgs _ _).trans List.length_replicate

lemma arguments_unlimited (n : Nat) :
    Met fun s => s.type.kind.isTag = true ∧ s.type.args.length = n + 1 := by
  have hargs := plainInt_spec (n + 1)
  have htemplate : (mk { kind := .tag .classKey, path := [['v']] } none
      (List.replicate (n + 1) plainInt)).Expressible :=
    .template .classKey {} 0 (by decide) (by decide) (by simp) (fun a ha => (hargs a ha).1)
      fun a ha => (hargs a ha).2
  refine ⟨_, _, Encoding.parse_variable {} (p := []) (by simp) (show _ = _ from rfl) htemplate ?_,
    rfl, ?_⟩
  · have := nestingArgs_replicate (n + 1)
    simp only [TypeTree.nesting, nestingInner, depthLimit]
    omega
  · exact (length_numberArgs _ _).trans List.length_replicate

lemma dimensions_unlimited (n : Nat) :
    Met fun s => ∃ b ∈ s.type.branches, ∃ a ∈ Branch.arrays b, a.length = n + 1 := by
  obtain ⟨hu, he⟩ := expressible_grid (n + 1)
  have hl : (grid (n + 1)).nesting ≤ depthLimit := (nesting_grid_le (n + 1)).trans (by decide)
  refine ⟨_, _, Encoding.parse_variable {} (p := []) (by simp) hu he hl,
    List.replicate (n + 1) ⟨.array, false⟩ ++ [⟨.primitive .int, false⟩], ?_,
    List.replicate (n + 1) ⟨.array, false⟩, ?_, List.length_replicate⟩
  · rw [branches, branchesAs_numberFrom]
    change _ ∈ (grid (n + 1)).branches
    simp [branches_grid]
  · simp [arrays_grid]

/-- **The limit is one of nesting**: a type that is read leaves the depth as it was. No branch of a
symbol has more than 127 levels, which are pointers and references, steps from a tag to one of its
arguments, and arrays with all their dimensions. But there may be any number of parameters, of
template arguments and of dimensions of one array. -/
theorem limit_bounds_nesting :
    (∀ slot s t u, typeInto slot s = .ok t u → u.depth = s.depth) ∧
    (∀ t s, parse t = .ok s → ∀ b ∈ s.type.branches,
      b.indirections + b.argumentSteps + b.arrayRuns ≤ 127) ∧
    ∀ n,
      Met (fun s => s.isFunction = true ∧ s.functionClass = {} ∧ s.type.args.length = n) ∧
      Met (fun s => s.isFunction = true ∧ s.functionClass ≠ {} ∧ s.type.args.length = n) ∧
      Met (fun s => s.type.kind = .pointer ∧
        ∃ f ∈ s.type.inner, f.kind = .function ∧ f.args.length = n) ∧
      Met (fun s => s.type.kind.isTag = true ∧ s.type.args.length = n + 1) ∧
      Met fun s => ∃ b ∈ s.type.branches, ∃ a ∈ Branch.arrays b, a.length = n + 1 := by
  refine ⟨?_, ?_, fun n => ?_⟩
  · intro slot s t u h
    exact ((tracks_typeInto (Nat.le_refl s.depth) slot slot rfl).resurfaces rfl h).1
  · intro t s h b hb
    exact Nat.le_of_lt_succ (levels_lt_of_parse h hb)
  · obtain ⟨hfree, hmember, hpointed⟩ := params_unlimited n
    exact ⟨hfree, hmember, hpointed, arguments_unlimited n, dimensions_unlimited n⟩

/-- The limit is met: of the pointers to pointers, 127 are read and 128 are too many. -/
theorem limit_bounds_nesting_pointers :
    (∃ s, parse ("?x@@3".toList ++ (List.replicate 127 "PA".toList).flatten ++ ['H']) = .ok s ∧
      (∃ b ∈ s.type.branches, b.levels = 127) ∧
      ∀ b ∈ s.type.branches, b.indirections + b.argumentSteps + b.arrayRuns ≤ 127) ∧
    (parse ("?x@@3".toList ++ (List.replicate 128 "PA".toList).flatten ++ ['H'])).toOption.isNone =
      true := by
  obtain ⟨s, hs, hlevels⟩ := exists_of_test
    (t := "?x@@3".toList ++ (List.replicate 127 "PA".toList).flatten ++ ['H'])
    (p := fun s => s.type.branches.any fun b => b.levels == 127) (by decide +kernel)
  obtain ⟨b, hb, hlevel⟩ := List.any_eq_true.1 hlevels
  exact ⟨⟨s, hs, ⟨b, hb, by simpa using hlevel⟩, limit_bounds_nesting.2.1 _ s hs⟩,
    by decide +kernel⟩

end Undecorate
