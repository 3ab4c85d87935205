import Undecorate.Declaration.CallDepth
import Undecorate.Proofs.Failure
import Undecorate.Proofs.Nesting

/-!
Which declarations are too deep.

A level of nesting takes three calls at most, for a pointer, for the function that it points to and
for the list of its parameters. So the limit of reading would keep the writer within its own limit
if it were not for arrays, each dimension of which takes a call and no level. Whatever room there is
for calls, an array is read that needs more.
-/

namespace Undecorate

open Reading TypeTree

/-- The text is read as a symbol whose declaration takes more nested calls than there may be. -/
def TooDeep (t : Text) : Prop := ∃ s, parse t = .ok s ∧ callLimit < s.callDepth

lemma displayWithin_of_le {room : Nat} {s : Symbol} (h : s.callDepth ≤ room) :
    s.displayWithin room = s.render := if_neg (Nat.not_lt.2 h)

lemma displayWithin_of_lt {room : Nat} {s : Symbol} (h : room < s.callDepth) :
    s.displayWithin room = .error .tooDeep := if_pos h

/-- What is given out is the declaration. -/
lemma render_of_display {s : Symbol} {d : Text} (h : s.display = .ok d) : s.render = .ok d := by
  by_cases hroom : callLimit < s.callDepth
  · rw [Symbol.display, displayWithin_of_lt hroom] at h
    cases h
  · rwa [Symbol.display, displayWithin_of_le (Nat.not_lt.1 hroom)] at h

/-- What is given out for a symbol that was read. -/
lemma display_cases {t : Text} {s : Symbol} (h : parse t = .ok s) :
    (∃ d, s.display = .ok d ∧ ¬ TooDeep t) ∨ (s.display = .error .numberTooLong ∧ ¬ TooDeep t) ∨
    s.display = .error .tooDeep ∧ TooDeep t := by
  by_cases hroom : callLimit < s.callDepth
  · exact .inr (.inr ⟨displayWithin_of_lt hroom, s, h, hroom⟩)
  · have hdisplay : s.display = s.render := displayWithin_of_le (Nat.not_lt.1 hroom)
    have hno : ¬ TooDeep t := by
      rintro ⟨s', h', hlt⟩
      cases h.symm.trans h'
      exact hroom hlt
    cases hr : s.render with
    | ok d => exact .inl ⟨d, hdisplay.trans hr, hno⟩
    | error f =>
      obtain ⟨rfl, -⟩ := oversized_of_error h (.inl hr)
      exact .inr (.inl ⟨hdisplay.trans hr, hno⟩)

lemma not_tooDeep_of_unread {t : Text} {f : Failure} (h : parse t = .error f) : ¬ TooDeep t := by
  rintro ⟨s, hs, -⟩
  rw [h] at hs
  cases hs

/-- An identifier takes one call. -/
lemma callDepth_identifier (t : Text) :
    ({ path := [t], type := .leaf {} } : Symbol).callDepth = 1 := rfl

/-! ### Calls for a level -/

lemma Script.deeper_le {a : Script} {d e n : Nat} (hd : d ≤ n) (he : e ≤ n) : a.deeper d e ≤ n := by
  unfold Script.deeper
  split
  · exact Nat.max_le.2 ⟨hd, he⟩
  · exact hd

lemma Script.le_deeper (a : Script) (d e : Nat) : d ≤ a.deeper d e := by
  unfold Script.deeper
  split
  · exact Nat.le_max_left d e
  · exact Nat.le_refl d

namespace TypeTree

/-- How many of the trees are arrays. -/
def arraysIn (ts : List TypeTree) : Nat := ts.countP fun t => t.kind.isArray

/-- How many arrays there are in the tree. -/
def arrayCount (t : TypeTree) : Nat := arraysIn t.walk

/-- How many calls a type with that many levels and arrays may take. -/
def callBound (levels arrays : Nat) : Nat := 3 * levels + arrays

/-- No side of the type takes more calls than its levels and its arrays account for. -/
structure Affordable (t : TypeTree) : Prop where
  left : leftDepth t ≤ callBound t.nesting t.arrayCount
  right : rightDepth t ≤ callBound t.nesting t.arrayCount

lemma arrayCount_none (node : Node) (args : List TypeTree) :
    (mk node none args).arrayCount =
      arraysIn (walkArgs args) + if node.kind.isArray then 1 else 0 := by
  rw [arrayCount, walk, arraysIn, List.countP_cons]
  rfl

lemma arrayCount_some (node : Node) (t : TypeTree) (args : List TypeTree) :
    (mk node (some t) args).arrayCount =
      t.arrayCount + arraysIn (walkArgs args) + if node.kind.isArray then 1 else 0 := by
  rw [arrayCount, walk, arraysIn, List.countP_cons, List.countP_append]
  rfl

lemma arrayCount_le_of_mem {a : TypeTree} {args : List TypeTree} (h : a ∈ args) :
    a.arrayCount ≤ arraysIn (walkArgs args) := by
  rw [walkArgs_eq_flatMap]
  exact (List.sublist_flatten_of_mem (List.mem_map_of_mem h)).countP_le

/-- A list of parameters takes a call more than the deepest of them. -/
lemma paramsDepth_le {ts : List TypeTree} (h : ∀ t ∈ ts, t.Affordable) :
    paramsDepth ts ≤
      callBound (nestingArgs ts) (arraysIn (walkArgs ts)) + 1 := by
  have hlist : ∀ n, (∀ t ∈ ts, callBound t.nesting t.arrayCount ≤ n) → paramsDepth ts ≤ n + 1 := by
    intro n hn
    induction ts with
    | nil => exact Nat.le_add_left 1 n
    | cons t ts ih =>
      have ht := hn t (by simp)
      have hrest := ih (fun u hu => h u (by simp [hu])) fun u hu => hn u (by simp [hu])
      have hboth := h t (by simp)
      exact Script.deeper_le (Nat.succ_le_succ (hboth.left.trans ht))
        (Script.deeper_le (Nat.succ_le_succ (hboth.right.trans ht)) hrest)
  refine hlist _ fun t ht => ?_
  have := Encoding.nesting_le_nestingArgs ht
  have := arrayCount_le_of_mem ht
  unfold callBound
  omega

lemma affordable_leaf {node : Node} (h : node.kind.hasInner = false) :
    (leaf node).Affordable := by
  have hone : ∀ n m, 1 ≤ callBound (n + 1) m := fun n m => by unfold callBound; omega
  constructor <;> cases hk : node.kind <;>
    simp_all [leaf, leftDepth, rightDepth, nesting, Kind.hasInner, Kind.isFunction,
      Kind.isIndirection, Kind.isPointer, Kind.isReference, Kind.isArray]

lemma affordable_template {node : Node} {key : TagKey} {args : List TypeTree}
    (hk : node.kind = .tag key) (ha : ∀ a ∈ args, a.Affordable) :
    (mk node none args).Affordable := by
  have hparams := paramsDepth_le ha
  have hcount : (mk node none args).arrayCount = arraysIn (walkArgs args) := by
    rw [arrayCount_none, hk]
    rfl
  unfold callBound at hparams
  constructor
  · simp only [leftDepth, nesting, hk, hcount, nestingInner, callBound]
    split_ifs <;> omega
  · simp only [rightDepth, nesting, hk, hcount, nestingInner, callBound]
    omega

lemma affordable_indirection {node : Node} {target : TypeTree}
    (hk : node.kind.isIndirection = true) (ht : target.Affordable) :
    (mk node (some target) []).Affordable := by
  obtain ⟨hleft, hright⟩ := ht
  unfold callBound at hleft hright
  have hcount : (mk node (some target) []).arrayCount = target.arrayCount := by
    rcases eq_of_isIndirection hk with hk | hk <;> rw [arrayCount_some, hk] <;> rfl
  rcases eq_of_isIndirection hk with hk | hk <;> constructor <;>
    simp only [leftDepth, leftDepthInner, rightDepth, rightDepthInner, nesting, hk, hcount,
      nestingInner, nestingArgs, callBound] <;> omega

/-- What a function takes, with its result on the left and its parameters on the right. -/
lemma sides_of_function {node : Node} {result : TypeTree} {params : List TypeTree}
    (hk : node.kind = .function) (hr : result.Affordable) (hp : ∀ p ∈ params, p.Affordable) :
    leftDepth (mk node (some result) params) ≤ callBound (mk node (some result) params).nesting
        (mk node (some result) params).arrayCount + 1 ∧
      rightDepth (mk node (some result) params) ≤ callBound (mk node (some result) params).nesting
        (mk node (some result) params).arrayCount + 2 := by
  have hleft := hr.left
  have hparams := paramsDepth_le hp
  have hcount : (mk node (some result) params).arrayCount =
      result.arrayCount + arraysIn (walkArgs params) := by
    rw [arrayCount_some, hk]
    rfl
  unfold callBound at hleft hparams
  simp only [leftDepth, leftDepthInner, rightDepth, nesting, hk, hcount, nestingInner, callBound]
  omega

lemma affordable_functionPointer {node function : Node} {result : TypeTree}
    {params : List TypeTree} (hk : node.kind = .pointer) (hf : function.kind = .function)
    (hr : result.Affordable) (hp : ∀ p ∈ params, p.Affordable) :
    (mk node (some (mk function (some result) params)) []).Affordable := by
  obtain ⟨hleft, hright⟩ := sides_of_function hf hr hp
  have hcount : (mk node (some (mk function (some result) params)) []).arrayCount =
      (mk function (some result) params).arrayCount := by
    rw [arrayCount_some, hk]
    rfl
  generalize mk function (some result) params = f at *
  unfold callBound at hleft hright
  constructor <;>
    simp only [leftDepth, leftDepthInner, rightDepth, rightDepthInner, nesting, hk, hcount,
      nestingInner, nestingArgs, callBound] <;> omega

/-- An array takes a call, and is a level only where no array is its element. -/
lemma affordable_array {node : Node} {inner : TypeTree} (hk : node.kind = .array)
    (hi : inner.Affordable) : (mk node (some inner) []).Affordable := by
  obtain ⟨hleft, hright⟩ := hi
  have hcount : (mk node (some inner) []).arrayCount = inner.arrayCount + 1 := by
    rw [arrayCount_some, hk]
    rfl
  have hlevels : inner.nesting ≤ (mk node (some inner) []).nesting := by
    simp only [nesting, hk, nestingInner]
    split_ifs <;> omega
  have hbounds := Script.deeper_le (a := bounds node.extent) (Nat.zero_le _) hright
  unfold callBound at hleft hbounds
  constructor <;>
    simp only [leftDepth, leftDepthInner, rightDepth, rightDepthInner, hk, hcount, callBound] <;>
    omega

/-- One case for every form of a type. -/
lemma affordable_of_formed {t : TypeTree} (h : t.Formed) : t.Affordable := by
  induction h with
  | primitive p i hq => exact affordable_leaf rfl
  | named key i hq hp => exact affordable_leaf rfl
  | template i hk hq hb ha ih => exact affordable_template rfl ih
  | indirection i hk hq ht ih => exact affordable_indirection hk ih
  | functionPointer i j hq hr hp ihr ihp => exact affordable_functionPointer rfl rfl ihr ihp
  | array i n hq hi ih => exact affordable_array rfl ih

end TypeTree

lemma callDepth_le_of_function {p : Path} {node : Node} {result : TypeTree}
    {params : List TypeTree} (hk : node.kind = .function) (hr : result.Affordable)
    (hp : ∀ p ∈ params, p.Affordable) :
    ({ path := p, type := .mk node (some result) params } : Symbol).callDepth ≤
      callBound (mk node (some result) params).nesting
        (mk node (some result) params).arrayCount + 2 := by
  obtain ⟨hleft, hright⟩ := sides_of_function hk hr hp
  exact Script.deeper_le (hleft.trans (Nat.le_succ _)) hright

lemma callDepth_le_of_formed {s : Symbol} (h : s.Formed) :
    s.callDepth ≤ callBound s.type.nesting s.type.arrayCount + 2 := by
  have hparams : ∀ {ps : List TypeTree}, (∀ p ∈ ps, p.Formed) → ∀ p ∈ ps, p.Affordable :=
    fun h p hp => affordable_of_formed (h p hp)
  cases h with
  | ofVariable hp ht =>
    obtain ⟨hleft, hright⟩ := affordable_of_formed ht
    exact Script.deeper_le (hleft.trans (Nat.le_add_right _ 2))
      (hright.trans (Nat.le_add_right _ 2))
  | freeFunction i hp hc hr ha =>
    exact callDepth_le_of_function rfl (affordable_of_formed hr) (hparams ha)
  | memberFunction i hp hf hc hr ha =>
    refine callDepth_le_of_function rfl ?_ (hparams ha)
    rcases hr with hr | ⟨q, j, -, rfl⟩
    · exact affordable_of_formed hr
    · exact affordable_leaf rfl

/-- **Only dimensions make a declaration too deep**: the calls for a symbol that was read are three
for each of its 128 levels at most, two for a function, and one for each array. -/
theorem callDepth_le_of_parse {t : Text} {s : Symbol} (h : parse t = .ok s) :
    s.callDepth ≤ 3 * depthLimit + s.type.arrayCount + 2 := by
  by_cases ht : t.head? = some '?'
  · have hcalls := callDepth_le_of_formed (formed_of_parse ht h)
    have hlevels := nesting_le_of_parse h
    unfold callBound at hcalls
    omega
  · rw [parse_of_identifier ht] at h
    cases h
    rw [callDepth_identifier]
    omega

/-! ### Arrays that are too deep -/

lemma leftDepth_grid (n i : Nat) : leftDepth ((grid n).numberFrom i) = n + 1 := by
  induction n generalizing i with
  | zero => rfl
  | succ n ih => exact congrArg (· + 1) (ih (i + 1))

/-- The name of a variable that is an array of `int` with that many dimensions, each of extent
one. -/
def gridName (n : Nat) : Text :=
  "?x@@3Y".toList ++ (Encoding.number n ++ (List.replicate n '0' ++ ['H']))

lemma type_grid (n : Nat) :
    Encoding.type (grid (n + 1)) =
      'Y' :: (Encoding.number (n + 1 : Nat) ++ (List.replicate (n + 1) '0' ++ ['H'])) := by
  have hchain : ∀ n, Encoding.chain (grid n) = (List.replicate n 1, ['H']) := by
    intro n
    induction n with
    | zero => rfl
    | succ n ih =>
      change ((1 : Int) :: (Encoding.chain (grid n)).1, (Encoding.chain (grid n)).2) = _
      rw [ih]
      rfl
  have hone : Encoding.number 1 = ['0'] := rfl
  rw [Encoding.type, hchain, List.replicate_succ, Encoding.arrays, List.flatMap_cons, hone]
  simp [List.flatMap_replicate, hone, List.replicate_succ]

lemma parse_gridName (n : Nat) :
    parse (gridName (n + 1)) =
      .ok { path := ["x".toList], type := (grid (n + 1)).numberFrom 0 } := by
  obtain ⟨hu, he⟩ := expressible_grid (n + 1)
  have hl : (grid (n + 1)).nesting ≤ depthLimit := (nesting_grid_le (n + 1)).trans (by decide)
  have hpart : ∀ part ∈ ["x".toList], Encoding.IsPart part := by
    simp [Encoding.IsPart]
  have htext : gridName (n + 1) =
      '?' :: (Encoding.path ["x".toList] ++ '3' :: (Encoding.type (grid (n + 1)) ++ [])) := by
    rw [type_grid, List.append_nil]
    rfl
  rw [htext]
  exact Encoding.parse_variable {} hpart hu he hl

/-- However much room there is for calls, a text is read whose declaration needs more. -/
theorem exists_displayWithin_tooDeep (room : Nat) :
    ∃ t s, parse t = .ok s ∧ s.displayWithin room = .error .tooDeep := by
  refine ⟨_, _, parse_gridName room, displayWithin_of_lt ?_⟩
  refine lt_of_lt_of_le ?_ (Script.le_deeper _ _ _)
  rw [leftDepth_grid]
  omega

end Undecorate
