import Mathlib.Data.List.Forall2
import Undecorate.Proofs.Encoding.Code
import Undecorate.Proofs.Reading.Lexical

/-!
The same text, read at two depths.

Only two things depend on where a type stands: the numbers of its nodes, and how many levels of
nesting are left for it. `Tracks k d x y E` compares `x` at depth `k` with `y` at a depth `d` that
is no smaller, from states that agree otherwise. Both come to a good end, with values related by
`E`, in states that again agree otherwise, and `x` is back at depth `k`; or both fail alike; or `y`
runs out of levels. The judgement is put together along `>>=` and along the loops, and holds of
every production that reads types.
-/

namespace Undecorate

/-! ### Trees up to their numbers -/

namespace TypeTree

mutual

/-- The tree without the numbers of its nodes. -/
def unnumbered : TypeTree → TypeTree
  | mk node inner args =>
    mk { node with serial := 0 } (unnumberedInner inner) (unnumberedArgs args)

def unnumberedInner : Option TypeTree → Option TypeTree
  | none => none
  | some t => some (unnumbered t)

def unnumberedArgs : List TypeTree → List TypeTree
  | [] => []
  | t :: ts => unnumbered t :: unnumberedArgs ts

end

/-- The trees differ in the numbers of their nodes at most, and have at most that many levels. -/
structure Tallies (levels : Nat) (t t' : TypeTree) : Prop where
  unnumbered : t.unnumbered = t'.unnumbered
  nesting : t.nesting ≤ levels

lemma tallies_leaf {node node' : Node} {levels : Nat}
    (h : { node with serial := 0 } = { node' with serial := 0 }) :
    Tallies (levels + 1) (leaf node) (leaf node') := by
  refine ⟨by simp [leaf, TypeTree.unnumbered, h, unnumberedInner, unnumberedArgs], ?_⟩
  simp only [leaf, TypeTree.nesting, nestingInner, nestingArgs]
  cases node.kind <;> simp

lemma Tallies.args {levels : Nat} {ts ts' : List TypeTree}
    (h : List.Forall₂ (Tallies levels) ts ts') :
    unnumberedArgs ts = unnumberedArgs ts' ∧ nestingArgs ts ≤ levels := by
  induction h with
  | nil => exact ⟨rfl, Nat.zero_le _⟩
  | cons ht _ ih =>
    refine ⟨?_, ?_⟩
    · rw [unnumberedArgs, unnumberedArgs, ht.unnumbered, ih.1]
    · rw [nestingArgs]
      exact Nat.max_le.2 ⟨ht.nesting, ih.2⟩

end TypeTree

namespace Reading

open TypeTree

variable {α β γ δ : Type}

/-! ### Two readings -/

/-- How two readings end, the second of them at a greater depth. -/
inductive Agree (k d : Nat) (E : α → β → Prop) :
    EStateM.Result Failure State α → EStateM.Result Failure State β → Prop
  | ok {a : α} {b : β} {u v : State} (n : Nat) (hE : E a b) (hu : u.depth = k)
      (hv : v = u.placed d n) : Agree k d E (.ok a u) (.ok b v)
  | error (f : Failure) (u v : State) : Agree k d E (.error f u) (.error f v)
  /-- No levels are left at the greater depth. -/
  | tooDeep (r : EStateM.Result Failure State α) (rest : Text) (v : State) :
      Agree k d E r (.error (.malformed (.nestedTooDeep rest)) v)

/-- Reading `x` at depth `k` and reading `y` at depth `d` end alike, or the second runs out of
levels. -/
def Tracks (k d : Nat) (x : ReadM α) (y : ReadM β) (E : α → β → Prop) : Prop :=
  ∀ s n, s.depth = k → Agree k d E (x s) (y (s.placed d n))

variable {k d : Nat} {E : α → β → Prop} {F : γ → δ → Prop}

lemma Tracks.of_deeper {x : ReadM α} {y : ReadM β} (h : Tracks k d x y E) {s v : State} {n : Nat}
    {b : β} (hs : s.depth = k) (hy : y (s.placed d n) = .ok b v) :
    ∃ a u m, x s = .ok a u ∧ E a b ∧ v = u.placed d m := by
  have hagree := h s n hs
  rw [hy] at hagree
  generalize x s = r at hagree
  cases hagree with
  | ok m hE hu hv => exact ⟨_, _, m, rfl, hE, hv⟩

lemma Tracks.of_shallower {x : ReadM α} {y : ReadM β} (h : Tracks k d x y E) {s u : State}
    {a : α} (n : Nat) (hs : s.depth = k) (hx : x s = .ok a u) :
    (∃ b m, y (s.placed d n) = .ok b (u.placed d m) ∧ E a b) ∨
      ∃ rest v, y (s.placed d n) = .error (.malformed (.nestedTooDeep rest)) v := by
  have hagree := h s n hs
  rw [hx] at hagree
  generalize y (s.placed d n) = r at hagree
  cases hagree with
  | ok m hE hu hv =>
    rw [hv]
    exact .inl ⟨_, m, rfl, hE⟩
  | tooDeep r rest v => exact .inr ⟨rest, v, rfl⟩

/-- A reading tracks itself, so it comes back to its depth. -/
lemma Tracks.resurfaces {x : ReadM α} {E : α → α → Prop} (h : Tracks k k x x E) {s u : State}
    {a : α} (hs : s.depth = k) (hx : x s = .ok a u) : u.depth = s.depth ∧ E a a := by
  subst hs
  have hagree := h s s.issued rfl
  rw [s.placed_self, hx] at hagree
  cases hagree with
  | ok n hE hu hv => exact ⟨hu, hE⟩

/-! ### Rules -/

lemma Tracks.pure {a : α} {b : β} (h : E a b) : Tracks k d (pure a) (pure b) E :=
  fun _ n hs => .ok n h hs rfl

lemma Tracks.bind {x : ReadM α} {y : ReadM β} {f : α → ReadM γ} {g : β → ReadM δ}
    (h : Tracks k d x y E) (hf : ∀ a b, E a b → Tracks k d (f a) (g b) F) :
    Tracks k d (x >>= f) (y >>= g) F := by
  intro s n hs
  have hagree := h s n hs
  cases hx : x s with
  | ok a u =>
    rw [hx] at hagree
    rw [bind_of_ok hx]
    cases hy : y (s.placed d n) with
    | ok b v =>
      rw [hy] at hagree
      rw [bind_of_ok hy]
      cases hagree with
      | ok m hE hu hv =>
        rw [hv]
        exact hf a b hE u m hu
    | error e v =>
      rw [hy] at hagree
      rw [bind_of_error hy]
      cases hagree with
      | tooDeep r rest v => exact .tooDeep _ rest _
  | error e u =>
    rw [hx] at hagree
    rw [bind_of_error hx]
    cases hy : y (s.placed d n) with
    | ok b v =>
      rw [hy] at hagree
      cases hagree
    | error e' v =>
      rw [hy] at hagree
      rw [bind_of_error hy]
      cases hagree with
      | error => exact .error e u v
      | tooDeep r rest v => exact .tooDeep _ rest _

lemma Lexical.tracks {x : ReadM α} (h : Lexical x) : Tracks k d x x Eq := by
  intro s n hs
  rw [h s d n]
  cases hx : x s with
  | ok a u => exact .ok n rfl ((h.counts hx).1.trans hs) rfl
  | error f u => exact .error f u _

/-- Behind a lexeme the two readings go on from the same value. -/
lemma Lexical.tracks_bind {x : ReadM α} {f : α → ReadM γ} {g : α → ReadM δ} (h : Lexical x)
    (hf : ∀ a, Tracks k d (f a) (g a) F) : Tracks k d (x >>= f) (x >>= g) F := by
  refine h.tracks.bind ?_
  rintro a _ rfl
  exact hf a

/-- New places differ in their numbers only. -/
lemma tracks_issue (kind : Kind) (q : Qualifiers) :
    Tracks k d (issue kind q) (issue kind q) fun a b => a.qualifiers = q ∧ b.qualifiers = q := by
  intro s n hs
  rw [issue_eq, issue_eq]
  exact .ok (n + 1) ⟨rfl, rfl⟩ hs rfl

section Loops

variable {step : ReadM α} {step' : ReadM β} (hstep : Tracks k d step step' E)

include hstep

lemma tracks_cons {x : ReadM (List α)} {y : ReadM (List β)}
    (h : Tracks k d x y (List.Forall₂ E)) :
    Tracks k d (do let a ← step; let as ← x; pure (a :: as))
      (do let b ← step'; let bs ← y; pure (b :: bs)) (List.Forall₂ E) := by
  refine hstep.bind fun a b hab => ?_
  exact h.bind fun as bs has => Tracks.pure (.cons hab has)

lemma tracks_repeatUntil {stop : ReadM Bool} (hstop : Lexical stop) :
    Tracks k d (repeatUntil stop step) (repeatUntil stop step') (List.Forall₂ E) := by
  have hwithin : ∀ fuel, Tracks k d (repeatWithin stop step fuel) (repeatWithin stop step' fuel)
      (List.Forall₂ E) := by
    intro fuel
    induction fuel with
    | zero => exact fun s n _ => .error _ _ _
    | succ fuel ih =>
      refine hstop.tracks_bind fun b => ?_
      cases b with
      | true => exact Tracks.pure .nil
      | false => exact tracks_cons hstep ih
  exact fun s => hwithin (s.rest.length + 1) s

lemma tracks_repeatTimes (n : Nat) :
    Tracks k d (repeatTimes step n) (repeatTimes step' n) (List.Forall₂ E) := by
  induction n with
  | zero => exact Tracks.pure .nil
  | succ n ih => exact tracks_cons hstep ih

end Loops

/-- Where there is room for one more level at the greater depth, there is room at the smaller. -/
lemma tracks_nested {x : ReadM α} {y : ReadM β} (hkd : k ≤ d) (h : Tracks (k + 1) (d + 1) x y E) :
    Tracks k d (nested x) (nested y) E := by
  rintro s n rfl
  rw [nested_eq, nested_eq]
  by_cases hd : depthLimit < d + 1
  · rw [if_pos (show depthLimit < (s.placed d n).depth + 1 from hd)]
    exact .tooDeep _ _ _
  · rw [if_neg (show ¬ depthLimit < (s.placed d n).depth + 1 from hd), if_neg (by omega)]
    have hagree : Agree (s.depth + 1) (d + 1) E (x { s with depth := s.depth + 1 })
        (y { s.placed d n with depth := (s.placed d n).depth + 1 }) :=
      h { s with depth := s.depth + 1 } n rfl
    generalize x { s with depth := s.depth + 1 } = r at *
    generalize y { s.placed d n with depth := (s.placed d n).depth + 1 } = r' at *
    cases hagree with
    | ok m hE hu hv =>
      rw [hv]
      refine .ok m hE ?_ rfl
      simp only [hu]
      omega
    | error f u v => exact .error f u v
    | tooDeep r rest v => exact .tooDeep _ rest v

/-! ### Types -/

/-- The readers of nested types track each other for places with the same qualifiers. -/
def TracksTypes (k d levels : Nat) (nt nt' : Slot → ReadM TypeTree) : Prop :=
  ∀ slot slot' : Slot, slot.qualifiers = slot'.qualifiers →
    Tracks k d (nt slot) (nt' slot') (Tallies levels)

/-- Without its number, a node is its kind and the qualifiers of its place. -/
lemma node_unnumbered {slot slot' : Slot} (h : slot.qualifiers = slot'.qualifiers) (kind : Kind) :
    { slot.node kind with serial := 0 } = { slot'.node kind with serial := 0 } := by
  simp [Slot.node, h]

section Productions

variable {levels : Nat} {nt nt' : Slot → ReadM TypeTree} (hnt : TracksTypes k d levels nt nt')
  {slot slot' : Slot} (hslot : slot.qualifiers = slot'.qualifiers)

section Parameters

include hnt

lemma tracks_param : Tracks k d (param nt) (param nt') (Tallies levels) :=
  (tracks_issue .unknown {}).bind fun slot slot' h => hnt slot slot' (h.1.trans h.2.symm)

lemma tracks_listedParam (unclosed : Malformed) :
    Tracks k d (listedParam nt unclosed) (listedParam nt' unclosed) (Tallies levels) := by
  refine lexical_exhausted.tracks_bind fun b => ?_
  cases b with
  | true => exact fun s n _ => .error _ _ _
  | false => exact tracks_param hnt

end Parameters

include hslot

lemma tracks_named (key : TagKey) :
    Tracks k d (path >>= fun p => pure (TypeTree.leaf { slot.node (.tag key) with path := p }))
      (path >>= fun p => pure (TypeTree.leaf { slot'.node (.tag key) with path := p }))
      (Tallies (levels + 1)) :=
  lexical_path.tracks_bind fun p => Tracks.pure (tallies_leaf (by simp [Slot.node, hslot]))

include hnt

lemma tracks_aggregate (key : TagKey) :
    Tracks k d (aggregate nt key slot) (aggregate nt' key slot') (Tallies (levels + 1)) := by
  refine (lexical_accept _).tracks_bind fun marked => ?_
  cases marked with
  | false => exact tracks_named hslot key
  | true =>
    refine (lexical_closedName .base).tracks_bind fun base => ?_
    have hargs := tracks_repeatUntil (tracks_listedParam hnt (.unterminatedArgs base))
      (lexical_accept ['@'])
    refine hargs.bind fun args args' h => Tracks.pure ?_
    obtain ⟨hsame, hnesting⟩ := Tallies.args h
    refine ⟨?_, ?_⟩
    · simp only [TypeTree.unnumbered, hsame, Slot.node, hslot]
    · simp only [TypeTree.nesting, Slot.node, nestingInner]
      omega

lemma tracks_functionPointer :
    Tracks k d (functionPointer nt slot) (functionPointer nt' slot') (Tallies (levels + 1)) := by
  refine (tracks_issue .function {}).bind fun function function' hfunction => ?_
  refine (tracks_param hnt).bind fun result result' hresult => ?_
  have hparams := tracks_repeatUntil (tracks_listedParam hnt .unterminatedParams)
    lexical_closeParams
  refine hparams.bind fun params params' h => Tracks.pure ?_
  obtain ⟨hsame, hnesting⟩ := Tallies.args h
  refine ⟨?_, ?_⟩
  · simp only [TypeTree.unnumbered, unnumberedInner, unnumberedArgs, Slot.node, hslot, hfunction,
      hresult.unnumbered, hsame]
  · have := hresult.nesting
    simp only [TypeTree.nesting, nestingInner, nestingArgs, Slot.node]
    omega

lemma tracks_indirection {kind : Kind} (hk : kind.isIndirection = true) :
    Tracks k d (indirection nt kind slot) (indirection nt' kind slot') (Tallies (levels + 1)) := by
  refine (lexical_accept _).tracks_bind fun _ => ?_
  refine lexical_storage.tracks_bind fun q => ?_
  refine (tracks_issue .unknown q).bind fun target target' htarget => ?_
  refine (hnt target target' (htarget.1.trans htarget.2.symm)).bind fun t t' ht => Tracks.pure ?_
  refine ⟨?_, ?_⟩
  · simp only [TypeTree.unnumbered, unnumberedInner, unnumberedArgs, ht.unnumbered,
      node_unnumbered hslot]
  · have := ht.nesting
    rcases eq_of_isIndirection hk with rfl | rfl <;>
      simp only [TypeTree.nesting, nestingInner, nestingArgs, Slot.node] <;> omega

omit hnt hslot in
lemma tracks_extent :
    Tracks k d extent extent fun row row' =>
      row.1 = row'.1 ∧ row.2.qualifiers = row'.2.qualifiers := by
  refine (lexical_numeralAs _).tracks_bind fun n => ?_
  exact (tracks_issue .unknown {}).bind fun slot slot' h =>
    Tracks.pure ⟨rfl, h.1.trans h.2.symm⟩

omit hnt in
lemma qualifiers_elementSlot {rows rows' : List (Int × Slot)}
    (h : List.Forall₂ (fun row row' => row.1 = row'.1 ∧ row.2.qualifiers = row'.2.qualifiers)
      rows rows') :
    (elementSlot slot rows).qualifiers = (elementSlot slot' rows').qualifiers := by
  induction h generalizing slot slot' with
  | nil => exact hslot
  | cons hrow _ ih => exact ih hrow.2

omit hnt in
lemma unnumbered_arrayOf {rows rows' : List (Int × Slot)} {element element' : TypeTree}
    (h : List.Forall₂ (fun row row' => row.1 = row'.1 ∧ row.2.qualifiers = row'.2.qualifiers)
      rows rows') (he : element.unnumbered = element'.unnumbered) :
    (arrayOf element slot rows).unnumbered = (arrayOf element' slot' rows').unnumbered := by
  induction h generalizing slot slot' with
  | nil => exact he
  | cons hrow _ ih =>
    simp only [arrayOf, TypeTree.unnumbered, unnumberedInner, unnumberedArgs, ih hrow.2, Slot.node,
      hslot, hrow.1]

omit hnt hslot in
/-- However many dimensions an array has, it is one level above its elements. -/
lemma nesting_arrayOf_le (element : TypeTree) (slot : Slot) (rows : List (Int × Slot)) :
    (arrayOf element slot rows).nesting ≤ element.nesting + 1 := by
  induction rows generalizing slot with
  | nil => exact Nat.le_succ _
  | cons row rows ih =>
    have hinner := ih row.2
    rw [arrayOf]
    simp only [TypeTree.nesting, Slot.node, nestingInner, Option.any_some]
    split_ifs with hk
    · exact hinner
    · -- the elements come next: any further dimension would be an array
      cases rows with
      | nil => exact Nat.le_refl _
      | cons next rows => exact absurd rfl hk

lemma tracks_array : Tracks k d (array nt slot) (array nt' slot') (Tallies (levels + 1)) := by
  refine lexical_dimension.tracks_bind fun n => ?_
  refine (tracks_repeatTimes tracks_extent n).bind fun rows rows' hrows => ?_
  refine lexical_arrayStorage.tracks_bind fun q => ?_
  refine (hnt _ _ (qualifiers_elementSlot hslot hrows)).bind
    fun element element' he => Tracks.pure ?_
  refine ⟨unnumbered_arrayOf ?_ hrows he.unnumbered, ?_⟩
  · simp only [hslot]
  · have := nesting_arrayOf_le element { slot with qualifiers := q.getD slot.qualifiers } rows
    have := he.nesting
    omega

lemma tracks_typeCode :
    Tracks k d (typeCode nt slot) (typeCode nt' slot') (Tallies (levels + 1)) := by
  refine (lexical_code _).tracks_bind fun o => ?_
  match o with
  | none =>
    exact lexical_primitive.tracks_bind fun p =>
      Tracks.pure (tallies_leaf (node_unnumbered hslot _))
  | some (.aggregate key) => exact tracks_aggregate hnt hslot key
  | some .enumeration => exact tracks_named hslot .enumKey
  | some .functionPointer => exact tracks_functionPointer hnt hslot
  | some .reference => exact tracks_indirection hnt hslot rfl
  | some .pointer => exact tracks_indirection hnt hslot rfl
  | some .constPointer => exact tracks_indirection hnt (by simp only [hslot]) rfl
  | some .array => exact tracks_array hnt hslot

end Productions

/-- The induction is on the levels that are left at the greater depth: where there are none, that
reading fails for lack of them. -/
lemma tracks_typeWithin {levels levels' : Nat} (hl : levels' ≤ levels) (hkd : k ≤ d) :
    TracksTypes k d levels' (typeWithin levels) (typeWithin levels') := by
  induction levels' generalizing levels k d with
  | zero =>
    intro slot slot' _ s n _
    have htooDeep : ∃ rest v, typeWithin 0 slot' (s.placed d n) =
        .error (.malformed (.nestedTooDeep rest)) v := by
      rw [typeWithin, nested_eq]
      split
      · exact ⟨_, _, rfl⟩
      · exact ⟨_, _, rfl⟩
    obtain ⟨rest, v, hv⟩ := htooDeep
    rw [hv]
    exact .tooDeep _ rest v
  | succ levels' ih =>
    obtain ⟨levels, rfl⟩ : ∃ l, levels = l + 1 := ⟨levels - 1, by omega⟩
    intro slot slot' hslot
    exact tracks_nested hkd (tracks_typeCode (ih (by omega) (by omega)) hslot)

/-- Deeper down, fewer levels are left. -/
lemma tracks_typeInto (hkd : k ≤ d) : TracksTypes k d (depthLimit - d) typeInto typeInto := by
  intro slot slot' hslot s n hs
  subst hs
  exact tracks_typeWithin (Nat.sub_le_sub_left hkd _) hkd slot slot' hslot s n rfl

/-! ### Symbols -/

lemma tracks_params (mark : Text) (hkd : k ≤ d) :
    Tracks k d
      (repeatUntil (do if ← exhausted then pure true else upcoming mark) (param typeInto))
      (repeatUntil (do if ← exhausted then pure true else upcoming mark) (param typeInto))
      (List.Forall₂ (Tallies (depthLimit - d))) :=
  tracks_repeatUntil (tracks_param (tracks_typeInto hkd)) (lexical_paramsEnd mark)

/-- A function is on the level of its parts. -/
lemma tallies_function {levels : Nat} {node node' : Node}
    {result result' : TypeTree} {params params' : List TypeTree}
    (hnode : { node with serial := 0 } = { node' with serial := 0 }) (hk : node.kind = .function)
    (hr : Tallies levels result result') (hp : List.Forall₂ (Tallies levels) params params') :
    Tallies levels (.mk node (some result) params) (.mk node' (some result') params') := by
  obtain ⟨hsame, hnesting⟩ := Tallies.args hp
  refine ⟨?_, ?_⟩
  · simp only [TypeTree.unnumbered, unnumberedInner, hnode, hr.unnumbered, hsame]
  · have := hr.nesting
    simp only [TypeTree.nesting, hk, nestingInner]
    omega

lemma tracks_freeFunction (hkd : k ≤ d) :
    Tracks k d freeFunction freeFunction (Tallies (depthLimit - d)) := by
  refine (tracks_issue .function {}).bind fun slot slot' hslot => ?_
  refine lexical_convention.tracks_bind fun c => ?_
  refine lexical_returnStorage.tracks_bind fun q => ?_
  refine (tracks_issue .unknown q).bind fun resultSlot resultSlot' hresultSlot => ?_
  refine (tracks_typeInto hkd _ _ (hresultSlot.1.trans hresultSlot.2.symm)).bind
    fun result result' hresult => ?_
  refine (tracks_params ['@'] hkd).bind fun params params' hparams => Tracks.pure ?_
  exact tallies_function (by simp [Slot.node, hslot]) rfl hresult hparams

lemma tracks_memberResult (q : Qualifiers) (hkd : k ≤ d) (hd : d < depthLimit) :
    Tracks k d (memberResult q) (memberResult q) (Tallies (depthLimit - d)) := by
  obtain ⟨levels, hlevels⟩ : ∃ l, depthLimit - d = l + 1 := ⟨depthLimit - d - 1, by omega⟩
  refine (lexical_accept _).tracks_bind fun missing => ?_
  cases missing with
  | true =>
    refine (tracks_issue .noReturn q).bind fun slot slot' hslot => Tracks.pure ?_
    rw [hlevels]
    exact tallies_leaf (node_unnumbered (hslot.1.trans hslot.2.symm) _)
  | false =>
    refine (tracks_issue .unknown q).bind fun slot slot' hslot => ?_
    refine (tracks_typeInto hkd _ _ (hslot.1.trans hslot.2.symm)).bind fun t t' ht => ?_
    exact (lexical_accept _).tracks_bind fun _ => Tracks.pure ht

lemma tracks_memberFunction (hkd : k ≤ d) (hd : d < depthLimit) :
    Tracks k d memberFunction memberFunction (Tallies (depthLimit - d)) := by
  refine (tracks_issue .function {}).bind fun slot slot' hslot => ?_
  refine lexical_functionClass.tracks_bind fun cls => ?_
  refine (lexical_accept _).tracks_bind fun _ => ?_
  refine lexical_convention.tracks_bind fun c => ?_
  refine lexical_storage.tracks_bind fun q => ?_
  refine (tracks_memberResult q hkd hd).bind fun result result' hresult => ?_
  refine (tracks_params ['Z'] hkd).bind fun params params' hparams => Tracks.pure ?_
  exact tallies_function (by simp [Slot.node, hslot]) rfl hresult hparams

/-- The symbols have the same name, and types that differ in their numbers at most. -/
structure Resembles (levels : Nat) (s s' : Symbol) : Prop where
  path : s.path = s'.path
  type : Tallies levels s.type s'.type

lemma tracks_body (hkd : k ≤ d) (hd : d < depthLimit) (h : Heading) :
    Tracks k d (body h) (body h) (Resembles (depthLimit - d)) := by
  obtain ⟨levels, hlevels⟩ : ∃ l, depthLimit - d = l + 1 := ⟨depthLimit - d - 1, by omega⟩
  match h with
  | .identifier name =>
    refine (tracks_issue .unknown {}).bind fun slot slot' hslot => Tracks.pure ⟨rfl, ?_⟩
    rw [hlevels]
    exact tallies_leaf (node_unnumbered (hslot.1.trans hslot.2.symm) _)
  | .decorated .variable p =>
    exact (tracks_param (tracks_typeInto hkd)).bind fun t t' ht => Tracks.pure ⟨rfl, ht⟩
  | .decorated .freeFunction p =>
    exact (tracks_freeFunction hkd).bind fun t t' ht => Tracks.pure ⟨rfl, ht⟩
  | .decorated .memberFunction p =>
    exact (tracks_memberFunction hkd hd).bind fun t t' ht => Tracks.pure ⟨rfl, ht⟩

/-- **Depth only limits**: deeper down the same symbol is read, or there are not enough levels. -/
lemma tracks_symbol (hkd : k ≤ d) (hd : d < depthLimit) :
    Tracks k d symbol symbol (Resembles (depthLimit - d)) :=
  lexical_heading.tracks_bind (tracks_body hkd hd)

end Reading

end Undecorate
