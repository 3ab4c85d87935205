import Undecorate.Proofs.Reading.Formed
import Undecorate.Proofs.Reading.Tracking

/-!
How many levels a text needs.

A type code takes a level more than the code that it stands in, and a tree is not higher than the
codes are nested that it was read from. The codes may be nested deeper than the tree is, because an
array of arrays is read from two codes and is one array of more dimensions in the tree. Where every
dimension is counted as a level, the tree is at least as high as its codes are nested. `Fits` says
this of a reading: what is read at depth `k` and is low enough is read as well at the greater depth
`d`.
-/

namespace Undecorate

namespace TypeTree

mutual

/-- How many levels the tree has, if every dimension of an array is one. -/
def height : TypeTree → Nat
  | mk node inner args =>
    match node.kind with
    | .function => max (heightInner inner) (heightArgs args)
    | .array => heightInner inner + 1
    | _ => max (heightInner inner) (heightArgs args) + 1

def heightInner : Option TypeTree → Nat
  | none => 0
  | some t => height t

def heightArgs : List TypeTree → Nat
  | [] => 0
  | t :: ts => max (height t) (heightArgs ts)

end

lemma height_le_heightArgs {t : TypeTree} {ts : List TypeTree} (ht : t ∈ ts) :
    t.height ≤ heightArgs ts := by
  induction ts with
  | nil => cases ht
  | cons u us ih =>
    rw [heightArgs]
    rcases List.mem_cons.1 ht with rfl | ht
    · exact Nat.le_max_left _ _
    · exact (ih ht).trans (Nat.le_max_right _ _)

/-- Only a function is no level of its own. -/
lemma height_pos {t : TypeTree} (h : t.kind ≠ .function) : 0 < t.height := by
  obtain ⟨node, inner, args⟩ := t
  change node.kind ≠ .function at h
  rw [height]
  split
  · next hk => exact absurd hk h
  · exact Nat.succ_pos _
  · exact Nat.succ_pos _

end TypeTree

namespace Reading

open TypeTree

variable {α β γ δ : Type} {k d : Nat}

/-! ### Room at a greater depth -/

/-- What `x` reads at depth `k`, with a value of which `P` holds, is read by `y` at depth `d`. -/
def Fits (k d : Nat) (x : ReadM α) (y : ReadM β) (P : α → Prop) : Prop :=
  ∀ s n a u, s.depth = k → x s = .ok a u → P a →
    u.depth = k ∧ ∃ b m, y (s.placed d n) = .ok b (u.placed d m)

variable {P : α → Prop} {Q : γ → Prop}

lemma fits_pure (a : α) (b : β) : Fits k d (pure a) (pure b) P := by
  intro s n a' u hs h _
  cases h
  exact ⟨hs, b, n, rfl⟩

/-- There is room for a first value if there is room for what is made of it. -/
lemma Fits.bind {x : ReadM α} {y : ReadM β} {f : α → ReadM γ} {g : β → ReadM δ}
    (hx : Fits k d x y P) (hf : ∀ s a u, x s = .ok a u → ∀ b, Fits k d (f a) (g b) Q)
    (hP : ∀ a u c v, f a u = .ok c v → Q c → P a) : Fits k d (x >>= f) (y >>= g) Q := by
  intro s n c v hs h hc
  obtain ⟨a, u, ha, hnext⟩ := bind_eq_ok_iff.1 h
  obtain ⟨hu, b, m, hb⟩ := hx s n a u hs ha (hP a u c v hnext hc)
  obtain ⟨hv, e, m', he⟩ := hf s a u ha b u m c v hu hnext hc
  exact ⟨hv, e, m', (bind_of_ok hb).trans he⟩

/-- A last step that only puts the value together. -/
lemma Fits.map {x : ReadM α} {y : ReadM β} {f : α → γ} {g : β → δ} (hx : Fits k d x y P)
    (hP : ∀ a, Q (f a) → P a) :
    Fits k d (x >>= fun a => pure (f a)) (y >>= fun b => pure (g b)) Q := by
  refine hx.bind (fun _ _ _ _ _ => fits_pure _ _) fun a u c v h hc => ?_
  cases h
  exact hP a hc

/-- Behind a lexeme the two readings go on from the same value. -/
lemma Lexical.fits_bind {x : ReadM α} {f : α → ReadM γ} {g : α → ReadM δ} (h : Lexical x)
    (hf : ∀ s a u, x s = .ok a u → Fits k d (f a) (g a) Q) : Fits k d (x >>= f) (x >>= g) Q := by
  intro s n c v hs hc hQ
  obtain ⟨a, u, ha, hnext⟩ := bind_eq_ok_iff.1 hc
  obtain ⟨hv, e, m, he⟩ := hf s a u ha u n c v ((h.counts ha).1.trans hs) hnext hQ
  have hplaced : x (s.placed d n) = .ok a (u.placed d n) := by
    rw [h s d n, ha]
    rfl
  exact ⟨hv, e, m, (bind_of_ok hplaced).trans he⟩

/-- A place takes no room. -/
lemma fits_issue (kind : Kind) (q : Qualifiers) {f : Slot → ReadM γ} {g : Slot → ReadM δ}
    (hf : ∀ a b, Fits k d (f a) (g b) Q) :
    Fits k d (issue kind q >>= f) (issue kind q >>= g) Q := by
  refine Fits.bind (P := fun _ => True) ?_ (fun _ a _ _ b => hf a b) fun _ _ _ _ _ _ => trivial
  intro s n a u hs h _
  rw [issue_eq] at h
  cases h
  rw [issue_eq]
  exact ⟨hs, _, n + 1, rfl⟩

section Loops

variable {step : ReadM α} {step' : ReadM β} (hstep : Fits k d step step' P)

include hstep

lemma fits_cons {x : ReadM (List α)} {y : ReadM (List β)}
    (h : Fits k d x y fun as => ∀ a ∈ as, P a) :
    Fits k d (do let a ← step; let as ← x; pure (a :: as))
      (do let b ← step'; let bs ← y; pure (b :: bs)) fun as => ∀ a ∈ as, P a := by
  refine hstep.bind (fun _ a _ _ b => ?_) fun a u as v hnext has => ?_
  · exact h.map fun as has c hc => has c (List.mem_cons_of_mem a hc)
  · obtain ⟨rest, w, -, hnext⟩ := bind_eq_ok_iff.1 hnext
    cases hnext
    exact has a List.mem_cons_self

/-- There is room for a list if there is room for all that is in it. -/
lemma fits_repeatUntil {stop : ReadM Bool} (hstop : Lexical stop) :
    Fits k d (repeatUntil stop step) (repeatUntil stop step') fun as => ∀ a ∈ as, P a := by
  have hwithin : ∀ fuel, Fits k d (repeatWithin stop step fuel) (repeatWithin stop step' fuel)
      fun as => ∀ a ∈ as, P a := by
    intro fuel
    induction fuel with
    | zero => exact fun s n as u _ h => by cases h
    | succ fuel ih =>
      refine hstop.fits_bind fun _ b _ _ => ?_
      cases b with
      | true => exact fits_pure [] []
      | false => exact fits_cons hstep ih
  exact fun s => hwithin (s.rest.length + 1) s

lemma fits_repeatTimes (n : Nat) :
    Fits k d (repeatTimes step n) (repeatTimes step' n) fun as => ∀ a ∈ as, P a := by
  induction n with
  | zero => exact fits_pure [] []
  | succ n ih => exact fits_cons hstep ih

end Loops

/-- Below the limit there is room for one more level. -/
lemma fits_nested {x : ReadM α} {y : ReadM β} (hd : d < depthLimit)
    (h : Fits (k + 1) (d + 1) x y P) : Fits k d (nested x) (nested y) P := by
  rintro s n a u rfl hx ha
  have hroom : ¬ depthLimit < (s.placed d n).depth + 1 := Nat.not_lt.2 hd
  rw [nested_eq] at hx ⊢
  rw [if_neg hroom]
  split at hx
  · cases hx
  · split at hx
    · next v hv =>
      cases hx
      obtain ⟨hdepth, b, m, hb⟩ := h _ n _ _ rfl hv ha
      change y { s.placed d n with depth := (s.placed d n).depth + 1 } = _ at hb
      rw [hb]
      exact ⟨by simp only [hdepth]; rfl, b, m, rfl⟩
    · cases hx

/-! ### Types -/

/-- Whatever `x` reads is a level high. -/
def Tall (x : ReadM TypeTree) : Prop := ∀ s t u, x s = .ok t u → 0 < t.height

lemma tall_pure {t : TypeTree} (h : t.kind ≠ .function) : Tall (pure t) := by
  intro s t' u ht
  cases ht
  exact height_pos h

lemma tall_bind {x : ReadM α} {f : α → ReadM TypeTree} (h : ∀ a, Tall (f a)) : Tall (x >>= f) := by
  intro s t v ht
  obtain ⟨a, u, -, ht⟩ := bind_eq_ok_iff.1 ht
  exact h a u t v ht

lemma tall_nested {x : ReadM TypeTree} (h : Tall x) : Tall (nested x) := by
  intro s t u ht
  rw [nested_eq] at ht
  split at ht
  · cases ht
  · split at ht
    · next hv =>
      cases ht
      exact h _ _ _ hv
    · cases ht

/-- Every dimension is a level. -/
lemma height_arrayOf (element : TypeTree) (slot : Slot) (rows : List (Int × Slot)) :
    (arrayOf element slot rows).height = element.height + rows.length := by
  induction rows generalizing slot with
  | nil => rfl
  | cons row rows ih =>
    change (arrayOf element row.2 rows).height + 1 = _
    rw [ih, List.length_cons, Nat.add_assoc]

lemma tall_array {nt : Slot → ReadM TypeTree} (hnt : ∀ slot, Tall (nt slot)) (slot : Slot) :
    Tall (array nt slot) := by
  refine tall_bind fun n => tall_bind fun rows => tall_bind fun q => ?_
  intro s t u ht
  obtain ⟨element, v, helement, ht⟩ := bind_eq_ok_iff.1 ht
  cases ht
  have := hnt _ _ _ _ helement
  rw [height_arrayOf]
  omega

lemma tall_indirection {nt : Slot → ReadM TypeTree} {kind : Kind} (hk : kind.isIndirection = true)
    (slot : Slot) : Tall (indirection nt kind slot) := by
  refine tall_bind fun _ => tall_bind fun q => tall_bind fun target => tall_bind fun t => ?_
  refine tall_pure (show kind ≠ .function from ?_)
  rintro rfl
  cases hk

lemma tall_typeCode {nt : Slot → ReadM TypeTree} (hnt : ∀ slot, Tall (nt slot)) (slot : Slot) :
    Tall (typeCode nt slot) := by
  refine tall_bind fun o => ?_
  match o with
  | none => exact tall_bind fun p => tall_pure nofun
  | some (.aggregate key) =>
    refine tall_bind fun marked => ?_
    cases marked with
    | false => exact tall_bind fun p => tall_pure nofun
    | true => exact tall_bind fun base => tall_bind fun args => tall_pure nofun
  | some .enumeration => exact tall_bind fun p => tall_pure nofun
  | some .functionPointer =>
    exact tall_bind fun f => tall_bind fun result => tall_bind fun params => tall_pure nofun
  | some .reference => exact tall_indirection rfl slot
  | some .pointer => exact tall_indirection rfl slot
  | some .constPointer => exact tall_indirection rfl _
  | some .array => exact tall_array hnt slot

lemma tall_typeWithin (levels : Nat) (slot : Slot) : Tall (typeWithin levels slot) := by
  induction levels generalizing slot with
  | zero => exact tall_nested fun s t u ht => by cases ht
  | succ levels ih => exact tall_nested (tall_typeCode ih slot)

/-- There is room for the types that are not too high. -/
def FitsTypes (k d levels : Nat) (nt nt' : Slot → ReadM TypeTree) : Prop :=
  ∀ slot slot', Fits k d (nt slot) (nt' slot') fun t => t.height ≤ levels

section Productions

variable {levels : Nat} {nt nt' : Slot → ReadM TypeTree} (hnt : FitsTypes k d levels nt nt')
  (slot slot' : Slot)

include hnt

lemma fits_param : Fits k d (param nt) (param nt') fun t => t.height ≤ levels :=
  fits_issue .unknown {} hnt

lemma fits_listedParam (unclosed : Malformed) :
    Fits k d (listedParam nt unclosed) (listedParam nt' unclosed) fun t => t.height ≤ levels := by
  refine lexical_exhausted.fits_bind fun _ b _ _ => ?_
  cases b with
  | true => exact fun s n t u _ h => by cases h
  | false => exact fits_param hnt

omit hnt in
lemma fits_named (key : TagKey) {P : TypeTree → Prop} :
    Fits k d (path >>= fun p => pure (TypeTree.leaf { slot.node (.tag key) with path := p }))
      (path >>= fun p => pure (TypeTree.leaf { slot'.node (.tag key) with path := p })) P :=
  lexical_path.fits_bind fun _ _ _ _ => fits_pure _ _

lemma fits_aggregate (key : TagKey) :
    Fits k d (aggregate nt key slot) (aggregate nt' key slot') fun t => t.height ≤ levels + 1 := by
  refine (lexical_accept _).fits_bind fun _ marked _ _ => ?_
  cases marked with
  | false => exact fits_named slot slot' key
  | true =>
    refine (lexical_closedName .base).fits_bind fun _ base _ _ => ?_
    have hargs := fits_repeatUntil (fits_listedParam hnt (.unterminatedArgs base))
      (lexical_accept ['@'])
    refine hargs.map fun args ht a ha => ?_
    have := height_le_heightArgs ha
    simp only [height, heightInner, Slot.node] at ht
    omega

omit hnt in
/-- There is room for a result and for parameters if there is room for what is made of them. -/
lemma fits_signature {result result' : ReadM TypeTree} {params params' : ReadM (List TypeTree)}
    {f g : TypeTree → List TypeTree → TypeTree} {P : TypeTree → Prop}
    (hresult : Fits k d result result' fun t => t.height ≤ levels)
    (hparams : Fits k d params params' fun ts => ∀ t ∈ ts, t.height ≤ levels)
    (hf : ∀ t ts, P (f t ts) → max t.height (heightArgs ts) ≤ levels) :
    Fits k d (do let t ← result; let ts ← params; pure (f t ts))
      (do let t ← result'; let ts ← params'; pure (g t ts)) P := by
  refine hresult.bind (fun _ t _ _ t' => ?_) fun t u c v h hc => ?_
  · refine hparams.map fun ts hP u hu => ?_
    have := hf t ts hP
    have := height_le_heightArgs hu
    omega
  · obtain ⟨ts, w, -, h⟩ := bind_eq_ok_iff.1 h
    cases h
    have := hf t ts hc
    omega

/-- The function that is pointed to is no level of its own. -/
lemma fits_functionPointer :
    Fits k d (functionPointer nt slot) (functionPointer nt' slot')
      fun t => t.height ≤ levels + 1 := by
  have hparams := fits_repeatUntil (fits_listedParam hnt .unterminatedParams) lexical_closeParams
  refine fits_issue .function {} fun function function' => ?_
  refine fits_signature (fits_param hnt) hparams fun t ts h => ?_
  simp only [height, heightInner, heightArgs, Slot.node] at h
  omega

lemma fits_indirection {kind : Kind} (hk : kind.isIndirection = true) :
    Fits k d (indirection nt kind slot) (indirection nt' kind slot')
      fun t => t.height ≤ levels + 1 := by
  refine (lexical_accept _).fits_bind fun _ _ _ _ => ?_
  refine lexical_storage.fits_bind fun _ q _ _ => ?_
  refine fits_issue .unknown q fun target target' => ?_
  refine (hnt target target').map fun t ht => ?_
  rcases eq_of_isIndirection hk with rfl | rfl <;>
    simp only [height, heightInner, Slot.node] at ht <;> omega

omit hnt in
lemma fits_extent {P : Int × Slot → Prop} : Fits k d extent extent P :=
  (lexical_numeralAs _).fits_bind fun _ _ _ _ => fits_issue .unknown {} fun _ _ => fits_pure _ _

omit hnt in
lemma pos_of_dimension {s u : State} {n : Nat} (h : dimension s = .ok n u) : 0 < n := by
  obtain ⟨m, v, -, h⟩ := bind_eq_ok_iff.1 h
  split at h
  · cases h
    omega
  · split at h <;> cases h

/-- An array has a dimension, so its elements are a level lower. -/
lemma fits_array :
    Fits k d (array nt slot) (array nt' slot') fun t => t.height ≤ levels + 1 := by
  refine lexical_dimension.fits_bind fun _ n _ hn => ?_
  refine (fits_repeatTimes (P := fun _ => True) fits_extent n).bind (fun _ rows _ hrows rows' => ?_)
    fun _ _ _ _ _ _ _ _ => trivial
  refine lexical_arrayStorage.fits_bind fun _ q _ _ => ?_
  refine (hnt _ _).map fun element ht => ?_
  have := pos_of_dimension hn
  have := length_of_repeatTimes hrows
  rw [height_arrayOf] at ht
  omega

lemma fits_typeCode :
    Fits k d (typeCode nt slot) (typeCode nt' slot') fun t => t.height ≤ levels + 1 := by
  refine (lexical_code _).fits_bind fun _ o _ _ => ?_
  match o with
  | none => exact lexical_primitive.fits_bind fun _ _ _ _ => fits_pure _ _
  | some (.aggregate key) => exact fits_aggregate hnt slot slot' key
  | some .enumeration => exact fits_named slot slot' .enumKey
  | some .functionPointer => exact fits_functionPointer hnt slot slot'
  | some .reference => exact fits_indirection hnt slot slot' rfl
  | some .pointer => exact fits_indirection hnt slot slot' rfl
  | some .constPointer => exact fits_indirection hnt _ _ rfl
  | some .array => exact fits_array hnt slot slot'

end Productions

/-- The induction is on the levels that are left at the greater depth: where there are none, what is
read is too high. -/
lemma fits_typeWithin {levels levels' : Nat} (hl : levels' ≤ levels)
    (hd : d + levels' = depthLimit) :
    FitsTypes k d levels' (typeWithin levels) (typeWithin levels') := by
  induction levels' generalizing levels k d with
  | zero =>
    intro slot slot' s n t u _ ht hlow
    have := tall_typeWithin levels slot s t u ht
    omega
  | succ levels' ih =>
    obtain ⟨levels, rfl⟩ : ∃ l, levels = l + 1 := ⟨levels - 1, by omega⟩
    intro slot slot'
    exact fits_nested (by omega) (fits_typeCode (ih (by omega) (by omega)) slot slot')

lemma fits_typeInto (hkd : k ≤ d) (hd : d ≤ depthLimit) :
    FitsTypes k d (depthLimit - d) typeInto typeInto := by
  intro slot slot' s n t u hs
  subst hs
  exact fits_typeWithin (Nat.sub_le_sub_left hkd _) (by omega) slot slot' s n t u rfl

/-! ### Symbols -/

section Symbols

variable (hkd : k ≤ d) (hd : d ≤ depthLimit)

include hkd hd

lemma fits_params (mark : Text) :
    Fits k d
      (repeatUntil (do if ← exhausted then pure true else upcoming mark) (param typeInto))
      (repeatUntil (do if ← exhausted then pure true else upcoming mark) (param typeInto))
      fun ts => ∀ t ∈ ts, t.height ≤ depthLimit - d :=
  fits_repeatUntil (fits_param (fits_typeInto hkd hd)) (lexical_paramsEnd mark)

lemma fits_freeFunction :
    Fits k d freeFunction freeFunction fun t => t.height ≤ depthLimit - d := by
  refine fits_issue .function {} fun slot slot' => ?_
  refine lexical_convention.fits_bind fun _ c _ _ => ?_
  refine lexical_returnStorage.fits_bind fun _ q _ _ => ?_
  refine fits_issue .unknown q fun resultSlot resultSlot' => ?_
  exact fits_signature (fits_typeInto hkd hd resultSlot resultSlot') (fits_params hkd hd ['@'])
    fun _ _ ht => ht

lemma fits_memberResult (q : Qualifiers) :
    Fits k d (memberResult q) (memberResult q) fun t => t.height ≤ depthLimit - d := by
  refine (lexical_accept _).fits_bind fun _ missing _ _ => ?_
  cases missing with
  | true => exact fits_issue .noReturn q fun _ _ => fits_pure _ _
  | false =>
    refine fits_issue .unknown q fun slot slot' => ?_
    refine (fits_typeInto hkd hd slot slot').bind (fun _ t _ _ t' => ?_) fun t u t' v h ht => ?_
    · exact (lexical_accept _).fits_bind fun _ _ _ _ => fits_pure t t'
    · obtain ⟨_, w, -, h⟩ := bind_eq_ok_iff.1 h
      cases h
      exact ht

lemma fits_memberFunction :
    Fits k d memberFunction memberFunction fun t => t.height ≤ depthLimit - d := by
  refine fits_issue .function {} fun slot slot' => ?_
  refine lexical_functionClass.fits_bind fun _ cls _ _ => ?_
  refine (lexical_accept _).fits_bind fun _ _ _ _ => ?_
  refine lexical_convention.fits_bind fun _ c _ _ => ?_
  refine lexical_storage.fits_bind fun _ q _ _ => ?_
  exact fits_signature (fits_memberResult hkd hd q) (fits_params hkd hd ['Z']) fun _ _ ht => ht

lemma fits_body (h : Heading) :
    Fits k d (body h) (body h) fun s => s.type.height ≤ depthLimit - d := by
  match h with
  | .identifier name => exact fits_issue .unknown {} fun _ _ => fits_pure _ _
  | .decorated .variable p => exact (fits_param (fits_typeInto hkd hd)).map fun _ ht => ht
  | .decorated .freeFunction p => exact (fits_freeFunction hkd hd).map fun _ ht => ht
  | .decorated .memberFunction p => exact (fits_memberFunction hkd hd).map fun _ ht => ht

/-- **What is low enough is read deeper down**: at a greater depth every symbol is read that is not
too high for the levels that are left there. -/
lemma fits_symbol : Fits k d symbol symbol fun s => s.type.height ≤ depthLimit - d :=
  lexical_heading.fits_bind fun _ h _ _ => fits_body hkd hd h

end Symbols

end Reading

open Reading TypeTree

/-! ### Texts with enough levels -/

/-- There were not enough levels for the types of the text. -/
def Failure.isTooDeep : Failure → Bool
  | .malformed (.nestedTooDeep _) => true
  | _ => false

/-- No type code of the text is nested more than that deep: with so many levels left, reading the
text does not run out of them. The tree of a symbol alone does not tell, as the codes of arrays of
arrays are one level there: it is nested so deep at least (`nesting_le_of_nestedAtMost`), and no
deeper than it is high (`nestedAtMost_of_height_le`). -/
def NestedAtMost (levels : Nat) (t : Text) : Prop :=
  ∀ f u, symbol ((State.start t).placed (depthLimit - levels) 0) = .error f u → f.isTooDeep = false

instance (levels : Nat) (t : Text) : Decidable (NestedAtMost levels t) :=
  match h : symbol ((State.start t).placed (depthLimit - levels) 0) with
  | .ok _ _ => isTrue (by simp [NestedAtMost, h])
  | .error f _ => decidable_of_iff (f.isTooDeep = false) (by simp [NestedAtMost, h])

variable {t : Text} {s : Symbol} {levels : Nat}

/-- A type is not nested deeper than the codes that it was read from. -/
theorem nesting_le_of_nestedAtMost (h : parse t = .ok s) (hl : 0 < levels)
    (hn : NestedAtMost levels t) : s.type.nesting ≤ levels := by
  obtain ⟨u, hu⟩ := ok_of_parse h
  have htracks := tracks_symbol (Nat.zero_le (depthLimit - levels)) (Nat.sub_lt (by decide) hl)
  rcases htracks.of_shallower 0 rfl hu with ⟨s', m, -, hresembles⟩ | ⟨rest, v, hdeep⟩
  · have := hresembles.type.nesting
    omega
  · exact absurd (hn _ v hdeep) (by simp [Failure.isTooDeep])

/-- The codes are not nested deeper than the type is high. -/
theorem nestedAtMost_of_height_le (h : parse t = .ok s) (hs : s.type.height ≤ levels) :
    NestedAtMost levels t := by
  obtain ⟨u, hu⟩ := ok_of_parse h
  have hok : ∃ s' v, symbol ((State.start t).placed (depthLimit - levels) 0) = .ok s' v := by
    rcases Nat.le_total levels depthLimit with hlevels | hlevels
    · obtain ⟨-, s', m, hs'⟩ := fits_symbol (Nat.zero_le _) (Nat.sub_le depthLimit levels)
        (.start t) 0 s u rfl hu (by omega)
      exact ⟨s', _, hs'⟩
    · rw [Nat.sub_eq_zero_of_le hlevels]
      exact ⟨s, u, hu⟩
  obtain ⟨s', v, hv⟩ := hok
  intro f w hf
  rw [hv] at hf
  cases hf

lemma TypeTree.nestingArgs_eq {ts : List TypeTree} (h : ∀ t ∈ ts, t.nesting = t.height) :
    nestingArgs ts = heightArgs ts := by
  induction ts with
  | nil => rfl
  | cons t ts ih =>
    rw [nestingArgs, heightArgs, h t List.mem_cons_self,
      ih fun u hu => h u (List.mem_cons_of_mem t hu)]

/-- The two measures differ only where an array is made of arrays. -/
lemma TypeTree.nesting_eq_height {t : TypeTree}
    (h : ∀ u ∈ t.walk, u.kind = .array → ∀ i ∈ u.inner, i.kind ≠ .array) :
    t.nesting = t.height := by
  induction t using TypeTree.induction with
  | mk node inner args hinner hargs =>
    have hin : nestingInner inner = heightInner inner := by
      cases inner with
      | none => rfl
      | some i => exact hinner i rfl fun u hu => h u (mem_walk_of_inner rfl hu)
    have hall : nestingArgs args = heightArgs args :=
      nestingArgs_eq fun a ha => hargs a ha fun u hu => h u (mem_walk_of_arg ha hu)
    cases hk : node.kind with
    | array =>
      have hflat : (inner.any fun i => i.kind.isArray) = false := by
        rw [Option.any_eq_false]
        intro i hi
        have hne : i.kind ≠ .array := h _ (self_mem_walk _) hk i hi
        cases hkind : i.kind with
        | array => exact absurd hkind hne
        | _ => rfl
      simp only [nesting, height, hk, hin, hflat]
      rfl
    | _ => simp only [nesting, height, hk, hin, hall]

/-- **The levels of a text**: where no array is made of arrays, reading a symbol takes as many
levels as its type is nested. -/
theorem nestedAtMost_iff (h : parse t = .ok s) (hl : 0 < levels)
    (ha : ∀ u ∈ s.type.walk, u.kind = .array → ∀ i ∈ u.inner, i.kind ≠ .array) :
    NestedAtMost levels t ↔ s.type.nesting ≤ levels := by
  refine ⟨nesting_le_of_nestedAtMost h hl, fun hs => nestedAtMost_of_height_le h ?_⟩
  rwa [← nesting_eq_height ha]

/-- The array of an array of `int` is one array in the tree, and takes a level for each of its two
codes. -/
example : ((parse "?x@@3Y00Y00H".toList).toOption.map fun s => s.type.nesting) = some 2 ∧
    NestedAtMost 3 "?x@@3Y00Y00H".toList ∧ ¬ NestedAtMost 2 "?x@@3Y00Y00H".toList := by
  decide +kernel

end Undecorate
