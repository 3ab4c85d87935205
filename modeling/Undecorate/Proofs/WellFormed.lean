import Undecorate.Proofs.Reading.Formed

/-!
The trees that are read are well-formed.

The attributes of every node go with its kind (`Attributed`), and every node may stand where it
stands (`PlacedIn`): a function is the root or what a pointer points to, and a missing return type
is that of a root with a function class. Reading fills a node in long after it was numbered and
checked, but what comes out would pass the check of new nodes again.
-/

namespace Undecorate

namespace TypeTree

/-! ### What is asked of a node -/

/-- The attributes of the topmost node go with its kind. -/
structure Attributed (u : TypeTree) : Prop where
  known : u.kind ≠ .unknown
  inner : u.inner.isSome = true ↔ u.kind.hasInner = true
  convention : u.node.convention.isSome = true ↔ u.kind = .function
  not_regcall : u.node.convention ≠ some .regcall
  extent : u.node.extent.isSome = true ↔ u.kind = .array
  path : u.node.path ≠ [] → u.kind.isTag = true
  parts : ∀ part ∈ u.node.path, '@' ∉ part
  args : u.args ≠ [] → u.kind = .function ∨ ∃ key, key ≠ .enumKey ∧ u.kind = .tag key
  template : u.args ≠ [] → u.kind.isTag = true → u.node.path.length = 1
  qualifiers : u.node.qualifiers.Stored
  unqualified : u.kind = .function → u.node.qualifiers = {}

/-- The topmost node and the nodes right below it may stand there in `root`. -/
structure PlacedIn (u root : TypeTree) : Prop where
  functionClass : u.node.functionClass ≠ {} → u = root
  function_inner : ∀ i ∈ u.inner, i.kind = .function → u.kind = .pointer
  function_args : ∀ a ∈ u.args, a.kind ≠ .function
  noReturn_inner : ∀ i ∈ u.inner, i.kind = .noReturn →
    u = root ∧ u.kind = .function ∧ u.node.functionClass ≠ {}
  noReturn_args : ∀ a ∈ u.args, a.kind ≠ .noReturn

structure WellFormed (root : TypeTree) : Prop where
  attributed : ∀ u ∈ root.walk, u.Attributed
  placed : ∀ u ∈ root.walk, u.PlacedIn root
  returns : root.kind ≠ .noReturn

/-! ### New nodes -/

lemma Attributed.misfit?_eq_none {u : TypeTree} (h : u.Attributed) : u.misfit? = none := by
  obtain ⟨node, inner, args⟩ := u
  have hinner : (inner.isSome && !node.kind.hasInner) = false := by
    have := h.inner.1
    simp_all [TypeTree.inner, kind, TypeTree.node]
  have hconvention : (node.convention.isSome && !node.kind.isFunction) = false := by
    have : node.convention.isSome = true → node.kind = .function := h.convention.1
    cases hc : node.convention.isSome <;> simp_all [Kind.isFunction]
  have hextent : (node.extent.isSome && !node.kind.isArray) = false := by
    have : node.extent.isSome = true → node.kind = .array := h.extent.1
    cases he : node.extent.isSome <;> simp_all [Kind.isArray]
  have hpath : (!node.path.isEmpty && !node.kind.isTag) = false := by
    have : node.path ≠ [] → node.kind.isTag = true := h.path
    cases hp : node.path <;> simp_all
  simp [misfit?, hinner, hconvention, hextent, hpath]

lemma validateArgs_eq_ok {ts : List TypeTree} (h : ∀ a ∈ ts, a.validate = .ok ()) :
    validateArgs ts = .ok () := by
  induction ts with
  | nil => rfl
  | cons t ts ih =>
    rw [validateArgs, h t (by simp)]
    exact ih fun a ha => h a (by simp [ha])

/-- A tree is valid if no node of it has a misfit. -/
lemma validate_eq_ok {t : TypeTree} (h : ∀ u ∈ t.walk, u.misfit? = none) :
    t.validate = .ok () := by
  induction t using TypeTree.induction with
  | mk node inner args hi ha =>
    have hinner : validateInner inner = .ok () := by
      cases inner with
      | none => rfl
      | some i => exact hi i rfl fun u hu => h u (mem_walk_of_inner rfl hu)
    have hargs : validateArgs args = .ok () :=
      validateArgs_eq_ok fun a hm => ha a hm fun u hu => h u (mem_walk_of_arg hm hu)
    rw [validate, hinner, hargs, h _ (self_mem_walk _)]
    rfl

/-! ### Types -/

/-- What is found inside a formed type: formed types, and the functions that pointers point to. -/
inductive Inside : TypeTree → Prop
  | type {t : TypeTree} (h : t.Formed) : Inside t
  | function (j : Nat) {result : TypeTree} {params : List TypeTree} (hr : result.Formed)
      (hp : ∀ p ∈ params, p.Formed) :
      Inside (mk { kind := .function, convention := some .cdecl, serial := j } (some result) params)

lemma inside_of_mem_walk {t u : TypeTree} (h : t.Formed) (hu : u ∈ t.walk) : u.Inside := by
  induction h with
  | primitive p i hq =>
    rcases mem_walk.1 hu with rfl | ⟨t, ⟨⟩, -⟩ | ⟨a, ⟨⟩, -⟩
    exact .type (.primitive p i hq)
  | named key i hq hp =>
    rcases mem_walk.1 hu with rfl | ⟨t, ⟨⟩, -⟩ | ⟨a, ⟨⟩, -⟩
    exact .type (.named key i hq hp)
  | template i hk hq hb ha ih =>
    rcases mem_walk.1 hu with rfl | ⟨t, ⟨⟩, -⟩ | ⟨a, hm, hu⟩
    · exact .type (.template i hk hq hb ha)
    · exact ih a hm hu
  | indirection i hk hq ht ih =>
    rcases mem_walk.1 hu with rfl | ⟨t, ⟨⟩, hu⟩ | ⟨a, ⟨⟩, -⟩
    · exact .type (.indirection i hk hq ht)
    · exact ih hu
  | functionPointer i j hq hr hp ihr ihp =>
    rcases mem_walk.1 hu with rfl | ⟨f, ⟨⟩, hu⟩ | ⟨a, ⟨⟩, -⟩
    · exact .type (.functionPointer i j hq hr hp)
    · rcases mem_walk.1 hu with rfl | ⟨t, ⟨⟩, hu⟩ | ⟨p, hm, hu⟩
      · exact .function j hr hp
      · exact ihr hu
      · exact ihp p hm hu
  | array i n hq hi ih =>
    rcases mem_walk.1 hu with rfl | ⟨t, ⟨⟩, hu⟩ | ⟨a, ⟨⟩, -⟩
    · exact .type (.array i n hq hi)
    · exact ih hu

lemma Formed.kind_ne {t : TypeTree} (h : t.Formed) : t.kind ≠ .function ∧ t.kind ≠ .noReturn := by
  cases h with
  | indirection i hk hq ht =>
    rcases eq_of_isIndirection hk with rfl | rfl <;> exact ⟨nofun, nofun⟩
  | _ => exact ⟨nofun, nofun⟩

lemma attributed_function {c : CallingConvention} (hc : c ≠ .regcall) (f : FunctionClass) (i : Nat)
    (result : TypeTree) (params : List TypeTree) :
    Attributed (mk { kind := .function, convention := some c, functionClass := f, serial := i }
      (some result) params) where
  known := nofun
  inner := ⟨fun _ => rfl, fun _ => rfl⟩
  convention := ⟨fun _ => rfl, fun _ => rfl⟩
  not_regcall h := hc (Option.some.inj h)
  extent := ⟨nofun, nofun⟩
  path h := absurd rfl h
  parts := nofun
  args _ := .inl rfl
  template _ := nofun
  qualifiers := ⟨rfl, rfl, rfl⟩
  unqualified _ := rfl

lemma attributed_tag {key : TagKey} {q : Qualifiers} {p : Path} (i : Nat) {args : List TypeTree}
    (hq : q.Stored) (hp : ∀ part ∈ p, '@' ∉ part)
    (ha : args ≠ [] → key ≠ .enumKey ∧ p.length = 1) :
    Attributed (mk { kind := .tag key, qualifiers := q, path := p, serial := i } none args) where
  known := nofun
  inner := ⟨nofun, nofun⟩
  convention := ⟨nofun, nofun⟩
  not_regcall := nofun
  extent := ⟨nofun, nofun⟩
  path _ := rfl
  parts := hp
  args h := .inr ⟨key, (ha h).1, rfl⟩
  template h _ := (ha h).2
  qualifiers := hq
  unqualified := nofun

/-- A type without name and arguments. -/
lemma attributed_plain {kind : Kind} {q : Qualifiers} {extent : Option Int} (i : Nat)
    {inner : Option TypeTree} (hq : q.Stored) (hu : kind ≠ .unknown) (hf : kind ≠ .function)
    (hi : inner.isSome = true ↔ kind.hasInner = true) (he : extent.isSome = true ↔ kind = .array) :
    Attributed (mk { kind, qualifiers := q, extent, serial := i } inner []) where
  known := hu
  inner := hi
  convention := ⟨nofun, fun h => absurd h hf⟩
  not_regcall := nofun
  extent := he
  path h := absurd rfl h
  parts := nofun
  args h := absurd rfl h
  template h := absurd rfl h
  qualifiers := hq
  unqualified h := absurd h hf

lemma Inside.attributed {u : TypeTree} (h : u.Inside) : u.Attributed := by
  cases h with
  | function j hr hp => exact attributed_function (by decide) {} j _ _
  | type h =>
    cases h with
    | primitive p i hq =>
      exact attributed_plain i hq nofun nofun ⟨nofun, nofun⟩ ⟨nofun, nofun⟩
    | named key i hq hp => exact attributed_tag i hq hp fun h => absurd rfl h
    | template i hk hq hb ha => exact attributed_tag i hq (by simpa using hb) fun _ => ⟨hk, rfl⟩
    | indirection i hk hq ht =>
      rcases eq_of_isIndirection hk with rfl | rfl
      · exact attributed_plain i hq nofun nofun ⟨fun _ => rfl, fun _ => rfl⟩ ⟨nofun, nofun⟩
      · exact attributed_plain i hq nofun nofun ⟨fun _ => rfl, fun _ => rfl⟩ ⟨nofun, nofun⟩
    | functionPointer i j hq hr hp =>
      exact attributed_plain i hq nofun nofun ⟨fun _ => rfl, fun _ => rfl⟩ ⟨nofun, nofun⟩
    | array i n hq hi =>
      exact attributed_plain i hq nofun nofun ⟨fun _ => rfl, fun _ => rfl⟩
        ⟨fun _ => rfl, fun _ => rfl⟩

/-- Nodes without a function class, over formed types. -/
lemma placedIn_of_formed {root : TypeTree} {node : Node} {inner : Option TypeTree}
    {args : List TypeTree} (hc : node.functionClass = {}) (hi : ∀ t ∈ inner, t.Formed)
    (ha : ∀ a ∈ args, a.Formed) : PlacedIn (mk node inner args) root where
  functionClass h := absurd hc h
  function_inner t ht hk := absurd hk (hi t ht).kind_ne.1
  function_args a hm := (ha a hm).kind_ne.1
  noReturn_inner t ht hk := absurd hk (hi t ht).kind_ne.2
  noReturn_args a hm := (ha a hm).kind_ne.2

lemma Inside.placedIn {u : TypeTree} (h : u.Inside) (root : TypeTree) : u.PlacedIn root := by
  cases h with
  | function j hr hp => exact placedIn_of_formed rfl (by simpa using hr) hp
  | type h =>
    cases h with
    | primitive p i hq => exact placedIn_of_formed rfl nofun nofun
    | named key i hq hp => exact placedIn_of_formed rfl nofun nofun
    | template i hk hq hb ha => exact placedIn_of_formed rfl nofun ha
    | indirection i hk hq ht => exact placedIn_of_formed rfl (by simpa using ht) nofun
    | array i n hq hi => exact placedIn_of_formed rfl (by simpa using hi) nofun
    | functionPointer i j hq hr hp =>
      -- the one node with a function below it
      exact
        { functionClass := fun h => absurd rfl h
          function_inner := fun _ _ _ => rfl
          function_args := nofun
          noReturn_inner := by
            rintro f ⟨⟩ hk
            cases hk
          noReturn_args := nofun }

/-! ### Symbols -/

lemma wellFormed_of_formed {t : TypeTree} (h : t.Formed) : t.WellFormed where
  attributed _ hu := (inside_of_mem_walk h hu).attributed
  placed _ hu := (inside_of_mem_walk h hu).placedIn t
  returns := h.kind_ne.2

/-- A function that is declared. A result that is not formed is missing, which takes a function
class. -/
lemma wellFormed_function {c : CallingConvention} {f : FunctionClass} {i : Nat} {result : TypeTree}
    {params : List TypeTree} (hc : c ≠ .regcall)
    (hr : result.Formed ∨ f ≠ {} ∧
      ∃ q j, q.Stored ∧ result = .leaf { kind := .noReturn, qualifiers := q, serial := j })
    (hp : ∀ p ∈ params, p.Formed) :
    WellFormed (mk { kind := .function, convention := some c, functionClass := f, serial := i }
      (some result) params) := by
  have hresult : ∀ u ∈ result.walk, u.Attributed ∧ ∀ root, u.PlacedIn root := by
    rcases hr with hr | ⟨-, q, j, hq, rfl⟩
    · exact fun u hu => ⟨(inside_of_mem_walk hr hu).attributed, (inside_of_mem_walk hr hu).placedIn⟩
    · intro u hu
      rcases mem_walk.1 hu with rfl | ⟨t, ⟨⟩, -⟩ | ⟨a, ⟨⟩, -⟩
      exact ⟨attributed_plain j hq nofun nofun ⟨nofun, nofun⟩ ⟨nofun, nofun⟩,
        fun root => placedIn_of_formed rfl nofun nofun⟩
  refine ⟨fun u hu => ?_, fun u hu => ?_, nofun⟩
  · rcases mem_walk.1 hu with rfl | ⟨t, ⟨⟩, hu⟩ | ⟨p, hm, hu⟩
    · exact attributed_function hc f i result params
    · exact (hresult u hu).1
    · exact (inside_of_mem_walk (hp p hm) hu).attributed
  · rcases mem_walk.1 hu with rfl | ⟨t, ⟨⟩, hu⟩ | ⟨p, hm, hu⟩
    · refine ⟨fun _ => rfl, ?_, fun a hm => (hp a hm).kind_ne.1, ?_,
        fun a hm => (hp a hm).kind_ne.2⟩
      · rintro t ⟨⟩ hk
        rcases hr with hr | ⟨-, q, j, -, rfl⟩
        · exact absurd hk hr.kind_ne.1
        · cases hk
      · rintro t ⟨⟩ hk
        rcases hr with hr | ⟨hf, -⟩
        · exact absurd hk hr.kind_ne.2
        · exact ⟨rfl, rfl, hf⟩
    · exact (hresult u hu).2 _
    · exact (inside_of_mem_walk (hp p hm) hu).placedIn _

end TypeTree

lemma Symbol.Formed.wellFormed {s : Symbol} (h : s.Formed) : s.type.WellFormed := by
  cases h with
  | ofVariable hp ht => exact TypeTree.wellFormed_of_formed ht
  | freeFunction i hp hc hr ha => exact TypeTree.wellFormed_function hc (.inl hr) ha
  | memberFunction i hp hf hc hr ha =>
    exact TypeTree.wellFormed_function hc (hr.imp_right fun h => ⟨hf, h⟩) ha

/-- **What is read is well-formed**: a text without the mark is read as a single node of unknown
type under its own name. Behind the mark every node has the attributes of its kind and no others,
every node stands where it may, and the whole tree passes the check of new nodes. -/
theorem wellFormed_of_parse {t : Text} {s : Symbol} (h : parse t = .ok s) :
    (t.head? ≠ some '?' → s.path = [t] ∧ s.type = .leaf {}) ∧
    (t.head? = some '?' → s.type.WellFormed ∧ s.type.validate = .ok ()) := by
  constructor
  · intro ht
    rw [parse_of_identifier ht] at h
    cases h
    exact ⟨rfl, rfl⟩
  · intro ht
    have hw := (formed_of_parse ht h).wellFormed
    exact ⟨hw, TypeTree.validate_eq_ok fun u hu => (hw.attributed u hu).misfit?_eq_none⟩

/-- A constructor that takes an array of pointers to functions by reference. -/
theorem wellFormed_of_parse_constructor :
    ∃ s, parse "??0Foo@@QAE@AAY01P6AHPAV?$Box@H@@ZZ".toList = .ok s ∧
      (s.type.walk.map TypeTree.kind).contains .noReturn = true ∧ s.type.walk.length = 10 ∧
      s.type.WellFormed ∧ s.type.validate = .ok () := by
  obtain ⟨s, hs, htest⟩ := exists_of_test (t := "??0Foo@@QAE@AAY01P6AHPAV?$Box@H@@ZZ".toList)
    (p := fun s => (s.type.walk.map TypeTree.kind).contains .noReturn && s.type.walk.length == 10)
    (by decide +kernel)
  simp only [Bool.and_eq_true, beq_iff_eq] at htest
  exact ⟨s, hs, htest.1, htest.2, (wellFormed_of_parse hs).2 (by decide)⟩

end Undecorate
