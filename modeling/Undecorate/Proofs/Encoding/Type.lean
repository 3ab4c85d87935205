import Undecorate.Proofs.Encoding.Code

/-!
Every type reads back from its code.

Each production reads to the end of its code and no further, whatever follows, provided that the
reader of nested types does. The induction is on the levels of nesting that are left.
-/

namespace Undecorate.Encoding

open Reading TypeTree

/-! ### Productions -/

/-- At depth `d`, the reader `nt` reads every type of at most that many levels back from its
code. -/
def Decodes (nt : Slot → ReadM TypeTree) (levels d : Nat) : Prop :=
  ∀ (t : TypeTree) (slot : Slot) (s : State) (r : Text), t.Expressible → t.nesting ≤ levels →
    slot.qualifiers = t.node.qualifiers → s.issued = slot.serial + 1 → s.depth = d →
    s.rest = type t ++ r →
    Gives (nt slot) s (t.numberFrom slot.serial) r (slot.serial + t.walk.length)

section Productions

variable {nt : Slot → ReadM TypeTree} {levels d : Nat} {s : State} {r : Text}

lemma gives_param (hnt : Decodes nt levels d) {t : TypeTree} (ht : t.Expressible)
    (hu : t.Unqualified) (hl : t.nesting ≤ levels) (hd : s.depth = d)
    (h : s.rest = type t ++ r) :
    Gives (param nt) s (t.numberFrom s.issued) r (s.issued + t.walk.length) := by
  refine (gives_issue .unknown {} s).bind fun u hr hdu hn => ?_
  exact hnt t _ u r ht hl hu.symm hn (by rw [hdu, hd]) (by rw [hr, h])

lemma gives_listedParam (hnt : Decodes nt levels d) (why : Malformed) {t : TypeTree}
    (ht : t.Expressible) (hu : t.Unqualified) (hl : t.nesting ≤ levels) (hd : s.depth = d)
    (h : s.rest = type t ++ r) :
    Gives (listedParam nt why) s (t.numberFrom s.issued) r (s.issued + t.walk.length) := by
  have hne : exhausted s = .ok false s := by
    obtain ⟨c, w, hw, -⟩ := exists_type_eq_cons ht
    have hr : s.cursor.rest = c :: (w ++ r) := by rw [← List.cons_append, ← hw]; exact h
    simp [exhausted, Cursor.atEnd, hr]
  refine (gives_of_ok hne).bind fun u hr hdu hn => ?_
  have := gives_param hnt ht hu hl (s := u) (r := r) (by rw [hdu, hd]) (by rw [hr, h])
  simpa [hn] using this

/-- A list of types, up to what closes it. -/
lemma gives_types (stop : ReadM Bool) (step : ReadM TypeTree) (close : Text)
    {ts : List TypeTree} (ht : ∀ t ∈ ts, t.Expressible)
    (hgo : ∀ t ∈ ts, ∀ s w, s.rest = type t ++ w → stop s = .ok false s)
    (hstep : ∀ t ∈ ts, ∀ s w, s.rest = type t ++ w → s.depth = d →
      Gives step s (t.numberFrom s.issued) w (s.issued + t.walk.length))
    (hstop : ∀ s, s.rest = close → Gives stop s true r s.issued)
    (h : s.rest = types ts ++ close) (hd : s.depth = d) :
    Gives (repeatUntil stop step) s (numberArgs s.issued ts) r
      (s.issued + (walkArgs ts).length) := by
  rw [types_eq_flatMap] at h
  rw [numberArgs_eq_spread, length_walkArgs]
  exact gives_repeatUntil _ _ ts (fun t hm => type_ne_nil (ht t hm)) hgo hstep hstop h hd

lemma gives_enumeration {slot : Slot} {p : Path} (hp : ∀ part ∈ p, IsPart part)
    (h : s.rest = path p ++ r) (hi : s.issued = slot.serial + 1) :
    Gives (enumeration slot) s (.leaf { slot.node (.tag .enumKey) with path := p }) r
      (slot.serial + 1) := by
  rw [← hi]
  exact (gives_path hp h).map

lemma gives_aggregate_named {slot : Slot} {key : TagKey} {p : Path}
    (hp : ∀ part ∈ p, IsPart part) (hplain : ∀ part ∈ p.head?, ¬ ['?', '$'] <+: part)
    (h : s.rest = path p ++ r) (hi : s.issued = slot.serial + 1) :
    Gives (aggregate nt key slot) s (.leaf { slot.node (.tag key) with path := p }) r
      (slot.serial + 1) := by
  have hno : accept ['?', '$'] s = .ok false s := by
    refine accept_of_no_mark fun hpre => ?_
    rw [h] at hpre
    cases p with
    | nil => exact absurd hpre (by simp [path])
    | cons part p =>
      have hpre : ['?', '$'] <+: part ++ '@' :: (path p ++ r) := by simpa [path] using hpre
      rcases part with _ | ⟨a, _ | ⟨b, part⟩⟩
      · exact absurd hpre (by simp)
      · exact absurd hpre (by simp)
      · refine hplain _ rfl ?_
        simpa using hpre
  rw [← hi]
  refine (gives_of_ok hno).bind fun u hu _ hn => ?_
  rw [← hn]
  exact (gives_path hp (hu.trans h)).map

lemma gives_aggregate_template (hnt : Decodes nt levels d) (slot : Slot) (key : TagKey)
    {base : Text} {args : List TypeTree} (hb : '@' ∉ base) (hu : ∀ a ∈ args, a.Unqualified)
    (ha : ∀ a ∈ args, a.Expressible) (hl : nestingArgs args ≤ levels)
    (h : s.rest = ['?', '$'] ++ (base ++ '@' :: (types args ++ '@' :: r)))
    (hi : s.issued = slot.serial + 1) (hd : s.depth = d) :
    Gives (aggregate nt key slot) s
      (.mk { slot.node (.tag key) with path := [base] } none (numberArgs (slot.serial + 1) args)) r
      (slot.serial + 1 + (walkArgs args).length) := by
  refine (accept_of_append _ (by simp) h).bind fun u hu₁ hd₁ hn₁ => ?_
  refine (gives_closedName .base hb hu₁).bind fun v hv hd₂ hn₂ => ?_
  have hloop := gives_types (s := v) (r := r) (d := d) (accept ['@'])
    (listedParam nt (.unterminatedArgs base)) ('@' :: r) ha
    (fun t ht u w hw => accept_at_type (ha t ht) (by decide) hw)
    (fun t ht u w hw hdu => gives_listedParam hnt _ (ha t ht) (hu t ht)
      ((nesting_le_nestingArgs ht).trans hl) hdu hw)
    (fun u hu => accept_of_append _ (by simp) hu) hv (by rw [hd₂, hd₁, hd])
  rw [hn₂, hn₁, hi] at hloop
  exact hloop.map

lemma gives_indirection (hnt : Decodes nt levels d) (slot : Slot) (kind : Kind)
    {target : TypeTree} (hq : target.node.qualifiers.Stored) (ht : target.Expressible)
    (hl : target.nesting ≤ levels)
    (h : s.rest = 'E' :: (storageLetters.letterFor target.node.qualifiers ++ (type target ++ r)))
    (hi : s.issued = slot.serial + 1) (hd : s.depth = d) :
    Gives (indirection nt kind slot) s
      (.mk (slot.node kind) (some (target.numberFrom (slot.serial + 1))) []) r
      (slot.serial + 1 + target.walk.length) := by
  refine (accept_of_append ['E'] (by simp) h).bind fun u hu hd₁ hn₁ => ?_
  refine (gives_storage hq hu).bind fun v hv hd₂ hn₂ => ?_
  refine (gives_issue .unknown target.node.qualifiers v).bind fun w hw hd₃ hn₃ => ?_
  have hv' : v.issued = slot.serial + 1 := by rw [hn₂, hn₁, hi]
  have := hnt target ⟨v.issued, target.node.qualifiers⟩ w r ht hl rfl hn₃
    (by rw [hd₃, hd₂, hd₁, hd]) (by rw [hw, hv])
  rw [hv'] at this ⊢
  exact this.map

lemma closeParams_at_type {t : TypeTree} {w : Text} (ht : t.Expressible)
    (h : s.rest = type t ++ w) : closeParams s = .ok false s := by
  have h₁ : accept ['@', 'Z'] s = .ok false s := accept_at_type ht (by decide) h
  have h₂ : accept ['Z'] s = .ok false s := accept_at_type ht (by decide) h
  unfold closeParams
  rw [bind_of_ok h₁]
  exact h₂

lemma gives_functionPointer (hnt : Decodes nt levels d) (slot : Slot) {result : TypeTree}
    {params : List TypeTree} (hur : result.Unqualified) (hr : result.Expressible)
    (hu : ∀ p ∈ params, p.Unqualified) (hp : ∀ p ∈ params, p.Expressible)
    (hlr : result.nesting ≤ levels) (hlp : nestingArgs params ≤ levels)
    (h : s.rest = type result ++ (types params ++ '@' :: 'Z' :: r))
    (hi : s.issued = slot.serial + 1) (hd : s.depth = d) :
    Gives (functionPointer nt slot) s
      (.mk (slot.node .pointer)
        (some (.mk { kind := .function, convention := some .cdecl, serial := slot.serial + 1 }
          (some (result.numberFrom (slot.serial + 2)))
          (numberArgs (slot.serial + 2 + result.walk.length) params))) []) r
      (slot.serial + 2 + result.walk.length + (walkArgs params).length) := by
  refine (gives_issue .function {} s).bind fun u hu₁ hd₁ hn₁ => ?_
  have hres := gives_param hnt hr hur hlr (s := u) (by rw [hd₁, hd]) (hu₁.trans h)
  refine hres.bind fun v hv hd₂ hn₂ => ?_
  have hloop := gives_types (s := v) (r := r) (d := d) closeParams
    (listedParam nt .unterminatedParams) ('@' :: 'Z' :: r) hp
    (fun t ht u w hw => closeParams_at_type (hp t ht) hw)
    (fun t ht u w hw hdu => gives_listedParam hnt _ (hp t ht) (hu t ht)
      ((nesting_le_nestingArgs ht).trans hlp) hdu hw)
    (fun u hu => (accept_of_append ['@', 'Z'] (by simp) hu).bind
      fun v hv _ hn => gives_pure true hv hn)
    hv (by rw [hd₂, hd₁, hd])
  rw [hn₂, hn₁, hi] at hloop
  have := hloop.map (f := fun ps => TypeTree.mk (slot.node .pointer)
    (some (.mk { kind := .function, convention := some .cdecl, serial := slot.serial + 1 }
          (some (result.numberFrom (slot.serial + 2))) ps)) [])
  simpa [hn₁, hi, Slot.node] using this

lemma gives_dimension {k : Nat} (hk : 0 < k) (h : s.rest = number k ++ r) :
    Gives dimension s k r s.issued := by
  refine (gives_numeralAs .dimension h).bind fun u hu _ hn => ?_
  rw [if_pos (by omega), Int.toNat_natCast]
  exact gives_pure k hu hn

lemma gives_extents {ns : List Int} (h : s.rest = ns.flatMap number ++ r) :
    Gives (repeatTimes extent ns.length) s (rowsFrom s.issued ns) r (s.issued + ns.length) := by
  induction ns generalizing s with
  | nil => exact gives_pure [] h rfl
  | cons n ns ih =>
    rw [List.flatMap_cons, List.append_assoc] at h
    have hone : Gives extent s (n, ⟨s.issued, {}⟩) (ns.flatMap number ++ r) (s.issued + 1) := by
      refine (gives_numeralAs _ h).bind fun u hu _ hn => ?_
      rw [← hn, ← hu]
      exact (gives_issue .unknown {} u).map
    refine hone.bind fun u hu _ hn => ?_
    have := (ih hu).map (f := fun rows => (n, (⟨s.issued, {}⟩ : Slot)) :: rows)
    simpa [rowsFrom, hn, Nat.add_assoc, Nat.add_comm 1 ns.length] using this

lemma elementSlot_rowsFrom (slot : Slot) (i : Nat) (n : Int) (ns : List Int) :
    elementSlot slot (rowsFrom i (n :: ns)) = ⟨i + ns.length, {}⟩ := by
  induction ns generalizing slot i n with
  | nil => rfl
  | cons m ns ih =>
    rw [rowsFrom, elementSlot, ih]
    simp [Nat.add_assoc, Nat.add_comm 1 ns.length]

lemma gives_array (hnt : Decodes nt levels d) {slot : Slot} {t e : TypeTree} {n : Int}
    {ns : List Int} (hc : IsChain t e (n :: ns)) (hl : e.nesting ≤ levels)
    (hq : slot.qualifiers = t.node.qualifiers)
    (h : s.rest = number (ns.length + 1) ++ ((n :: ns).flatMap number ++ (type e ++ r)))
    (hi : s.issued = slot.serial + 1) (hd : s.depth = d) :
    Gives (Reading.array nt slot) s (t.numberFrom slot.serial) r
      (slot.serial + t.walk.length) := by
  refine (gives_dimension (k := (n :: ns).length) (by simp)
    (r := (n :: ns).flatMap number ++ (type e ++ r)) (by simpa using h)).bind
    fun u hu hd₁ hn₁ => ?_
  refine (gives_extents hu).bind fun v hv hd₂ hn₂ => ?_
  have hmark : arrayStorage v = .ok none v := by
    have hno : accept arrayStorageMark v = .ok false v :=
      accept_at_type hc.expressible (by decide) hv
    unfold arrayStorage
    rw [bind_of_ok hno]
    rfl
  refine (gives_of_ok hmark).bind fun w hw hd₃ hn₃ => ?_
  have hu' : u.issued = slot.serial + 1 := by rw [hn₁, hi]
  have hw' : w.issued = slot.serial + 1 + ns.length + 1 := by
    rw [hn₃, hn₂, hu', List.length_cons]
    omega
  have helem := hnt e ⟨slot.serial + 1 + ns.length, {}⟩ w r hc.expressible hl
    (hc.unqualified (by simp)).symm hw' (by rw [hd₃, hd₂, hd₁, hd]) (by rw [hw, hv])
  rw [hu', elementSlot_rowsFrom, hc.numbered, hc.nodes, ← hq]
  have := helem.map (f := fun e => arrayOf e slot (rowsFrom (slot.serial + 1) (n :: ns)))
  simpa [Nat.add_assoc, Nat.add_comm 1 ns.length] using this

lemma ahead?_tag {key : TagKey} (hk : key ≠ .enumKey) (w : Text) :
    typeCodes.ahead? (tag key ++ w) = some (tag key, .aggregate key) := by
  cases key <;> first | rfl | exact absurd rfl hk

lemma tag_ne_nil (key : TagKey) : tag key ≠ [] := by cases key <;> simp [tag]

/-! ### One level of nesting -/

/-- The code of `t` is read into a slot with the qualifiers of `t`, where the types in it are read
by `nt`. -/
def DecodesCode (nt : Slot → ReadM TypeTree) (d : Nat) (t : TypeTree) : Prop :=
  ∀ (serial : Nat) (s : State) (r : Text), s.issued = serial + 1 → s.depth = d →
    s.rest = type t ++ r →
    Gives (typeCode nt ⟨serial, t.node.qualifiers⟩) s (t.numberFrom serial) r
      (serial + t.walk.length)

lemma decodesCode_primitive (p : Primitive) (q : Qualifiers) (i : Nat) :
    DecodesCode nt d (leaf { kind := .primitive p, qualifiers := q, serial := i }) := by
  intro serial s r hi hd h
  have h : s.rest = primitive p ++ r := h
  have hnone : typeCodes.ahead? s.rest = none := by
    rw [h]
    cases p <;> rfl
  refine (gives_of_ok (code_of_none hnone)).bind fun u hu _ hn => ?_
  have := gives_primitive (s := u) (r := r) (by rw [hu, h])
  rw [hn, hi] at this
  exact this.map

lemma decodesCode_named (key : TagKey) (q : Qualifiers) (i : Nat) {p : Path}
    (parts : ∀ part ∈ p, IsPart part)
    (plain : key ≠ .enumKey → ∀ part ∈ p.head?, ¬ ['?', '$'] <+: part) :
    DecodesCode nt d (leaf { kind := .tag key, qualifiers := q, path := p, serial := i }) := by
  intro serial s r hi hd h
  by_cases hk : key = .enumKey
  · subst hk
    refine (code_of_ahead (w := ['W', '4']) (by simp) h (by rw [h]; rfl)).bind fun u hu _ hn => ?_
    exact gives_enumeration parts hu (hn.trans hi)
  · have h : s.rest = tag key ++ (path p ++ r) := by simpa [type, chain, leaf, arrays] using h
    refine (code_of_ahead (tag_ne_nil key) h (by rw [h]; exact ahead?_tag hk _)).bind
      fun u hu _ hn => ?_
    exact gives_aggregate_named parts (plain hk) hu (hn.trans hi)

lemma decodesCode_template (hnt : Decodes nt levels d) (key : TagKey) (q : Qualifiers) (i : Nat)
    {base : Text} {args : List TypeTree} (hk : key ≠ .enumKey) (hb : '@' ∉ base) (hne : args ≠ [])
    (hu : ∀ a ∈ args, a.Unqualified) (ha : ∀ a ∈ args, a.Expressible)
    (hl : nestingArgs args ≤ levels) :
    DecodesCode nt d
      (mk { kind := .tag key, qualifiers := q, path := [base], serial := i } none args) := by
  intro serial s r hi hd h
  have h : s.rest = tag key ++ (['?', '$'] ++ (base ++ '@' :: (types args ++ '@' :: r))) := by
    simpa [type, chain, arrays, hne] using h
  refine (code_of_ahead (tag_ne_nil key) h (by rw [h]; exact ahead?_tag hk _)).bind
    fun u hu₁ hd₁ hn => ?_
  have := gives_aggregate_template hnt ⟨serial, q⟩ key hb hu ha hl hu₁ (hn.trans hi) (hd₁.trans hd)
  simpa [numberFrom, numberInner, walk, walkInner, Nat.add_assoc, Slot.node, TypeTree.node,
    Nat.add_comm 1 (walkArgs args).length] using this

lemma decodesCode_indirection (hnt : Decodes nt levels d) {kind : Kind} (q : Qualifiers) (i : Nat)
    {target : TypeTree} (hk : kind.isIndirection = true) (hq : target.node.qualifiers.Stored)
    (ht : target.Expressible) (hl : target.nesting ≤ levels) :
    DecodesCode nt d (mk { kind, qualifiers := q, serial := i } (some target) []) := by
  intro serial s r hi hd h
  have haim : aim (some target) = 'E' :: storageLetters.letterFor target.node.qualifiers := by
    simp [aim, not_isFunction_of_expressible ht]
  have hstep : ∀ u : State, u.rest = 'E' :: (storageLetters.letterFor target.node.qualifiers ++
      (type target ++ r)) → u.depth = s.depth → u.issued = s.issued →
      Gives (indirection nt kind ⟨serial, q⟩) u
        (numberFrom serial (mk { kind, qualifiers := q, serial := i } (some target) [])) r
        (serial + (mk { kind, qualifiers := q, serial := i } (some target) []).walk.length) := by
    intro u hu hd₁ hn
    have := gives_indirection hnt ⟨serial, q⟩ kind hq ht hl hu (hn.trans hi) (hd₁.trans hd)
    simpa [numberFrom, numberInner, numberArgs, walk, walkInner, walkArgs, Nat.add_assoc,
      Slot.node, Nat.add_comm 1 target.walk.length] using this
  rcases eq_of_isIndirection hk with rfl | rfl
  · have h : s.rest = ['P'] ++ 'E' :: (storageLetters.letterFor target.node.qualifiers ++
        (type target ++ r)) := by
      simpa [type, chain, chainInner, arrays, haim] using h
    exact (code_of_ahead (a := TypeCode.pointer) (by simp) h (by rw [h]; rfl)).bind hstep
  · have h : s.rest = ['A'] ++ 'E' :: (storageLetters.letterFor target.node.qualifiers ++
        (type target ++ r)) := by
      simpa [type, chain, chainInner, arrays, haim] using h
    exact (code_of_ahead (a := TypeCode.reference) (by simp) h (by rw [h]; rfl)).bind hstep

lemma decodesCode_functionPointer (hnt : Decodes nt levels d) (q : Qualifiers) (i j : Nat)
    {result : TypeTree} {params : List TypeTree} (hu : result.Unqualified)
    (hr : result.Expressible) (hv : ∀ p ∈ params, p.Unqualified)
    (hp : ∀ p ∈ params, p.Expressible) (hlr : result.nesting ≤ levels)
    (hlp : nestingArgs params ≤ levels) :
    DecodesCode nt d (mk { kind := .pointer, qualifiers := q, serial := i }
      (some (mk { kind := .function, convention := some .cdecl, serial := j } (some result) params))
      []) := by
  intro serial s r hi hd h
  have h : s.rest = ['P', '6', 'A'] ++ (type result ++ (types params ++ '@' :: 'Z' :: r)) := by
    simpa [type, chain, chainInner, arrays, aim, TypeTree.kind, TypeTree.node, Kind.isFunction]
      using h
  refine (code_of_ahead (by simp) h (by rw [h]; rfl)).bind fun u hu₁ hd₁ hn => ?_
  have := gives_functionPointer hnt ⟨serial, q⟩ hu hr hv hp hlr hlp hu₁ (hn.trans hi)
    (hd₁.trans hd)
  have hlen : (mk { kind := .pointer, qualifiers := q, serial := i } (some (mk
      { kind := .function, convention := some .cdecl, serial := j } (some result) params))
      []).walk.length = 2 + result.walk.length + (walkArgs params).length := by
    simp only [walk, walkInner, walkArgs, List.append_nil, List.length_cons, List.length_append]
    omega
  rw [hlen]
  simpa [numberFrom, numberInner, numberArgs, walkInner, Slot.node, Nat.add_assoc,
    TypeTree.node] using this

lemma decodesCode_array (hnt : Decodes nt levels d) {t e : TypeTree} {n : Int} {ns : List Int}
    (hc : IsChain t e (n :: ns)) (hl : e.nesting ≤ levels) : DecodesCode nt d t := by
  intro serial s r hi hd h
  have h : s.rest = ['Y'] ++ (number (ns.length + 1) ++
      ((n :: ns).flatMap number ++ (type e ++ r))) := by
    rw [h, type, hc.chain_eq, arrays]
    simp
  refine (code_of_ahead (by simp) h (by rw [h]; rfl)).bind fun u hu₁ hd₁ hn => ?_
  exact gives_array hnt hc hl rfl hu₁ (hn.trans hi) (hd₁.trans hd)

/-- One case for every form of a type, where a chain of arrays is one form. -/
lemma decodesCode_of_expressible (hnt : Decodes nt levels d) {t : TypeTree} (ht : t.Expressible)
    (hl : t.nesting ≤ levels + 1) : DecodesCode nt d t := by
  have hchain := exists_isChain ht
  cases ht with
  | primitive p q i => exact decodesCode_primitive p q i
  | named key q i parts plain => exact decodesCode_named key q i parts plain
  | @template key q i base args hk hb hne hu ha =>
    have hl : nestingArgs args ≤ levels := by simpa [TypeTree.nesting, nestingInner] using hl
    exact decodesCode_template hnt key q i hk hb hne hu ha hl
  | @indirection kind q i target hk hq ht =>
    have hl : target.nesting ≤ levels := by
      rcases eq_of_isIndirection hk with rfl | rfl <;>
        simpa [TypeTree.nesting, nestingInner, nestingArgs] using hl
    exact decodesCode_indirection hnt q i hk hq ht hl
  | @functionPointer q i j result params hu hr hv hp =>
    have hl : result.nesting ≤ levels ∧ nestingArgs params ≤ levels := by
      simpa [TypeTree.nesting, nestingInner, nestingArgs] using hl
    exact decodesCode_functionPointer hnt q i j hu hr hv hp hl.1 hl.2
  | array q i n hu hi =>
    obtain ⟨e, ns, hc⟩ := hchain
    rcases ns with _ | ⟨m, ns⟩
    · exact Bool.noConfusion hc.isArray
    · have hl := (hc.nesting (by simp)).symm.trans_le hl
      exact decodesCode_array hnt hc (by omega)

end Productions

/-! ### Whole types -/

lemma nesting_pos {t : TypeTree} (h : t.Expressible) : 0 < t.nesting := by
  induction h with
  | indirection q i hk hq ht =>
    rcases eq_of_isIndirection hk with rfl | rfl <;> simp [TypeTree.nesting]
  | array q i n hu hi ih =>
    simp only [TypeTree.nesting, nestingInner]
    split_ifs <;> omega
  | _ => simp [TypeTree.nesting, leaf]

lemma decodes_typeWithin (levels d : Nat) (hd : levels + d = depthLimit) :
    Decodes (typeWithin levels) levels d := by
  induction levels generalizing d with
  | zero =>
    intro t slot s r ht hl
    exact absurd hl (by have := nesting_pos ht; omega)
  | succ levels ih =>
    rintro t ⟨serial, qualifiers⟩ s r ht hl rfl hi hds h
    refine gives_nested (by omega) ?_
    exact decodesCode_of_expressible (ih (d + 1) (by omega)) ht hl serial _ r hi (by simp [hds]) h

lemma decodes_typeInto {d : Nat} (hd : d ≤ depthLimit) : Decodes typeInto (depthLimit - d) d := by
  intro t slot s r ht hl hq hi hds h
  have := decodes_typeWithin (depthLimit - d) d (by omega) t slot s r ht hl hq hi hds h
  rw [← hds] at this
  exact this

end Undecorate.Encoding
