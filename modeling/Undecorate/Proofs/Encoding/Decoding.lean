import Undecorate.Proofs.Encoding.Type
import Undecorate.Proofs.Reading.Formed

/-!
Reading undoes the encoding.

Every symbol that has a decorated name is read back from it, whatever choices the name leaves: no
optional mark takes the first letter of a type, and no code takes a letter of what follows.
-/

namespace Undecorate.Encoding

open Reading TypeTree

/-! ### Symbols -/

section Symbols

variable {s : State} {r : Text}

lemma gives_heading (entity : Option Entity) {p : Path} (hp : ∀ part ∈ p, IsPart part) {w : Text}
    (h : s.rest = '?' :: (path p ++ w))
    (he : ∀ u : State, u.rest = w → Gives (code entityCodes) u entity r u.issued) :
    Gives heading s (.decorated (entity.getD .memberFunction) p) r s.issued := by
  refine (accept_of_append ['?'] (by simp) h).bind fun u hu _ hn => ?_
  refine (gives_path hp hu).bind fun v hv _ hm => ?_
  have := he v hv
  rw [hm, hn] at this
  exact this.map

lemma ahead?_returnStorage {q : Qualifiers} (hq : q.Stored) (hf : q.isFar = false) (w : Text) :
    returnStorageCodes.codeFor q ≠ [] ∧
      returnStorageCodes.ahead? (returnStorageCodes.codeFor q ++ w) =
        some (returnStorageCodes.codeFor q, q) := by
  obtain ⟨c, v, f, g, u, r⟩ := q
  obtain ⟨rfl, rfl, rfl⟩ := hq
  change f = false at hf
  subst hf
  cases c <;> cases v <;> exact ⟨by decide, rfl⟩

lemma gives_returnStorage (m : Manner) {t : TypeTree} (ht : t.Expressible)
    (hq : t.node.qualifiers.Stored) (hf : t.node.qualifiers.isFar = false)
    (h : s.rest = resultStorage m t.node.qualifiers ++ (type t ++ r)) :
    Gives returnStorage s t.node.qualifiers (type t ++ r) s.issued := by
  unfold resultStorage at h
  split_ifs at h with hnone
  · -- no storage is written, and none is read at the type
    obtain ⟨c, w, hw, hc⟩ := exists_type_eq_cons ht
    have hne : '?' ≠ c := (ne_of_mem_firstLetters hc (by decide)).symm
    have hno : returnStorageCodes.ahead? s.rest = none := by
      rw [h, hw]
      simp [returnStorageCodes, CodeTable.ahead?, Text.behind?, hne]
    rw [hnone.1]
    rw [List.nil_append] at h
    rw [← h]
    exact (gives_of_ok (code_of_none hno)).map
  · have hcode := ahead?_returnStorage hq hf
    exact (code_of_ahead (hcode []).1 h (by rw [h]; exact (hcode _).2)).map

lemma paramsEnd_at_type {m : Char} (hm : m ∈ "@Z$?".toList) {t : TypeTree} {w : Text}
    (ht : t.Expressible) (h : s.rest = type t ++ w) :
    exhausted s = .ok false s ∧ upcoming [m] s = .ok false s := by
  obtain ⟨c, v, hv, hc⟩ := exists_type_eq_cons ht
  have hr : s.cursor.rest = c :: (v ++ w) := by rw [← List.cons_append, ← hv]; exact h
  have hne : m ≠ c := (ne_of_mem_firstLetters hc hm).symm
  simp [exhausted, upcoming, Cursor.atEnd, Cursor.startsWith, hr, Text.behind?, hne]

lemma gives_paramsEnd {m : Char} {w : Text} (h : s.rest = m :: w) :
    exhausted s = .ok false s ∧ upcoming [m] s = .ok true s := by
  have hr : s.cursor.rest = m :: w := h
  simp [exhausted, upcoming, Cursor.atEnd, Cursor.startsWith, hr, Text.behind?]

/-- The parameters of a function that is declared, up to the mark that ends them. -/
lemma gives_params {m : Char} (hm : m ∈ "@Z$?".toList) {params : List TypeTree}
    (hu : ∀ p ∈ params, p.Unqualified) (hp : ∀ p ∈ params, p.Expressible)
    (hl : nestingArgs params ≤ depthLimit) (hd : s.depth = 0)
    (h : s.rest = types params ++ m :: r) :
    Gives (repeatUntil (do if ← exhausted then pure true else upcoming [m]) (param typeInto)) s
      (numberArgs s.issued params) (m :: r) (s.issued + (walkArgs params).length) := by
  refine gives_types _ _ _ hp (fun t ht u w hw => ?_) (fun t ht u w hw hdu => ?_) (fun u hu => ?_)
    h hd
  · obtain ⟨h₁, h₂⟩ := paramsEnd_at_type hm (hp t ht) hw
    rw [bind_of_ok h₁]
    exact h₂
  · exact gives_param (decodes_typeInto (Nat.zero_le _)) (hp t ht) (hu t ht)
      ((nesting_le_nestingArgs ht).trans hl) hdu hw
  · obtain ⟨h₁, h₂⟩ := gives_paramsEnd hu
    refine ⟨u, ?_, hu, rfl, rfl⟩
    rw [bind_of_ok h₁]
    exact h₂

lemma gives_freeFunction (m : Manner) (i : Nat) {c : CallingConvention} {result : TypeTree}
    {params : List TypeTree} (hc : c ≠ .regcall) (hq : result.node.qualifiers.Stored)
    (hf : result.node.qualifiers.isFar = false) (hr : result.Expressible)
    (hu : ∀ p ∈ params, p.Unqualified) (hp : ∀ p ∈ params, p.Expressible)
    (hlr : result.nesting ≤ depthLimit) (hlp : nestingArgs params ≤ depthLimit) (hd : s.depth = 0)
    (h : s.rest = convention (some c) ++ (resultStorage m result.node.qualifiers ++
      (type result ++ (types params ++ '@' :: r)))) :
    Gives Reading.freeFunction s (numberFrom s.issued
      (.mk { kind := .function, convention := some c, serial := i } (some result) params))
      ('@' :: r) (s.issued + 1 + result.walk.length + (walkArgs params).length) := by
  refine (gives_issue .function {} s).bind fun u₁ h₁ d₁ n₁ => ?_
  refine (gives_convention hc (h₁.trans h)).bind fun u₂ h₂ d₂ n₂ => ?_
  refine (gives_returnStorage m hr hq hf h₂).bind fun u₃ h₃ d₃ n₃ => ?_
  refine (gives_issue .unknown result.node.qualifiers u₃).bind fun u₄ h₄ d₄ n₄ => ?_
  have hu₄ : u₄.depth = 0 := by rw [d₄, d₃, d₂, d₁, hd]
  have hu₃ : u₃.issued = s.issued + 1 := by rw [n₃, n₂, n₁]
  refine (decodes_typeInto (Nat.zero_le _) result ⟨u₃.issued, _⟩ u₄ _ hr hlr rfl n₄ hu₄
    (h₄.trans h₃)).bind fun u₅ h₅ d₅ n₅ => ?_
  have hloop := gives_params (by decide) hu hp hlp (d₅.trans hu₄) h₅
  rw [n₅] at hloop
  simp only [hu₃] at hloop ⊢
  exact hloop.map

/-- The result of a member function, up to the first parameter or the end. -/
lemma gives_memberResult (m : Manner) {result : TypeTree}
    (hr : result.Expressible ∨
      ∃ q j, result = .leaf { kind := .noReturn, qualifiers := q, serial := j })
    (hl : result.nesting ≤ depthLimit) (hd : s.depth = 0) (hnext : ∃ c w, r = c :: w ∧ c ≠ '@')
    (h : s.rest = memberResult m result ++ r) :
    Gives (Reading.memberResult result.node.qualifiers) s (result.numberFrom s.issued) r
      (s.issued + result.walk.length) := by
  rcases hr with hr | ⟨q, j, rfl⟩
  · have hk : result.kind ≠ .noReturn := kind_ne_noReturn hr
    rw [memberResult, if_neg hk, List.append_assoc] at h
    refine (gives_of_ok (accept_at_type hr (by decide) h)).bind fun u₁ h₁ d₁ n₁ => ?_
    refine (gives_issue .unknown result.node.qualifiers u₁).bind fun u₂ h₂ d₂ n₂ => ?_
    have hu₂ : u₂.depth = 0 := by rw [d₂, d₁, hd]
    refine (decodes_typeInto (Nat.zero_le _) result ⟨u₁.issued, _⟩ u₂ _ hr hl rfl n₂ hu₂
      ((h₂.trans h₁).trans h)).bind fun u₃ h₃ _ n₃ => ?_
    rw [← n₁]
    split_ifs at h₃ with hm
    · refine (accept_of_append ['@'] (by simp) h₃).bind fun u₄ h₄ _ n₄ => ?_
      exact gives_pure _ h₄ (n₄.trans n₃)
    · obtain ⟨c, w, rfl, hc⟩ := hnext
      refine (gives_of_ok (accept_of_head_ne h₃ hc)).bind fun u₄ h₄ _ n₄ => ?_
      exact gives_pure _ (h₄.trans h₃) (n₄.trans n₃)
  · refine (accept_of_append ['@'] (by simp) h).bind fun u hu _ hn => ?_
    rw [← hn, ← hu]
    exact (gives_issue .noReturn q u).map

/-- A list of types that is closed by `Z` does not start with `@`. -/
lemma types_head {params : List TypeTree} (hp : ∀ p ∈ params, p.Expressible) (r : Text) :
    ∃ c w, types params ++ 'Z' :: r = c :: w ∧ c ≠ '@' := by
  cases params with
  | nil => exact ⟨'Z', r, rfl, by decide⟩
  | cons p params =>
    obtain ⟨c, w, hw, hc⟩ := exists_type_eq_cons (hp p (by simp))
    refine ⟨c, w ++ (types params ++ 'Z' :: r), ?_, ne_of_mem_firstLetters hc (by decide)⟩
    rw [types, List.append_assoc, ← List.cons_append, ← hw]
    rfl

lemma gives_memberFunction (m : Manner) (i : Nat) {f : FunctionClass} {c : CallingConvention}
    {result : TypeTree} {params : List TypeTree} (hf : f ∈ functionClassLetters.map Prod.snd)
    (hc : c ≠ .regcall) (hq : result.node.qualifiers.Stored)
    (hr : result.Expressible ∨
      ∃ q j, result = .leaf { kind := .noReturn, qualifiers := q, serial := j })
    (hu : ∀ p ∈ params, p.Unqualified) (hp : ∀ p ∈ params, p.Expressible)
    (hlr : result.nesting ≤ depthLimit) (hlp : nestingArgs params ≤ depthLimit) (hd : s.depth = 0)
    (h : s.rest = functionClassLetters.letterFor f ++ 'E' :: (convention (some c) ++
      (storageLetters.letterFor result.node.qualifiers ++ (memberResult m result ++
        (types params ++ 'Z' :: r))))) :
    Gives Reading.memberFunction s (numberFrom s.issued
      (.mk { kind := .function, convention := some c, functionClass := f, serial := i }
        (some result) params))
      ('Z' :: r) (s.issued + 1 + result.walk.length + (walkArgs params).length) := by
  refine (gives_issue .function {} s).bind fun u₁ h₁ d₁ n₁ => ?_
  refine (gives_functionClass hf (h₁.trans h)).bind fun u₂ h₂ d₂ n₂ => ?_
  refine (accept_of_append ['E'] (by simp) h₂).bind fun u₃ h₃ d₃ n₃ => ?_
  refine (gives_convention hc h₃).bind fun u₄ h₄ d₄ n₄ => ?_
  refine (gives_storage hq h₄).bind fun u₅ h₅ d₅ n₅ => ?_
  have hu₅ : u₅.depth = 0 := by rw [d₅, d₄, d₃, d₂, d₁, hd]
  have hi₅ : u₅.issued = s.issued + 1 := by rw [n₅, n₄, n₃, n₂, n₁]
  refine (gives_memberResult m hr hlr hu₅ (types_head hp r) h₅).bind fun u₆ h₆ d₆ n₆ => ?_
  have hloop := gives_params (by decide) hu hp hlp (d₆.trans hu₅) h₆
  rw [n₆, hi₅] at hloop
  rw [hi₅]
  exact hloop.map

end Symbols

/-! ### Reading back -/

lemma parse_of_gives {t r : Text} {s : Symbol} {n : Nat}
    (h : Gives Reading.symbol (.start t) s r n) : parse t = .ok s := by
  obtain ⟨u, hu, -⟩ := h
  rw [parse, decoder_of_ok hu]

lemma symbol_variable (m : Manner) (p : Path) {t : TypeTree} (ht : t.Expressible) :
    symbol m { path := p, type := t } = '?' :: (path p ++ '3' :: (type t ++ m.tail)) := by
  cases ht with
  | indirection q i hk hq ht => rcases eq_of_isIndirection hk with rfl | rfl <;> rfl
  | _ => rfl

/-- No letter of a function class is taken for the code of a variable or free function, but that
of a global function. -/
lemma entityCodes_at_functionClass {f : FunctionClass} (hf : f ∈ functionClassLetters.map Prod.snd)
    (hg : f ≠ { isGlobal := true }) (w : Text) :
    entityCodes.ahead? (functionClassLetters.letterFor f ++ w) = none := by
  obtain ⟨c, hc, hm⟩ := exists_letterFor hf
  have hne : ∀ entry ∈ functionClassLetters, entry.2 ≠ { isGlobal := true } →
      entry.1 ≠ '3' ∧ entry.1 ≠ 'Y' := by decide
  obtain ⟨h3, hY⟩ := hne _ hm hg
  rw [hc]
  simp [entityCodes, CodeTable.ahead?, Text.behind?, h3.symm, hY.symm]

lemma parse_variable (m : Manner) {p : Path} {t : TypeTree} (hp : ∀ part ∈ p, IsPart part)
    (hu : t.Unqualified) (ht : t.Expressible) (hl : t.nesting ≤ depthLimit) :
    parse ('?' :: (path p ++ '3' :: (type t ++ m.tail))) =
      .ok { path := p, type := t.numberFrom 0 } := by
  refine parse_of_gives (r := m.tail) (n := 0 + t.walk.length) ?_
  refine (gives_heading (some .variable) hp (s := .start _) (r := type t ++ m.tail) rfl
    fun u hu => code_of_ahead (w := ['3']) (by simp) hu (by rw [hu]; rfl)).bind fun u hr hd hn => ?_
  have := (gives_param (decodes_typeInto (Nat.zero_le _)) ht hu hl hd hr).map
    (f := fun t => ({ path := p, type := t } : Symbol))
  rw [hn] at this
  exact this

section Functions

variable (m : Manner) (i : Nat) {p : Path} {f : FunctionClass} {c : CallingConvention}
  {result : TypeTree} {params : List TypeTree}

lemma parse_freeFunction (hp : ∀ part ∈ p, IsPart part) (hc : c ≠ .regcall)
    (hq : result.node.qualifiers.Stored) (hf : result.node.qualifiers.isFar = false)
    (hr : result.Expressible) (hu : ∀ a ∈ params, a.Unqualified) (ha : ∀ a ∈ params, a.Expressible)
    (hlr : result.nesting ≤ depthLimit) (hlp : nestingArgs params ≤ depthLimit) :
    parse ('?' :: (path p ++ freeFunction m
        { kind := .function, convention := some c, serial := i } result params)) =
      .ok
        { path := p
          type := numberFrom 0
            (.mk { kind := .function, convention := some c, serial := i }
              (some result) params) } := by
  refine parse_of_gives (r := '@' :: 'Z' :: m.tail)
    (n := 0 + 1 + result.walk.length + (walkArgs params).length) ?_
  refine (gives_heading (some .freeFunction) hp (s := .start _) rfl
    fun u hu => code_of_ahead (w := ['Y']) (by simp) hu (by rw [hu]; rfl)).bind
      fun u hr' hd hn => ?_
  have := (gives_freeFunction m i (r := 'Z' :: m.tail) hc hq hf hr hu ha hlr hlp hd
    (by simpa using hr')).map (f := fun t => ({ path := p, type := t } : Symbol))
  rw [hn] at this
  exact this

lemma parse_memberFunction (hp : ∀ part ∈ p, IsPart part)
    (hf : f ∈ functionClassLetters.map Prod.snd) (hg : f ≠ { isGlobal := true })
    (hc : c ≠ .regcall) (hq : result.node.qualifiers.Stored)
    (hr : result.Expressible ∨
      ∃ q j, result = .leaf { kind := .noReturn, qualifiers := q, serial := j })
    (hu : ∀ a ∈ params, a.Unqualified) (ha : ∀ a ∈ params, a.Expressible)
    (hlr : result.nesting ≤ depthLimit) (hlp : nestingArgs params ≤ depthLimit) :
    parse ('?' :: (path p ++ memberFunction m
        { kind := .function, convention := some c, functionClass := f, serial := i }
        result params)) =
      .ok
        { path := p
          type := numberFrom 0
            (.mk { kind := .function, convention := some c, functionClass := f, serial := i }
              (some result) params) } := by
  refine parse_of_gives (r := 'Z' :: m.tail)
    (n := 0 + 1 + result.walk.length + (walkArgs params).length) ?_
  have hcode : ∀ u : State, u.rest = memberFunction m
      { kind := .function, convention := some c, functionClass := f, serial := i } result params →
      Gives (code entityCodes) u none u.rest u.issued := by
    intro u hu
    refine gives_of_ok (code_of_none ?_)
    rw [hu]
    exact entityCodes_at_functionClass hf hg _
  refine (gives_heading none hp (s := .start _) rfl
    fun u hu => hu ▸ hcode u hu).bind fun u hr' hd hn => ?_
  have := (gives_memberFunction m i (r := m.tail) hf hc hq hr hu ha hlr hlp hd
    (by rw [hr']; simp [memberFunction])).map (f := fun t => ({ path := p, type := t } : Symbol))
  rw [hn] at this
  exact this

end Functions

/-- **Reading undoes the encoding**: the decorated name of a symbol, in any manner, is read as
that symbol, with its nodes numbered in order. -/
theorem parse_encoding (m : Manner) {s : Symbol} (h : s.Expressible)
    (hl : s.type.nesting ≤ depthLimit) :
    parse (symbol m s) = .ok { s with type := s.type.numberFrom 0 } := by
  cases h with
  | identifier name i hname =>
    have hs : symbol m { path := [name], type := .leaf { serial := i } } = name := by
      simp [symbol, leaf]
    rw [hs]
    exact parse_of_identifier hname
  | @ofVariable p t hp hu ht =>
    rw [symbol_variable m p ht]
    exact parse_variable m hp hu ht hl
  | freeFunction i hp hc hq hf hr hu ha =>
    rw [TypeTree.nesting, Nat.max_le] at hl
    exact parse_freeFunction m i hp hc hq hf hr hu ha hl.1 hl.2
  | @memberFunction i p f c result params hp hf hg hc hq hr hu ha =>
    rw [TypeTree.nesting, Nat.max_le] at hl
    have hne : f ≠ {} := by
      have : ∀ g ∈ functionClassLetters.map Prod.snd, g ≠ {} := by decide
      exact this f hf
    have := parse_memberFunction m i hp hf hg hc hq hr hu ha hl.1 hl.2
    simpa [symbol, hne] using this

/-- A virtual member function that returns a reference to a constant template instance, whose
arguments are an array and a pointer to a function. -/
def specimen : Symbol :=
  let int : TypeTree := .leaf { kind := .primitive .int }
  let bool : TypeTree := .leaf { kind := .primitive .bool }
  let grid : TypeTree := .mk { kind := .array, extent := some 2 }
    (some (.mk { kind := .array, extent := some (-300) } (some int) [])) []
  let test : TypeTree := .mk { kind := .pointer }
    (some (.mk { kind := .function, convention := some .cdecl } (some bool) [int])) []
  let box : TypeTree := .mk
    { kind := .tag .classKey, qualifiers := { isConst := true }, path := ["Box".toList] } none
    [grid, test]
  { path := ["get".toList, "Shelf".toList]
    type := .mk
      { kind := .function
        convention := some .thiscall
        functionClass := { isPublic := true, isVirtual := true } }
      (some (.mk { kind := .reference } (some box) [])) [int] }

lemma specimen_expressible : specimen.Expressible := by
  have hint : ∀ a ∈ [leaf { kind := .primitive .int }], a.Unqualified ∧ a.Expressible := by
    intro a ha
    rw [List.mem_singleton.1 ha]
    exact ⟨rfl, .primitive .int {} 0⟩
  have hparts : ∀ part ∈ ["get".toList, "Shelf".toList], IsPart part := by
    simp [IsPart]
  refine .memberFunction 0 hparts (by decide) (by decide) (by decide) (by decide) (.inl ?_)
    (fun a ha => (hint a ha).1) fun a ha => (hint a ha).2
  refine .indirection {} 0 rfl (by decide) ?_
  refine .template .classKey _ 0 (by decide) (by decide) (by simp) (fun a ha => ?_) fun a ha => ?_
  · rcases List.mem_cons.1 ha with rfl | ha
    · rfl
    · rw [List.mem_singleton.1 ha]
      rfl
  · rcases List.mem_cons.1 ha with rfl | ha
    · refine .array {} 0 2 ?_ (.array {} 0 (-300) ?_ (.primitive .int {} 0)) <;> rfl
    · rw [List.mem_singleton.1 ha]
      exact .functionPointer {} 0 0 rfl (.primitive .bool {} 0) (fun a ha => (hint a ha).1)
        fun a ha => (hint a ha).2

theorem parse_encoding_specimen :
    specimen.Expressible ∧ specimen.type.nesting ≤ depthLimit ∧
      symbol { marksResult := true } specimen =
        "?get@Shelf@@UEEAAEBV?$Box@Y11?BCM@HP6A_NH@Z@@HZ".toList ∧
      parse "?get@Shelf@@UEEAAEBV?$Box@Y11?BCM@HP6A_NH@Z@@HZ".toList =
        .ok { specimen with type := specimen.type.numberFrom 0 } := by
  have hl : specimen.type.nesting ≤ depthLimit := by decide
  have hs : symbol { marksResult := true } specimen =
      "?get@Shelf@@UEEAAEBV?$Box@Y11?BCM@HP6A_NH@Z@@HZ".toList := by decide
  exact ⟨specimen_expressible, hl, hs,
    hs ▸ parse_encoding { marksResult := true } specimen_expressible hl⟩

end Undecorate.Encoding
