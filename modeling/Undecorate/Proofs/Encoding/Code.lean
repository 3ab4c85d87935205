import Undecorate.Proofs.Encoding.Symbol

/-!
What the code of a type looks like.

Letters and codes read back from their tables. No code of a type starts like a mark that may stand
in front of it or close a list of types. A type is a chain of arrays over elements that are none,
and the chain has one code.
-/

namespace Undecorate.Encoding

open Reading TypeTree

/-! ### Tables -/

section Tables

variable {α : Type} [DecidableEq α]

lemma exists_letterFor {table : LetterTable α} {a : α} (h : a ∈ table.map Prod.snd) :
    ∃ c, table.letterFor a = [c] ∧ (c, a) ∈ table := by
  obtain ⟨⟨c, b⟩, hm, rfl⟩ := List.mem_map.1 h
  have hs : (table.find? fun entry => entry.2 = b).isSome = true := by
    rw [List.find?_isSome]
    exact ⟨(c, b), hm, by simp⟩
  obtain ⟨⟨x, y⟩, hx⟩ := Option.isSome_iff_exists.1 hs
  have hy : y = b := by simpa using List.find?_some hx
  subst hy
  exact ⟨x, by simp [LetterTable.letterFor, hx], List.mem_of_find?_eq_some hx⟩

/-- A value reads back from its letter, if no letter stands twice in the table. -/
lemma gives_letterFor {table : LetterTable α} {a : α} {s : State} {r : Text}
    (hl : ∀ entry ∈ table, table.lookup entry.1 = some entry.2) (ha : a ∈ table.map Prod.snd)
    (h : s.rest = table.letterFor a ++ r) : Gives (letter table) s (some a) r s.issued := by
  obtain ⟨c, hc, hm⟩ := exists_letterFor ha
  rw [hc, List.singleton_append] at h
  exact letter_of_lookup h (hl _ hm)

end Tables

lemma storageLetters_lookup :
    ∀ entry ∈ storageLetters, storageLetters.lookup entry.1 = some entry.2 := by decide

lemma conventionLetters_lookup :
    ∀ entry ∈ conventionLetters, conventionLetters.lookup entry.1 = some entry.2 := by decide

lemma functionClassLetters_lookup :
    ∀ entry ∈ functionClassLetters, functionClassLetters.lookup entry.1 = some entry.2 := by decide

lemma mem_storageLetters {q : Qualifiers} (h : q.Stored) : q ∈ storageLetters.map Prod.snd := by
  obtain ⟨c, v, f, g, u, r⟩ := q
  obtain ⟨rfl, rfl, rfl⟩ := h
  cases c <;> cases v <;> cases f <;> decide

lemma mem_conventionLetters {c : CallingConvention} (h : c ≠ .regcall) :
    c ∈ conventionLetters.map Prod.snd := by
  cases c <;> first | decide | exact absurd rfl h

lemma gives_storage {s : State} {q : Qualifiers} {r : Text} (hq : q.Stored)
    (h : s.rest = storageLetters.letterFor q ++ r) : Gives storage s q r s.issued :=
  (gives_letterFor storageLetters_lookup (mem_storageLetters hq) h).map

lemma gives_convention {s : State} {c : CallingConvention} {r : Text} (hc : c ≠ .regcall)
    (h : s.rest = convention (some c) ++ r) : Gives Reading.convention s c r s.issued :=
  (gives_letterFor conventionLetters_lookup (mem_conventionLetters hc) h).bind
    fun _ hu _ hn => gives_pure c hu hn

lemma gives_functionClass {s : State} {f : FunctionClass} {r : Text}
    (hf : f ∈ functionClassLetters.map Prod.snd)
    (h : s.rest = functionClassLetters.letterFor f ++ r) :
    Gives functionClass s f r s.issued :=
  (gives_letterFor functionClassLetters_lookup hf h).bind fun _ hu _ hn => gives_pure f hu hn

lemma gives_primitive {s : State} {p : Primitive} {r : Text} (h : s.rest = primitive p ++ r) :
    Gives Reading.primitive s p r s.issued := by
  have hcases : (∃ c, primitive p = [c] ∧ primitiveLetters.lookup c = some p) ∨
      ∃ c, primitive p = ['_', c] ∧ ∀ w, extendedPrimitiveCodes.ahead? ('_' :: c :: w) =
        some (['_', c], p) := by
    cases p <;> first | exact .inl ⟨_, rfl, rfl⟩ | exact .inr ⟨_, rfl, fun _ => rfl⟩
  rcases hcases with ⟨c, hc, hl⟩ | ⟨c, hc, ha⟩
  · rw [hc, List.singleton_append] at h
    exact (letter_of_lookup h hl).bind fun u hu _ hn => gives_pure p hu hn
  · rw [hc] at h
    refine (gives_letter_none h (by decide)).bind fun u hu _ hn => ?_
    refine (code_of_ahead (w := ['_', c]) (by simp) hu (by rw [hu]; exact ha r)).bind ?_
    exact fun v hv _ hm => gives_pure p hv (hm.trans hn)

/-! ### The first letter of a type -/

/-- The letters that the code of a type can start with. -/
def firstLetters : Text := "TUVWPAYXDCEFGHIJKMNO_".toList

/-- No mark that may stand in front of a type, and none that closes a list of types, starts like
a type. -/
lemma ne_of_mem_firstLetters {c m : Char} (hc : c ∈ firstLetters) (hm : m ∈ "@Z$?".toList) :
    c ≠ m := by
  rintro rfl
  have hall : (firstLetters.all fun x => !"@Z$?".toList.contains x) = true := by decide
  have hno := List.all_eq_true.1 hall c hc
  rw [List.contains_iff_mem.2 hm] at hno
  cases hno

lemma exists_type_eq_cons {t : TypeTree} (h : t.Expressible) :
    ∃ c w, type t = c :: w ∧ c ∈ firstLetters := by
  cases h with
  | primitive p q i => cases p <;> exact ⟨_, _, rfl, by decide⟩
  | named key q i parts plain => cases key <;> exact ⟨_, _, rfl, by decide⟩
  | template key q i hk hb hne hu ha => cases key <;> exact ⟨_, _, rfl, by decide⟩
  | indirection q i hk hq ht =>
    rcases eq_of_isIndirection hk with rfl | rfl <;> exact ⟨_, _, rfl, by decide⟩
  | functionPointer q i j hu hr hv hp => exact ⟨_, _, rfl, by decide⟩
  | array q i n hu hi => exact ⟨_, _, rfl, by decide⟩

lemma not_isFunction_of_expressible {t : TypeTree} (h : t.Expressible) :
    t.kind.isFunction = false := by
  cases h with
  | indirection q i hk hq ht => rcases eq_of_isIndirection hk with rfl | rfl <;> rfl
  | _ => rfl

lemma kind_ne_noReturn {t : TypeTree} (h : t.Expressible) : t.kind ≠ .noReturn := by
  cases h with
  | indirection q i hk hq ht =>
    rcases eq_of_isIndirection hk with rfl | rfl <;> simp [TypeTree.kind, TypeTree.node]
  | _ => simp [TypeTree.kind, TypeTree.node, leaf]

lemma type_ne_nil {t : TypeTree} (h : t.Expressible) : type t ≠ [] := by
  obtain ⟨c, w, hw, -⟩ := exists_type_eq_cons h
  simp [hw]

/-- A mark that is no part of a type is not read at a type. -/
lemma accept_at_type {t : TypeTree} {s : State} {m : Char} {mark r : Text} (ht : t.Expressible)
    (hm : m ∈ "@Z$?".toList) (h : s.rest = type t ++ r) :
    accept (m :: mark) s = .ok false s := by
  obtain ⟨c, w, hw, hc⟩ := exists_type_eq_cons ht
  rw [hw, List.cons_append] at h
  exact accept_of_head_ne h (ne_of_mem_firstLetters hc hm)

/-! ### Chains of arrays -/

/-- The extents with the places of the elements, as they are numbered from `i` on. -/
def rowsFrom : Nat → List Int → List (Int × Slot)
  | _, [] => []
  | i, n :: ns => (n, { serial := i, qualifiers := {} }) :: rowsFrom (i + 1) ns

/-- The tree `t` is a chain of arrays with the extents `ns` over elements of type `e`. -/
structure IsChain (t e : TypeTree) (ns : List Int) : Prop where
  expressible : e.Expressible
  chain_eq : chain t = (ns, type e)
  isArray : t.kind.isArray = !ns.isEmpty
  element : ns = [] → e = t
  unqualified : ns ≠ [] → e.Unqualified
  nodes : t.walk.length = ns.length + e.walk.length
  nesting : ns ≠ [] → t.nesting = e.nesting + 1
  numbered : ∀ i, t.numberFrom i =
    arrayOf (e.numberFrom (i + ns.length)) ⟨i, t.node.qualifiers⟩ (rowsFrom (i + 1) ns)

lemma isChain_self {t : TypeTree} (h : t.Expressible) (ha : t.kind.isArray = false)
    (hc : (chain t).1 = []) : IsChain t t [] where
  expressible := h
  chain_eq := by
    rcases hw : chain t with ⟨ns, w⟩
    rw [hw] at hc
    simp only at hc
    simp [type, hw, hc, arrays]
  isArray := ha
  element := fun _ => rfl
  unqualified := fun hn => absurd rfl hn
  nodes := by simp
  nesting := fun hn => absurd rfl hn
  numbered := fun i => rfl

lemma exists_isChain {t : TypeTree} (h : t.Expressible) : ∃ e ns, IsChain t e ns := by
  have hself := h
  induction h with
  | primitive p q i => exact ⟨_, _, isChain_self hself rfl rfl⟩
  | named key q i parts plain => exact ⟨_, _, isChain_self hself rfl rfl⟩
  | template key q i hk hb hne hu ha => exact ⟨_, _, isChain_self hself rfl rfl⟩
  | indirection q i hk hq ht ih =>
    rcases eq_of_isIndirection hk with rfl | rfl <;> exact ⟨_, _, isChain_self hself rfl rfl⟩
  | functionPointer q i j hu hr hv hp => exact ⟨_, _, isChain_self hself rfl rfl⟩
  | @array q i n inner hu hi ih =>
    obtain ⟨e, ns, hc⟩ := ih hi
    refine ⟨e, n :: ns, hc.expressible, ?_, rfl, by simp, fun _ => ?_, ?_, fun _ => ?_, fun j => ?_⟩
    · simp [chain, chainInner, hc.chain_eq]
    · cases ns with
      | nil => rw [hc.element rfl]; exact hu
      | cons m ms => exact hc.unqualified (by simp)
    · simp [walk, walkInner, walkArgs, hc.nodes]
      omega
    · cases ns with
      | nil =>
        have := hc.isArray
        rw [hc.element rfl]
        simp_all [TypeTree.nesting, nestingInner]
      | cons m ms =>
        have := hc.isArray
        have := hc.nesting (by simp)
        simp_all [TypeTree.nesting, nestingInner]
    · have hnum := hc.numbered (j + 1)
      have hq : inner.node.qualifiers = {} := hu
      rw [hq] at hnum
      simp [numberFrom, numberInner, numberArgs, arrayOf, rowsFrom, hnum, Slot.node, TypeTree.node,
        Nat.add_assoc, Nat.add_comm 1 ns.length]

/-! ### Lists of types -/

lemma types_eq_flatMap (ts : List TypeTree) : types ts = ts.flatMap type := by
  induction ts with
  | nil => rfl
  | cons t ts ih => rw [types, ih]; rfl

lemma numberArgs_eq_spread (i : Nat) (ts : List TypeTree) :
    numberArgs i ts = spread numberFrom (fun t => t.walk.length) i ts := by
  induction ts generalizing i with
  | nil => rfl
  | cons t ts ih => rw [numberArgs, ih]; rfl

lemma length_walkArgs (ts : List TypeTree) :
    (walkArgs ts).length = (ts.map fun t => t.walk.length).sum := by
  rw [walkArgs_eq_flatMap, List.length_flatMap]

lemma nesting_le_nestingArgs {t : TypeTree} {ts : List TypeTree} (h : t ∈ ts) :
    t.nesting ≤ nestingArgs ts := by
  induction ts with
  | nil => simp at h
  | cons a ts ih =>
    rw [nestingArgs]
    rcases List.mem_cons.1 h with rfl | h
    · omega
    · have := ih h
      omega

end Undecorate.Encoding
