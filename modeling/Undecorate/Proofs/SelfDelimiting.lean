import Undecorate.Proofs.Reading.Tracking
import Undecorate.Proofs.Terminator

/-!
Type codes delimit themselves.

No decision on the way through a type depends on a character behind it, so the text that was read
as a type is read as the same type in front of every other text. Three things may differ between
the two readings apart from what follows: what was read before, the count of numbered nodes, which
shows in the numbers of the tree only, and the slot, which shows in the tree only. Names may have
been remembered that cannot be written, as no reference is written out here.
-/

namespace Undecorate

namespace Reading

variable {α β γ δ : Type}

/-! ### Readings that differ in their values -/

/-- Wherever `x` comes to a good end, `y` comes to a good end in the same state. -/
def Accompanies (x : ReadM α) (y : ReadM β) : Prop :=
  ∀ s a u, x s = .ok a u → ∃ b, y s = .ok b u

lemma accompanies_pure (a : α) (b : β) : Accompanies (pure a) (pure b) := by
  intro s c u h
  cases h
  exact ⟨b, rfl⟩

lemma accompanies_malformed {why : Text → Malformed} {y : ReadM β} :
    Accompanies (malformed why : ReadM α) y := by
  intro s a u h
  cases h

/-- The two readings part behind a common first step. -/
lemma accompanies_bind (x : ReadM γ) {f : γ → ReadM α} {g : γ → ReadM β}
    (h : ∀ c, Accompanies (f c) (g c)) : Accompanies (x >>= f) (x >>= g) := by
  intro s a u hx
  obtain ⟨c, v, hc, hf⟩ := bind_eq_ok_iff.1 hx
  obtain ⟨b, hb⟩ := h c v a u hf
  exact ⟨b, by rw [bind_of_ok hc, hb]⟩

/-- The values are used in what is returned only. -/
lemma Accompanies.map {x : ReadM α} {y : ReadM β} (h : Accompanies x y) (f : α → γ) (g : β → δ) :
    Accompanies (x >>= fun a => pure (f a)) (y >>= fun b => pure (g b)) := by
  intro s c u hx
  obtain ⟨a, v, ha, hc⟩ := bind_eq_ok_iff.1 hx
  obtain ⟨b, hb⟩ := h s a v ha
  cases hc
  exact ⟨g b, by rw [bind_of_ok hb]; rfl⟩

lemma accompanies_nested {x : ReadM α} {y : ReadM β} (h : Accompanies x y) :
    Accompanies (nested x) (nested y) := by
  intro s a u hx
  rw [nested_eq] at hx
  split at hx
  · cases hx
  · next hd =>
    split at hx
    · next b v hv =>
      cases hx
      obtain ⟨c, hc⟩ := h _ _ _ hv
      refine ⟨c, ?_⟩
      rw [nested_eq, if_neg hd, hc]
    · cases hx

section Productions

variable {nt : Slot → ReadM TypeTree}

lemma accompanies_aggregate (key : TagKey) (slot slot' : Slot) :
    Accompanies (aggregate nt key slot) (aggregate nt key slot') := by
  refine accompanies_bind _ fun marked => ?_
  cases marked with
  | false => exact accompanies_bind _ fun p => accompanies_pure _ _
  | true =>
    refine accompanies_bind _ fun base => ?_
    exact accompanies_bind _ fun args => accompanies_pure _ _

lemma accompanies_functionPointer (slot slot' : Slot) :
    Accompanies (functionPointer nt slot) (functionPointer nt slot') := by
  refine accompanies_bind _ fun function => ?_
  refine accompanies_bind _ fun result => ?_
  exact accompanies_bind _ fun params => accompanies_pure _ _

lemma accompanies_indirection (kind : Kind) (slot slot' : Slot) :
    Accompanies (indirection nt kind slot) (indirection nt kind slot') := by
  refine accompanies_bind _ fun _ => ?_
  refine accompanies_bind _ fun q => ?_
  refine accompanies_bind _ fun target => ?_
  exact accompanies_bind _ fun t => accompanies_pure _ _

variable (hnt : ∀ slot slot', Accompanies (nt slot) (nt slot'))

include hnt

/-- Only the elements of an array are read into a slot that depends on the one given. -/
lemma accompanies_array (slot slot' : Slot) : Accompanies (array nt slot) (array nt slot') := by
  refine accompanies_bind _ fun n => ?_
  refine accompanies_bind _ fun rows => ?_
  refine accompanies_bind _ fun q => ?_
  exact (hnt _ _).map _ _

lemma accompanies_typeCode (slot slot' : Slot) :
    Accompanies (typeCode nt slot) (typeCode nt slot') := by
  refine accompanies_bind _ fun o => ?_
  match o with
  | none => exact accompanies_bind _ fun p => accompanies_pure _ _
  | some (.aggregate key) => exact accompanies_aggregate key slot slot'
  | some .enumeration => exact accompanies_bind _ fun p => accompanies_pure _ _
  | some .functionPointer => exact accompanies_functionPointer slot slot'
  | some .reference => exact accompanies_indirection _ slot slot'
  | some .pointer => exact accompanies_indirection _ slot slot'
  | some .constPointer => exact accompanies_indirection _ _ _
  | some .array => exact accompanies_array hnt slot slot'

end Productions

lemma accompanies_typeWithin (levels : Nat) (slot slot' : Slot) :
    Accompanies (typeWithin levels slot) (typeWithin levels slot') := by
  induction levels generalizing slot slot' with
  | zero => exact accompanies_nested accompanies_malformed
  | succ levels ih => exact accompanies_nested (accompanies_typeCode ih slot slot')

/-- Whether a type is read, and up to where, does not depend on the slot. -/
lemma accompanies_typeInto (slot slot' : Slot) :
    Accompanies (typeInto slot) (typeInto slot') :=
  fun s => accompanies_typeWithin (depthLimit - s.depth) slot slot' s

/-! ### The same type code elsewhere -/

/-- From a state that differs in the count of numbered nodes, a type is read with other numbers. -/
lemma typeInto_renumbered {slot : Slot} {s u : State} {t : TypeTree} (n : Nat)
    (h : typeInto slot s = .ok t u) :
    ∃ t' u', typeInto slot (s.placed s.depth n) = .ok t' u' ∧ t'.unnumbered = t.unnumbered ∧
      u'.rest = u.rest ∧ u'.names = u.names := by
  have htracks := tracks_typeInto (Nat.le_refl s.depth) slot slot rfl
  obtain ⟨t', u', m, ht', htallies, rfl⟩ :=
    htracks.of_deeper (s := s.placed s.depth n) (n := s.issued) rfl h
  exact ⟨t', u', ht', htallies.unnumbered, rfl, rfl⟩

lemma depth_of_typeInto {slot : Slot} {s u : State} {t : TypeTree}
    (h : typeInto slot s = .ok t u) : u.depth = s.depth :=
  ((tracks_typeInto (Nat.le_refl s.depth) slot slot rfl).resurfaces rfl h).1

/-- From every state with the same table and depth that has it ahead, the same text is read. -/
lemma typeInto_before {slot : Slot} {s s' u : State} {t : TypeTree} {w r' : Text}
    (h : typeInto slot s = .ok t u) (hw : s.rest = w ++ u.rest) (hn : s'.names = s.names)
    (hd : s'.depth = s.depth) (hs' : s'.rest = w ++ r') :
    ∃ t' u', typeInto slot s' = .ok t' u' ∧ u'.rest = r' ∧ u'.names = u.names ∧
      u'.depth = u.depth ∧ t'.unnumbered = t.unnumbered ∧ (s'.issued = s.issued → t' = t) := by
  -- first with the count of `s`, then with its own
  let twin := s'.placed s'.depth s.issued
  have htwin : Respelling.unchanged.Twin s twin := ⟨hd, rfl, hn.symm⟩
  have hahead : ∀ x, s.rest = x ++ u.rest → twin.rest = x ++ r' := by
    intro x hx
    rw [← List.append_cancel_right (hw.symm.trans hx)]
    exact hs'
  obtain ⟨v, -, hv, hvr, hvtwin, -⟩ :=
    (Respelling.retraces_typeInto slot s).elsewhere (runs_of_built (built_typeInto slot)) h htwin
      hahead
  obtain ⟨t', u', hu', hsame, hrest, hnames⟩ := typeInto_renumbered s'.issued hv
  change typeInto slot s' = .ok t' u' at hu'
  have hdepth : u'.depth = u.depth := by
    rw [depth_of_typeInto hu', depth_of_typeInto h, hd]
  have hvn : v.names = u.names := hvtwin.tables.symm
  refine ⟨t', u', hu', hrest.trans hvr, hnames.trans hvn, hdepth, hsame, fun hi => ?_⟩
  have hself : twin = s' := by
    change s'.placed s'.depth s.issued = s'
    rw [← hi, s'.placed_self]
  rw [hself, hu'] at hv
  injection hv

/-! ### Texts that are one type code -/

/-- What is left of the text behind a type. -/
def leftBehind? (slot : Slot) (s : State) : Option Text :=
  match typeInto slot s with
  | .ok _ u => some u.rest
  | .error _ _ => none

lemma leftBehind?_eq_some {slot : Slot} {s : State} {r : Text} :
    leftBehind? slot s = some r ↔ ∃ t u, typeInto slot s = .ok t u ∧ u.rest = r := by
  unfold leftBehind?
  cases typeInto slot s with
  | ok t u => simp
  | error f u => simp

/-- All of the text is read as one type, with this table and at this depth. -/
def IsTypeCode (T : NameTable) (depth : Nat) (w : Text) : Prop :=
  ∃ slot s, s.names = T ∧ s.depth = depth ∧ s.rest = w ∧ leftBehind? slot s = some []

lemma eq_of_prefix_typeCode {T : NameTable} {depth : Nat} {w w' : Text}
    (h : IsTypeCode T depth w) (h' : IsTypeCode T depth w') (hp : w <+: w') : w = w' := by
  obtain ⟨slot, s, rfl, rfl, rfl, hs⟩ := h
  obtain ⟨slot', s', hn, hd, hs', h'⟩ := h'
  obtain ⟨r, rfl⟩ := hp
  obtain ⟨t, u, hu, hur⟩ := leftBehind?_eq_some.1 hs
  obtain ⟨t', u', hu', hur'⟩ := leftBehind?_eq_some.1 h'
  obtain ⟨t₁, v, hv, hvr, -⟩ := typeInto_before hu (by rw [hur, List.append_nil]) hn hd hs'
  obtain ⟨t₂, hv'⟩ := accompanies_typeInto slot slot' s' t₁ v hv
  rw [hu'] at hv'
  cases hv'
  rw [← hvr, hur', List.append_nil]

end Reading

open Reading

/-- **Type codes delimit themselves**: a text that was read as a type in front of some text is read
as the same type in front of every other one, with the same names remembered. For one table and
depth no text that is all of a type code starts another one. -/
theorem typeCodes_self_delimiting (T : NameTable) (depth : Nat) :
    (∀ (slot : Slot) (s u : State) (t : TypeTree) (w : Text), s.names = T → s.depth = depth →
      typeInto slot s = .ok t u → s.rest = w ++ u.rest →
      ∀ (s' : State) (r' : Text), s'.names = T → s'.depth = depth → s'.rest = w ++ r' →
        ∃ t' u', typeInto slot s' = .ok t' u' ∧ u'.rest = r' ∧ u'.names = u.names ∧
          u'.depth = u.depth ∧ t'.unnumbered = t.unnumbered ∧ (s'.issued = s.issued → t' = t)) ∧
    ∀ w w', IsTypeCode T depth w → IsTypeCode T depth w' → w <+: w' → w = w' := by
  refine ⟨?_, fun w w' => eq_of_prefix_typeCode⟩
  rintro slot s u t w rfl rfl h hw s' r' hn hd hs'
  exact typeInto_before h hw hn hd hs'

/-- The type of a callback, with references to names of which one cannot be written: it ends before
a text that could go on with its parameters, or that could close another list. -/
theorem typeCodes_self_delimiting_callback :
    let T : NameTable := ⟨["0a@b".toList, "ns".toList]⟩
    let s : State := { cursor := .ofText "P6AXV01@PEBY01D@Z@Z?".toList, names := T, depth := 3 }
    let s' : State :=
      { cursor := .ofText "P6AXV01@PEBY01D@ZHZ".toList, names := T, depth := 3, issued := 5 }
    (∃ t u, typeInto ⟨0, {}⟩ s = .ok t u ∧ u.rest = "@Z?".toList ∧
      ∃ t' u', typeInto ⟨0, {}⟩ s' = .ok t' u' ∧ u'.rest = "HZ".toList ∧
        t'.unnumbered = t.unnumbered) ∧
    IsTypeCode T 3 "P6AXV01@PEBY01D@Z".toList ∧ ¬ IsTypeCode T 3 "P6AXV01@PEBY01D@ZHZ".toList := by
  intro T s s'
  have hread : leftBehind? ⟨0, {}⟩ s = some "@Z?".toList := by decide +kernel
  have hcode : IsTypeCode T 3 "P6AXV01@PEBY01D@Z".toList := by
    refine ⟨⟨0, {}⟩, { s with cursor := .ofText "P6AXV01@PEBY01D@Z".toList }, rfl, rfl, rfl, ?_⟩
    decide +kernel
  obtain ⟨hsame, hfree⟩ := typeCodes_self_delimiting T 3
  obtain ⟨t, u, hu, hrest⟩ := leftBehind?_eq_some.1 hread
  have hw : s.rest = "P6AXV01@PEBY01D@Z".toList ++ u.rest := by
    rw [hrest]
    decide
  obtain ⟨t', u', hu', hrest', -, -, ht, -⟩ :=
    hsame ⟨0, {}⟩ s u t _ rfl rfl hu hw s' "HZ".toList rfl rfl (by decide)
  refine ⟨⟨t, u, hu, hrest, t', u', hu', hrest', ht⟩, hcode, fun hlonger => ?_⟩
  exact absurd (hfree _ _ hcode hlonger (by decide)) (by decide)

end Undecorate
