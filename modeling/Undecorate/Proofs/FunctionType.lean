import Undecorate.Proofs.Reading.Levels
import Undecorate.Proofs.Terminator

/-!
The two readers of function types agree.

The parameters of a free function end where `@` comes next, and the mark is not read; those of a
function that is pointed to are closed by `@Z` or by `Z`. No type starts like one of these marks, so
in front of `@Z` both readers find the same result and the same parameters. The pointer is a level
of its own, so that one level less is left for what it points to.
-/

namespace Undecorate

namespace Reading

variable {nt : Slot → ReadM TypeTree}

/-! ### The first letter of a type -/

/-- No type starts here: the text ends, or a list of types is closed. -/
def listEnds : List (Option Char) := [none, some '@', some 'Z']

lemma head?_of_typeCode {slot : Slot} {s u : State} {t : TypeTree}
    (h : typeCode nt slot s = .ok t u) : s.rest.head? ∉ listEnds := by
  have hcodes : ∀ e ∈ typeCodes, e.1 ≠ [] ∧ e.1.head? ∉ listEnds := by decide
  have hletters : ∀ e ∈ primitiveLetters, some e.1 ∉ listEnds := by decide
  have hextended : ∀ e ∈ extendedPrimitiveCodes, e.1 ≠ [] ∧ e.1.head? ∉ listEnds := by decide
  obtain ⟨o, v, ho, h⟩ := bind_eq_ok_iff.1 h
  rcases code_cases (fun e he => (hcodes e he).1) s with ⟨w, a, c, hmem, -, hr, -⟩ | ⟨-, hc⟩
  · rw [hr, List.head?_append_of_ne_nil _ (hcodes _ hmem).1]
    exact (hcodes _ hmem).2
  rw [hc] at ho
  cases ho
  -- a primitive type, by its letter or else by its extended code
  obtain ⟨p, v, hp, -⟩ := bind_eq_ok_iff.1 h
  obtain ⟨o, v, ho, hp⟩ := bind_eq_ok_iff.1 hp
  rcases letter_cases primitiveLetters s with ⟨x, a, c, hmem, -, hr, -⟩ | ⟨-, hc⟩
  · rw [hr]
    exact hletters _ hmem
  rw [hc] at ho
  cases ho
  obtain ⟨o, v, ho, hp⟩ := bind_eq_ok_iff.1 hp
  rcases code_cases (fun e he => (hextended e he).1)
    { s with cursor := { s.cursor with taken := none } } with ⟨w, a, c, hmem, -, hr, -⟩ | ⟨-, hc⟩
  · change s.rest = w ++ c.rest at hr
    rw [hr, List.head?_append_of_ne_nil _ (hextended _ hmem).1]
    exact (hextended _ hmem).2
  · rw [hc] at ho
    cases ho
    cases hp

lemma head?_of_typeWithin {levels : Nat} {slot : Slot} {s u : State} {t : TypeTree}
    (h : typeWithin levels slot s = .ok t u) : s.rest.head? ∉ listEnds := by
  cases levels with
  | zero =>
    rw [typeWithin, nested_eq] at h
    split at h <;> cases h
  | succ levels =>
    rw [typeWithin, nested_eq] at h
    split at h
    · cases h
    · split at h
      · next hv =>
        have hhead := head?_of_typeCode hv
        exact hhead
      · cases h

lemma head?_of_param {levels : Nat} {s u : State} {t : TypeTree}
    (h : param (typeWithin levels) s = .ok t u) : s.rest.head? ∉ listEnds := by
  obtain ⟨slot, v, hslot, h⟩ := bind_eq_ok_iff.1 h
  rw [issue_eq] at hslot
  cases hslot
  have hhead := head?_of_typeWithin h
  exact hhead

/-! ### The two lists of parameters -/

lemma closeParams_of_head? {s : State} (h : s.rest.head? ∉ listEnds) :
    closeParams s = .ok false s := by
  have hmark : ∀ c w, some c ∈ listEnds → ¬ c :: w <+: s.rest := by
    rintro c w hc ⟨r, hr⟩
    rw [← hr] at h
    exact h hc
  rw [closeParams, bind_of_ok (accept_of_no_mark (hmark '@' ['Z'] (by decide)))]
  exact accept_of_no_mark (hmark 'Z' [] (by decide))

lemma freeParamsEnd_of_head? {s : State} (h : s.rest.head? ∉ listEnds) :
    freeParamsEnd s = .ok false s := by
  have hopen : ¬ Closed ['@'] s.rest := by
    rintro (hnil | hat)
    · rw [hnil] at h
      exact h (by decide)
    · rw [singleton_prefix_iff.1 hat] at h
      exact h (by decide)
  rw [freeParamsEnd, Respelling.paramsEnd_eq, decide_eq_false hopen]

lemma listedParam_of_ne_nil {unclosed : Malformed} {s : State} (h : s.rest ≠ []) :
    listedParam nt unclosed s = param nt s := by
  have hend : exhausted s = .ok false s := by
    change s.cursor.rest ≠ [] at h
    rw [exhausted, Cursor.atEnd, List.isEmpty_eq_false_iff.2 h]
  rw [listedParam, bind_of_ok hend]
  rfl

lemma param_of_listedParam {unclosed : Malformed} {s u : State} {t : TypeTree}
    (h : listedParam nt unclosed s = .ok t u) : param nt s = .ok t u := by
  obtain ⟨ended, v, hended, h⟩ := bind_eq_ok_iff.1 h
  cases hended
  cases hend : s.cursor.atEnd <;> rw [hend] at h
  · exact h
  · cases h

lemma ne_nil_of_head? {r : Text} (h : r.head? ∉ listEnds) : r ≠ [] := by
  rintro rfl
  exact h (by decide)

/-- What closes the parameters of a function that is pointed to, and is not read behind those of a
free function. -/
def closingMark : Text := ['@', 'Z']

lemma closeParams_of_mark {s : State} (h : s.rest = closingMark) :
    ∃ c, closeParams s = .ok true (s.pass (.code closingMark) c) := by
  have hne : closingMark ≠ [] := by decide
  refine ⟨{ before := closingMark.reverse ++ s.cursor.before, rest := [] }, ?_⟩
  rw [closeParams]
  exact bind_of_ok (accept_eq hne h)

/-- Parameters are closed by `@Z`, which is passed then, or by a lone `Z`. -/
lemma closeParams_cases {s u : State} (h : closeParams s = .ok true u) :
    s.rest = closingMark ++ u.rest ∨ ∃ ls, u.lexemes = .code ['Z'] :: ls := by
  obtain ⟨closed, v, hv, h⟩ := bind_eq_ok_iff.1 h
  rcases accept_cases (show ['@', 'Z'] ≠ [] by decide) s with ⟨c, hr, hc⟩ | ⟨-, hc⟩ <;>
    rw [hc] at hv <;> cases hv
  · cases h
    exact .inl hr
  · rcases accept_cases (show ['Z'] ≠ [] by decide) s with ⟨c, -, hc⟩ | ⟨-, hc⟩
    · change accept ['Z'] s = _ at h
      rw [hc] at h
      cases h
      exact .inr ⟨s.lexemes, rfl⟩
    · change accept ['Z'] s = _ at h
      rw [hc] at h
      cases h

lemma closeParams_eq_false {s u : State} (h : closeParams s = .ok false u) : u = s := by
  obtain ⟨closed, v, hv, hnext⟩ := bind_eq_ok_iff.1 h
  cases closed with
  | true => cases hnext
  | false =>
    obtain ⟨rfl, -⟩ := Respelling.accept_eq_false (by decide) hv
    exact (Respelling.accept_eq_false (by decide) hnext).1

section Loops

variable {levels : Nat} {unclosed : Malformed}

/-- In front of `@Z` the parameters of a free function are closed by it. -/
lemma close_of_free {fuel : Nat} {s u : State} {ts : List TypeTree}
    (h : repeatWithin freeParamsEnd (param (typeWithin levels)) fuel s = .ok ts u)
    (hu : u.rest = closingMark) :
    ∃ c, repeatWithin closeParams (listedParam (typeWithin levels) unclosed) fuel s =
      .ok ts (u.pass (.code closingMark) c) := by
  induction fuel generalizing s ts with
  | zero => cases h
  | succ fuel ih =>
    obtain ⟨ended, v, hended, h⟩ := bind_eq_ok_iff.1 h
    obtain rfl : v = s := by
      rw [freeParamsEnd, Respelling.paramsEnd_eq] at hended
      injection hended with _ hv
      exact hv.symm
    cases ended with
    | true =>
      cases h
      obtain ⟨c, hclose⟩ := closeParams_of_mark hu
      refine ⟨c, ?_⟩
      rw [repeatWithin, bind_of_ok hclose]
      rfl
    | false =>
      obtain ⟨t, w, ht, h⟩ := bind_eq_ok_iff.1 h
      obtain ⟨rest, x, hrest, h⟩ := bind_eq_ok_iff.1 h
      cases h
      obtain ⟨c, hloop⟩ := ih hrest
      have hhead := head?_of_param ht
      have hlisted : listedParam (typeWithin levels) unclosed v = .ok t w := by
        rw [listedParam_of_ne_nil (ne_nil_of_head? hhead), ht]
      refine ⟨c, ?_⟩
      rw [repeatWithin, bind_of_ok (closeParams_of_head? hhead)]
      exact (bind_of_ok hlisted).trans (bind_of_ok hloop)

/-- Parameters that are closed by a last `@Z` are those of a free function in front of it. -/
lemma free_of_close {fuel : Nat} {s u : State} {ts : List TypeTree} {ls : List Lexeme}
    (h : repeatWithin closeParams (listedParam (typeWithin levels) unclosed) fuel s = .ok ts u)
    (hu : u.rest = []) (hl : u.lexemes = .code closingMark :: ls) :
    ∃ v, v.rest = closingMark ∧
      repeatWithin freeParamsEnd (param (typeWithin levels)) fuel s = .ok ts v := by
  induction fuel generalizing s ts with
  | zero => cases h
  | succ fuel ih =>
    obtain ⟨closed, v, hclosed, hnext⟩ := bind_eq_ok_iff.1 h
    cases closed with
    | true =>
      cases hnext
      rcases closeParams_cases hclosed with hr | ⟨ls', hl'⟩
      · rw [hu, List.append_nil] at hr
        have hended : Closed ['@'] s.rest := by
          rw [hr]
          decide
        refine ⟨s, hr, ?_⟩
        rw [repeatWithin, freeParamsEnd, bind_of_ok (Respelling.paramsEnd_eq ['@'] s),
          decide_eq_true hended]
        rfl
      · rw [hl] at hl'
        cases hl'
    | false =>
      obtain rfl := closeParams_eq_false hclosed
      obtain ⟨t, w, ht, hnext⟩ := bind_eq_ok_iff.1 hnext
      obtain ⟨rest, x, hrest, hnext⟩ := bind_eq_ok_iff.1 hnext
      cases hnext
      obtain ⟨y, hy, hloop⟩ := ih hrest
      have hparam := param_of_listedParam ht
      refine ⟨y, hy, ?_⟩
      rw [repeatWithin, bind_of_ok (freeParamsEnd_of_head? (head?_of_param hparam))]
      exact (bind_of_ok hparam).trans (bind_of_ok hloop)

end Loops

/-! ### Signatures -/

/-- The result of a function with its parameters, however their list ends. -/
def signature (stop : ReadM Bool) (step : ReadM TypeTree) (nt : Slot → ReadM TypeTree) :
    ReadM (TypeTree × List TypeTree) := do
  let result ← param nt
  let params ← repeatUntil stop step
  pure (result, params)

abbrev freeSignature (nt : Slot → ReadM TypeTree) : ReadM (TypeTree × List TypeTree) :=
  signature freeParamsEnd (param nt) nt

abbrev pointedSignature (nt : Slot → ReadM TypeTree) : ReadM (TypeTree × List TypeTree) :=
  signature closeParams (listedParam nt .unterminatedParams) nt

/-- The function with the `cdecl` convention that has this signature. -/
def cdeclFunction (serial : Nat) (f : TypeTree × List TypeTree) : TypeTree :=
  .mk { kind := .function, convention := some .cdecl, serial } (some f.1) f.2

lemma pointedSignature_of_free {levels : Nat} {s u : State} {f : TypeTree × List TypeTree}
    (h : freeSignature (typeWithin levels) s = .ok f u) (hu : u.rest = closingMark) :
    ∃ v, pointedSignature (typeWithin levels) s = .ok f v := by
  obtain ⟨result, v, hresult, h⟩ := bind_eq_ok_iff.1 h
  obtain ⟨params, w, hparams, h⟩ := bind_eq_ok_iff.1 h
  cases h
  obtain ⟨c, hclose⟩ := close_of_free hparams hu
  refine ⟨u.pass (.code closingMark) c, ?_⟩
  exact (bind_of_ok hresult).trans (bind_of_ok hclose)

lemma freeSignature_of_pointed {levels : Nat} {s u : State} {f : TypeTree × List TypeTree}
    {ls : List Lexeme} (h : pointedSignature (typeWithin levels) s = .ok f u) (hu : u.rest = [])
    (hl : u.lexemes = .code closingMark :: ls) :
    ∃ v, v.rest = closingMark ∧ freeSignature (typeWithin levels) s = .ok f v := by
  obtain ⟨result, v, hresult, h⟩ := bind_eq_ok_iff.1 h
  obtain ⟨params, w, hparams, h⟩ := bind_eq_ok_iff.1 h
  cases h
  obtain ⟨x, hx, hfree⟩ := free_of_close hparams hu hl
  refine ⟨x, hx, ?_⟩
  exact (bind_of_ok hresult).trans (bind_of_ok hfree)

lemma functionPointer_eq (slot : Slot) (s : State) :
    functionPointer nt slot s =
      (pointedSignature nt >>= fun f =>
        pure (.mk (slot.node .pointer) (some (cdeclFunction s.issued f)) []))
        (s.placed s.depth (s.issued + 1)) := by
  rw [functionPointer, bind_of_ok (issue_eq .function {} s)]
  simp only [signature, bind_assoc, pure_bind]
  rfl

lemma ahead?_returnStorageCodes {r : Text} (h : r.head? ≠ some '?') :
    returnStorageCodes.ahead? r = none := by
  have hmark : ∀ e ∈ returnStorageCodes, e.1 ≠ [] ∧ e.1.head? = some '?' := by decide
  refine List.find?_eq_none.2 fun e he hsome => ?_
  obtain ⟨w, hw⟩ := Option.isSome_iff_exists.1 hsome
  rw [Text.behind?_eq_some_iff.1 hw, List.head?_append_of_ne_nil _ (hmark e he).1] at h
  exact h (hmark e he).2

/-- A result without storage follows the calling convention at once. -/
lemma freeFunction_eq {s : State} {r : Text} (hr : s.rest = 'A' :: r) (hq : r.head? ≠ some '?') :
    ∃ c, c.rest = r ∧ freeFunction s =
      (freeSignature typeInto >>= fun f => pure (cdeclFunction s.issued f))
        ((s.pass (.code ['A']) c).placed s.depth (s.issued + 1)) := by
  let c : Cursor := { before := 'A' :: s.cursor.before, rest := r, taken := some 'A' }
  let u : State := (s.pass (.code ['A']) c).placed s.depth (s.issued + 1)
  have hletter : letter conventionLetters { s with issued := s.issued + 1 } = .ok (some .cdecl) u :=
    letter_eq hr rfl
  have hconvention : convention { s with issued := s.issued + 1 } = .ok .cdecl u := by
    rw [convention, bind_of_ok hletter]
    rfl
  have hstorage : returnStorage u = .ok {} u := by
    have hcode : code returnStorageCodes u = .ok none u :=
      code_of_none (ahead?_returnStorageCodes hq)
    rw [returnStorage, bind_of_ok hcode]
    rfl
  refine ⟨c, rfl, ?_⟩
  rw [freeFunction, bind_of_ok (issue_eq .function {} s), bind_of_ok hconvention,
    bind_of_ok hstorage]
  simp only [signature, param, bind_assoc, pure_bind]
  rfl

/-- Back to the depth that the type was read from. -/
def surface : ReadM Unit := modify fun s => { s with depth := s.depth - 1 }

lemma nested_of_room {α : Type} (x : ReadM α) {s : State} (h : s.depth < depthLimit) :
    nested x s =
      (x >>= fun a => surface >>= fun _ => pure a) (s.placed (s.depth + 1) s.issued) := by
  have hroom : ¬ depthLimit < s.depth + 1 := by omega
  change (if depthLimit < s.depth + 1 then malformed .nestedTooDeep else
    x >>= fun a => surface >>= fun _ => pure a) (s.placed (s.depth + 1) s.issued) = _
  rw [if_neg hroom]

/-- The levels that are left for what an outermost pointer points to. -/
abbrev pointedLevels : Nat := depthLimit - 1

lemma typeInto_of_functionPointer (slot : Slot) {s : State} {r : Text} (hd : s.depth = 0)
    (hr : s.rest = ['P', '6', 'A'] ++ r) :
    ∃ c, c.rest = r ∧ typeInto slot s =
      (functionPointer (typeWithin pointedLevels) slot >>= fun t => surface >>= fun _ => pure t)
        ((s.placed 1 s.issued).pass (.code ['P', '6', 'A']) c) := by
  let u := s.placed 1 s.issued
  obtain ⟨c, hc, hcode⟩ : ∃ c, c.rest = r ∧
      code typeCodes u = .ok (some .functionPointer) (u.pass (.code ['P', '6', 'A']) c) := by
    refine ⟨_, rfl, code_eq (by decide) hr ?_⟩
    change typeCodes.ahead? s.rest = _
    rw [hr]
    rfl
  have htype : typeCode (typeWithin pointedLevels) slot u =
      functionPointer (typeWithin pointedLevels) slot (u.pass (.code ['P', '6', 'A']) c) :=
    bind_of_ok hcode
  have hroom : s.depth < depthLimit := by
    rw [hd]
    decide
  refine ⟨c, hc, ?_⟩
  rw [typeInto, hd]
  change nested (typeCode (typeWithin pointedLevels) slot) s = _
  rw [nested_of_room _ hroom, hd]
  exact bind_of_eq htype

/-- The same signature is found at the same depth, however the nodes are numbered. -/
lemma tracks_freeSignature {k d levels : Nat} {nt' : Slot → ReadM TypeTree}
    (hnt : TracksTypes k d levels nt nt') :
    Tracks k d (freeSignature nt) (freeSignature nt') fun f f' =>
      TypeTree.Tallies levels (cdeclFunction 0 f) (cdeclFunction 0 f') := by
  refine (tracks_param hnt).bind fun result result' hresult => ?_
  refine (tracks_repeatUntil (tracks_param hnt) (lexical_paramsEnd ['@'])).bind
    fun params params' hparams => Tracks.pure ?_
  exact tallies_function rfl rfl hresult hparams

/-- At depth `k`, a type is read with `depthLimit - k` levels left. -/
lemma tracks_typeInto_typeWithin (k : Nat) :
    TracksTypes k k (depthLimit - k) typeInto (typeWithin (depthLimit - k)) := by
  intro slot slot' hslot s n hs
  rw [typeInto, hs]
  exact tracks_typeWithin (Nat.le_refl _) (Nat.le_refl k) slot slot' hslot s n hs

lemma tracks_typeWithin_typeInto (k : Nat) :
    TracksTypes k k (depthLimit - k) (typeWithin (depthLimit - k)) typeInto :=
  fun slot slot' hslot s n hs =>
    tracks_typeWithin (Nat.le_refl _) (Nat.le_refl k) slot slot' hslot s n hs

end Reading

open Reading

/-! ### The two names -/

/-- The decorated name of a free function with the `cdecl` convention, of which `b` spells the
result and the parameters. -/
def freeName (n b : Text) : Text := '?' :: n ++ "YA".toList ++ b ++ closingMark

/-- The decorated name of a pointer to such a function. -/
def pointerName (n b : Text) : Text := '?' :: n ++ "3P6A".toList ++ b ++ closingMark

/-- The text spells a qualified name, with its last `@`. -/
def SpellsPath (n : Text) (p : Path) : Prop := ∃ u, path (.start n) = .ok p u ∧ u.rest = []

instance (n : Text) (p : Path) : Decidable (SpellsPath n p) :=
  match h : path (.start n) with
  | .ok q u => decidable_of_iff (q = p ∧ u.rest = []) (by simp [SpellsPath, h])
  | .error _ _ => isFalse (by simp [SpellsPath, h])

/-! ### Where the signature begins -/

/-- The signature that `b` spells comes next, one level deep and behind one node. -/
structure Awaits (b : Text) (T : NameTable) (s : State) : Prop where
  rest : s.rest = b ++ closingMark
  depth : s.depth = 1
  issued : s.issued = 1
  names : s.names = T

/-- A path is read behind the mark as it is read alone. -/
lemma heading_of_spelling {n w r : Text} {p : Path} {e : Entity} {u : State}
    (hu : path (.start n) = .ok p u) (hend : u.rest = []) (hw : w ≠ [])
    (hcode : entityCodes.ahead? (w ++ r) = some (w, e)) :
    ∃ v, heading (.start ('?' :: (n ++ (w ++ r)))) = .ok (.decorated e p) v ∧ v.rest = r ∧
      v.names = u.names := by
  let t := '?' :: (n ++ (w ++ r))
  obtain ⟨c, hc, hmark⟩ : ∃ c, c.rest = n ++ (w ++ r) ∧
      accept ['?'] (.start t) = .ok true ((State.start t).pass (.code ['?']) c) :=
    ⟨_, rfl, accept_eq (by decide) rfl⟩
  have htwin : Respelling.unchanged.Twin (.start n) ((State.start t).pass (.code ['?']) c) :=
    ⟨rfl, rfl, rfl⟩
  have hahead : ∀ x, (State.start n).rest = x ++ u.rest → c.rest = x ++ (w ++ r) := by
    intro x hx
    rw [hend, List.append_nil] at hx
    rw [hc, ← hx]
    rfl
  obtain ⟨v, ls, hv, hrest, htwin, -⟩ :=
    (Respelling.retraces_path (.start n)).elsewhere runs_path hu htwin hahead
  obtain ⟨c, hc, hentity⟩ : ∃ c, c.rest = r ∧
      code entityCodes v = .ok (some e) (v.pass (.code w) c) :=
    ⟨_, rfl, code_eq hw hrest (hrest ▸ hcode)⟩
  have hheading : heading (.start t) = .ok (.decorated e p) (v.pass (.code w) c) := by
    rw [heading, bind_of_ok hmark]
    exact (bind_of_ok hv).trans (bind_of_ok hentity)
  exact ⟨_, hheading, hc, htwin.tables.symm⟩

/-- Read one level deep, the name of a free function comes down to its signature. -/
lemma symbol_of_freeName {n b : Text} {p : Path} {u : State} (hu : path (.start n) = .ok p u)
    (hend : u.rest = []) (hb : b.head? ≠ some '?') :
    ∃ s, Awaits b u.names s ∧
      symbol ((State.start (freeName n b)).placed 1 0) =
        (freeSignature typeInto >>= fun f => pure { path := p, type := cdeclFunction 0 f }) s := by
  have htext : freeName n b = '?' :: (n ++ (['Y'] ++ 'A' :: (b ++ closingMark))) := by
    simp [freeName]
  obtain ⟨v, hv, hrest, hnames⟩ :=
    heading_of_spelling (r := 'A' :: (b ++ closingMark)) hu hend (w := ['Y']) (by decide) rfl
  rw [← htext] at hv
  have hheading : heading ((State.start (freeName n b)).placed 1 0) =
      .ok (.decorated .freeFunction p) (v.placed 1 0) := by
    rw [lexical_heading, hv]
    rfl
  have hq : (b ++ closingMark).head? ≠ some '?' := by
    cases b with
    | nil => decide
    | cons c b => exact hb
  obtain ⟨c, hc, hfunction⟩ := freeFunction_eq (s := v.placed 1 0) hrest hq
  refine ⟨((v.placed 1 0).pass (.code ['A']) c).placed 1 1, ⟨hc, rfl, rfl, hnames⟩, ?_⟩
  rw [symbol, bind_of_ok hheading, body]
  rw [bind_of_eq hfunction]
  simp only [bind_assoc, pure_bind]
  rfl

/-- The name of a pointer comes down to what it points to, one level deep. -/
lemma symbol_of_pointerName {n b : Text} {p : Path} {u : State} (hu : path (.start n) = .ok p u)
    (hend : u.rest = []) :
    ∃ s, Awaits b u.names s ∧ s.lexemes.head? = some (.code ['P', '6', 'A']) ∧
      symbol (.start (pointerName n b)) =
        (functionPointer (typeWithin pointedLevels) { serial := 0, qualifiers := {} } >>=
          fun t => surface >>= fun _ => pure { path := p, type := t }) s := by
  have htext : pointerName n b =
      '?' :: (n ++ (['3'] ++ (['P', '6', 'A'] ++ (b ++ closingMark)))) := by
    simp [pointerName]
  obtain ⟨v, hv, hrest, hnames⟩ := heading_of_spelling
    (r := ['P', '6', 'A'] ++ (b ++ closingMark)) hu hend (w := ['3']) (by decide) rfl
  rw [← htext] at hv
  obtain ⟨hdepth, hissued⟩ := lexical_heading.counts hv
  have hv' : v = v.placed 0 0 := by
    have hself := v.placed_self
    rw [hdepth, hissued] at hself
    exact hself.symm
  obtain ⟨c, hc, htype⟩ := typeInto_of_functionPointer { serial := 0, qualifiers := {} }
    (s := v.placed 0 1) rfl hrest
  refine ⟨(v.placed 1 1).pass (.code ['P', '6', 'A']) c, ⟨hc, rfl, rfl, hnames⟩, rfl, ?_⟩
  rw [symbol, bind_of_ok hv, hv', body, param, bind_assoc, bind_of_ok (issue_eq .unknown {} _)]
  refine (bind_of_eq htype).trans ?_
  simp only [bind_assoc, pure_bind]
  rfl

/-! ### The same function, pointed to -/

section Pointed

variable {b : Text} {T : NameTable} {s s' u : State} {slot : Slot}

/-- A pointer is read behind one name as it is read behind another. -/
lemma functionPointer_elsewhere {a : TypeTree} (hs : Awaits b T s) (hs' : Awaits b T s')
    (h : functionPointer (typeWithin pointedLevels) slot s = .ok a u) :
    ∃ u' ls, functionPointer (typeWithin pointedLevels) slot s' = .ok a u' ∧ u'.rest = u.rest ∧
      u.lexemes = ls ++ s.lexemes ∧ u'.lexemes = ls ++ s'.lexemes := by
  have htwin : Respelling.unchanged.Twin s s' := by
    refine ⟨?_, ?_, ?_⟩
    · rw [hs.depth, hs'.depth]
    · rw [hs.issued, hs'.issued]
    · exact hs.names.trans hs'.names.symm
  have hretraces := Respelling.retraces_functionPointer (R := .unchanged)
    (Respelling.retraces_typeWithin pointedLevels) slot s
  have hruns := runs_of_built (built_functionPointer (built_typeWithin pointedLevels) slot)
  obtain ⟨u', ls, hu', hrest, -, hl, hl'⟩ := hretraces.elsewhere hruns h htwin fun w hw => by
    rw [hs'.rest, ← hs.rest, hw]
  exact ⟨u', ls, hu', hrest, hl, hl'⟩

/-- A signature in front of `@Z` is that of a function which is pointed to. -/
lemma functionPointer_of_signature (slot : Slot) {f : TypeTree × List TypeTree} (hs : Awaits b T s)
    (h : freeSignature typeInto s = .ok f u) (hu : u.rest = closingMark) :
    ∃ f' v, functionPointer (typeWithin pointedLevels) slot s =
        .ok (.mk (slot.node .pointer) (some (cdeclFunction 1 f')) []) v ∧
      (cdeclFunction 0 f).unnumbered = (cdeclFunction 0 f').unnumbered := by
  have hplaced : s = (s.placed 1 2).placed 1 1 := by
    have hself := s.placed_self
    rw [hs.depth, hs.issued] at hself
    exact hself.symm
  rw [hplaced] at h
  obtain ⟨f', v, m, hfree, htallies, rfl⟩ :=
    (tracks_freeSignature (tracks_typeWithin_typeInto 1)).of_deeper (s := s.placed 1 2) rfl h
  obtain ⟨w, hpointed⟩ := pointedSignature_of_free hfree hu
  refine ⟨f', w, ?_, htallies.unnumbered.symm⟩
  rw [functionPointer_eq, hs.depth, hs.issued]
  exact bind_of_ok hpointed

/-- A function that is pointed to has the signature of a free function. -/
lemma signature_of_functionPointer {a : TypeTree} {ls : List Lexeme} (hs : Awaits b T s)
    (h : functionPointer (typeWithin pointedLevels) slot s = .ok a u) (hu : u.rest = [])
    (hl : u.lexemes = .code closingMark :: ls) :
    ∃ f f' v, freeSignature typeInto s = .ok f v ∧ v.rest = closingMark ∧
      a = .mk (slot.node .pointer) (some (cdeclFunction 1 f')) [] ∧
      (cdeclFunction 0 f).unnumbered = (cdeclFunction 0 f').unnumbered := by
  rw [functionPointer_eq, hs.depth, hs.issued] at h
  obtain ⟨f', w, hpointed, hnext⟩ := bind_eq_ok_iff.1 h
  cases hnext
  obtain ⟨v, hv, hfree⟩ := freeSignature_of_pointed hpointed hu hl
  obtain ⟨f, x, m, hx, htallies, rfl⟩ :=
    (tracks_freeSignature (tracks_typeInto_typeWithin 1)).of_deeper hs.depth hfree
  exact ⟨f, f', x, hx, hv, rfl, htallies.unnumbered⟩

end Pointed

/-- The first symbol is a pointer without qualifiers, and the second is the `cdecl` function that it
points to, under the same name. -/
structure PointsTo (s' s : Symbol) : Prop where
  path : s'.path = s.path
  function : s.type.kind = .function
  convention : s.convention = some .cdecl
  type : s'.type.unnumbered = .mk { kind := .pointer } (some s.type.unnumbered) []

lemma pointsTo_of_signature {s : Symbol} {p : Path} {f f' : TypeTree × List TypeTree} {levels : Nat}
    (hs : Resembles levels s { path := p, type := cdeclFunction 0 f })
    (hf : (cdeclFunction 0 f).unnumbered = (cdeclFunction 0 f').unnumbered) :
    PointsTo { path := p, type := .mk { kind := .pointer } (some (cdeclFunction 1 f')) [] } s := by
  have htype := hs.type.unnumbered
  have hnode : { s.type.node with serial := 0 } = (cdeclFunction 0 f).node := by
    cases h : s.type with
    | mk node inner args =>
      rw [h] at htype
      exact (TypeTree.mk.inj htype).1
  refine ⟨hs.path.symm, ?_, ?_, ?_⟩
  · exact congrArg Node.kind hnode
  · exact congrArg Node.convention hnode
  · rw [htype, hf]
    rfl

/-- The name of the pointer is read where the name of the function is read one level deep. -/
lemma pointer_of_function {n b : Text} {p : Path} {s : Symbol} {v : State} (hn : SpellsPath n p)
    (hb : b.head? ≠ some '?') (h : symbol ((State.start (freeName n b)).placed 1 0) = .ok s v)
    (hv : v.rest = closingMark) :
    ∃ f f' w, s = { path := p, type := cdeclFunction 0 f } ∧
      (cdeclFunction 0 f).unnumbered = (cdeclFunction 0 f').unnumbered ∧
      symbol (.start (pointerName n b)) =
        .ok { path := p, type := .mk { kind := .pointer } (some (cdeclFunction 1 f')) [] } w := by
  obtain ⟨u, hu, hend⟩ := hn
  obtain ⟨free, hfree, hfreeSymbol⟩ := symbol_of_freeName hu hend hb
  obtain ⟨pointer, hpointer, -, hpointerSymbol⟩ := symbol_of_pointerName (b := b) hu hend
  rw [hfreeSymbol] at h
  obtain ⟨f, w, hf, hnext⟩ := bind_eq_ok_iff.1 h
  cases hnext
  obtain ⟨f', x, hx, hsame⟩ :=
    functionPointer_of_signature { serial := 0, qualifiers := {} } hfree hf hv
  obtain ⟨y, -, hy, -⟩ :=
    functionPointer_elsewhere hfree hpointer hx
  exact ⟨f, f', _, rfl, hsame, hpointerSymbol.trans (bind_of_ok hy)⟩

/-- The name of the function is read one level deep where the name of the pointer is read. -/
lemma function_of_pointer {n b : Text} {p : Path} {s' : Symbol} {v : State} (hn : SpellsPath n p)
    (hb : b.head? ≠ some '?') (h : symbol (.start (pointerName n b)) = .ok s' v)
    (hv : v.rest = []) (hl : v.lexemes.head? = some (.code closingMark)) :
    ∃ f f' w, s' = { path := p, type := .mk { kind := .pointer } (some (cdeclFunction 1 f')) [] } ∧
      (cdeclFunction 0 f).unnumbered = (cdeclFunction 0 f').unnumbered ∧
      symbol ((State.start (freeName n b)).placed 1 0) =
        .ok { path := p, type := cdeclFunction 0 f } w ∧ w.rest = closingMark := by
  obtain ⟨u, hu, hend⟩ := hn
  obtain ⟨free, hfree, hfreeSymbol⟩ := symbol_of_freeName hu hend hb
  obtain ⟨pointer, hpointer, hcode, hpointerSymbol⟩ := symbol_of_pointerName (b := b) hu hend
  rw [hpointerSymbol] at h
  obtain ⟨a, w, ha, hnext⟩ := bind_eq_ok_iff.1 h
  cases hnext
  obtain ⟨x, ls, hx, hxrest, hlw, hlx⟩ :=
    functionPointer_elsewhere hpointer hfree ha
  change w.lexemes.head? = _ at hl
  -- the closing mark is behind the code of the pointer, and so behind the other name, too
  obtain ⟨ls', rfl⟩ : ∃ ls', ls = .code closingMark :: ls' := by
    cases ls with
    | nil =>
      rw [hlw, List.nil_append, hcode] at hl
      cases hl
    | cons l ls' =>
      rw [hlw] at hl
      cases hl
      exact ⟨ls', rfl⟩
  have hclosed : x.lexemes = .code closingMark :: (ls' ++ free.lexemes) := hlx
  obtain ⟨f, f', y, hy, hyrest, rfl, hsame⟩ :=
    signature_of_functionPointer hfree hx (hxrest.trans hv) hclosed
  exact ⟨f, f', y, rfl, hsame, hfreeSymbol.trans (bind_of_ok hy), hyrest⟩

/-- **The two readers of function types agree**: where the name of a free function is read up to its
last `@Z`, and none of its type codes is nested more than 127 deep, the name of a pointer is read as
a pointer to that function; and where the name of a pointer is read to its end, with the last `@Z`
closing the parameters, the name of the free function is read up to there as what is pointed to. -/
theorem function_readers_agree {n b : Text} {p : Path} (hn : SpellsPath n p)
    (hb : b.head? ≠ some '?') :
    (∀ s, parse (freeName n b) = .ok s → unread (freeName n b) = closingMark →
      NestedAtMost 127 (freeName n b) → ∃ s', parse (pointerName n b) = .ok s' ∧ PointsTo s' s) ∧
    ∀ s', parse (pointerName n b) = .ok s' → unread (pointerName n b) = [] →
      (lexemes (pointerName n b)).getLast? = some (.code closingMark) →
      ∃ s, parse (freeName n b) = .ok s ∧ unread (freeName n b) = closingMark ∧ PointsTo s' s := by
  have htracks : Tracks 0 1 symbol symbol (Resembles 127) := tracks_symbol (by decide) (by decide)
  refine ⟨fun s hs hrest hnested => ?_, fun s' hs' hrest hlast => ?_⟩
  · obtain ⟨v, hv⟩ := ok_of_parse hs
    rw [unread, decoder_of_ok hv] at hrest
    rcases htracks.of_shallower 0 rfl hv with ⟨s₁, m, hdeep, hresembles⟩ | ⟨rest, w, hdeep⟩
    · obtain ⟨f, f', w, rfl, hsame, hpointer⟩ := pointer_of_function hn hb hdeep hrest
      refine ⟨_, ?_, pointsTo_of_signature hresembles hsame⟩
      rw [parse, decoder_of_ok hpointer]
    · exact absurd (hnested _ w hdeep) (by simp [Failure.isTooDeep])
  · obtain ⟨v, hv⟩ := ok_of_parse hs'
    rw [unread, decoder_of_ok hv] at hrest
    rw [lexemes, decoder_of_ok hv, List.getLast?_reverse] at hlast
    obtain ⟨f, f', w, rfl, hsame, hdeep, hw⟩ := function_of_pointer hn hb hv hrest hlast
    obtain ⟨s, x, m, hx, hresembles, rfl⟩ := htracks.of_deeper rfl hdeep
    refine ⟨s, ?_, ?_, pointsTo_of_signature hresembles hsame⟩
    · rw [parse, decoder_of_ok hx]
    · rw [unread, decoder_of_ok hx]
      exact hw

/-- A function that takes a pointer to another one and refers back to its own namespace. Where its
result is 127 times a pointer, its codes are nested 128 deep: that many levels are too many for what
is pointed to. -/
theorem function_readers_agree_callback :
    SpellsPath "f@ns@@".toList ["f".toList, "ns".toList] ∧
    (∃ s s', parse "?f@ns@@YAHP6AXPADH@ZV1@@Z".toList = .ok s ∧
      parse "?f@ns@@3P6AHP6AXPADH@ZV1@@Z".toList = .ok s' ∧ s.type.args.length = 2 ∧
      PointsTo s' s) ∧
    (parse (freeName "f@@".toList
      ((List.replicate 127 "PA".toList).flatten ++ ['H']))).toOption.isSome = true ∧
    (parse (pointerName "f@@".toList
      ((List.replicate 127 "PA".toList).flatten ++ ['H']))).toOption.isNone = true := by
  have hpath : SpellsPath "f@ns@@".toList ["f".toList, "ns".toList] := by
    decide +kernel
  have hagree := function_readers_agree (b := "HP6AXPADH@ZV1@".toList) hpath (by decide)
  obtain ⟨s, hs, hlength⟩ := exists_of_test (t := "?f@ns@@YAHP6AXPADH@ZV1@@Z".toList)
    (p := fun s => s.type.args.length == 2) (by decide +kernel)
  obtain ⟨s', hs', hpoints⟩ := hagree.1 s hs (by decide +kernel) (by decide +kernel)
  exact ⟨hpath, ⟨s, s', hs, hs', by simpa using hlength, hpoints⟩, by decide +kernel,
    by decide +kernel⟩

end Undecorate
