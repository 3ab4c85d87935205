import Undecorate.Proofs.Encoding.Code
import Undecorate.Proofs.Reading.Formed
import Undecorate.Proofs.Reading.Lookahead

/-!
Reading uses up the text.

`Spends x size` says that `x` moves past `size a` characters at least before it gives `a`, and that
no loop in it runs out of rounds, from whatever state it starts. A type costs at least one character
for each node of its tree: an array costs one for each extent, so that a number of extents beyond
the text that is left only makes the reading fail. From this every loop ends by itself, and the tree
of a symbol is smaller than the text.
-/

namespace Undecorate

namespace TypeTree

lemma length_walk_some (node : Node) (inner : TypeTree) (args : List TypeTree) :
    (mk node (some inner) args).walk.length =
      1 + inner.walk.length + (args.map fun t => t.walk.length).sum := by
  rw [walk, walkInner, List.length_cons, List.length_append, Encoding.length_walkArgs]
  omega

lemma length_walk_none (node : Node) (args : List TypeTree) :
    (mk node none args).walk.length = 1 + (args.map fun t => t.walk.length).sum := by
  rw [walk, walkInner, List.length_cons, List.nil_append, Encoding.length_walkArgs]
  omega

lemma length_walk_leaf (node : Node) : (leaf node).walk.length = 1 := length_walk_none node []

lemma length_walk_pos (t : TypeTree) : 0 < t.walk.length :=
  List.length_pos_of_mem (self_mem_walk t)

end TypeTree

namespace Reading

variable {α β : Type}

/-- Before `x` gives `a` it moves past `size a` characters, and it does not run out of rounds. -/
structure Spends (x : ReadM α) (size : α → Nat) : Prop where
  moves : ∀ s a u, x s = .ok a u → u.rest.length + size a ≤ s.rest.length
  ends : ∀ s u, x s ≠ .error .endless u

variable {f : α → Nat} {g : β → Nat}

/-! ### Rules -/

lemma bind_congr_right {x : ReadM α} {y y' : α → ReadM β} {s : State}
    (h : ∀ a u, x s = .ok a u → y a u = y' a u) : (x >>= y) s = (x >>= y') s := by
  cases hx : x s with
  | error e u => rw [bind_of_error hx, bind_of_error hx]
  | ok a u => rw [bind_of_ok hx, bind_of_ok hx, h a u hx]

/-- A step passes a part of the text that is long enough, or fails for good reason. -/
lemma spends_of_cases {x : ReadM α}
    (h : ∀ s, (∃ a u w, x s = .ok a u ∧ s.rest = w ++ u.rest ∧ f a ≤ w.length) ∨
      ∃ e u, x s = .error e u ∧ e ≠ .endless) : Spends x f where
  moves s a u hx := by
    rcases h s with ⟨b, v, w, hv, hw, hf⟩ | ⟨e, v, hv, -⟩ <;> rw [hv] at hx <;> cases hx
    rw [hw, List.length_append]
    omega
  ends s u hx := by
    rcases h s with ⟨b, v, w, hv, -⟩ | ⟨e, v, hv, he⟩ <;> rw [hv] at hx <;> cases hx
    exact he rfl

lemma spends_of_error {x : ReadM α} (h : ∀ s, ∃ e u, x s = .error e u ∧ e ≠ .endless) :
    Spends x f :=
  spends_of_cases fun s => .inr (h s)

/-- A step that leaves the text alone. -/
lemma spends_of_stay {x : ReadM α} (h : ∀ s, ∃ a u, x s = .ok a u ∧ u.rest = s.rest ∧ f a = 0) :
    Spends x f := by
  refine spends_of_cases fun s => ?_
  obtain ⟨a, u, hx, hu, hf⟩ := h s
  exact .inl ⟨a, u, [], hx, hu.symm, Nat.le_of_eq hf⟩

lemma Spends.pure {a : α} (h : f a = 0) : Spends (pure a) f :=
  spends_of_stay fun s => ⟨a, s, rfl, rfl, h⟩

/-- What the first step moves past counts for both. -/
lemma Spends.bind {x : ReadM α} {y : α → ReadM β} (hx : Spends x f)
    (hy : ∀ a, Spends (y a) fun b => g b - f a) : Spends (x >>= y) g where
  moves s b v h := by
    obtain ⟨a, u, ha, hb⟩ := bind_eq_ok_iff.1 h
    have h₁ := hx.moves s a u ha
    have h₂ := (hy a).moves u b v hb
    omega
  ends s v h := by
    rcases bind_eq_error_iff.1 h with h | ⟨a, u, -, h⟩
    · exact hx.ends s v h
    · exact (hy a).ends u v h

lemma Spends.mono {x : ReadM α} {f' : α → Nat} (h : Spends x f) (hf : ∀ a, f' a ≤ f a) :
    Spends x f' where
  moves s a u hx := by
    have h₁ := h.moves s a u hx
    have h₂ := hf a
    omega
  ends := h.ends

/-! ### Loops -/

section Loops

variable {stop : ReadM Bool} {step : ReadM α} {k : Nat}

lemma length_of_repeatWithin (hstop : Spends stop fun b => cond b k 0) (hstep : Spends step f)
    {fuel : Nat} {s u : State} {as : List α} (h : repeatWithin stop step fuel s = .ok as u) :
    u.rest.length + (k + (as.map f).sum) ≤ s.rest.length := by
  induction fuel generalizing s as with
  | zero => cases h
  | succ fuel ih =>
    obtain ⟨b, v, hb, h⟩ := bind_eq_ok_iff.1 h
    have hv := hstop.moves s b v hb
    cases b with
    | true =>
      cases h
      simpa using hv
    | false =>
      obtain ⟨a, w, ha, h⟩ := bind_eq_ok_iff.1 h
      obtain ⟨rest, x, hrest, h⟩ := bind_eq_ok_iff.1 h
      cases h
      have hw := hstep.moves v a w ha
      have hx := ih hrest
      simp only [cond_false, List.map_cons, List.sum_cons] at hv ⊢
      omega

/-- Where every step costs something, the rounds cannot all be used up. -/
lemma repeatWithin_ne_endless (hstop : Spends stop fun b => cond b k 0) (hstep : Spends step f)
    (hpos : ∀ a, 0 < f a) {fuel : Nat} {s u : State} (hs : s.rest.length < fuel) :
    repeatWithin stop step fuel s ≠ .error .endless u := by
  induction fuel generalizing s with
  | zero => omega
  | succ fuel ih =>
    intro h
    rcases bind_eq_error_iff.1 h with h | ⟨b, v, hb, h⟩
    · exact hstop.ends s u h
    · have hv := hstop.moves s b v hb
      cases b with
      | true => cases h
      | false =>
        rcases bind_eq_error_iff.1 h with h | ⟨a, w, ha, h⟩
        · exact hstep.ends v u h
        · have hw := hstep.moves v a w ha
          have ha := hpos a
          rcases bind_eq_error_iff.1 h with h | ⟨as, x, -, h⟩
          · exact ih (by omega) h
          · cases h

/-- How many rounds a loop is given does not matter, as long as they are more than the
characters. -/
lemma repeatWithin_eq (hstop : Spends stop fun b => cond b k 0) (hstep : Spends step f)
    (hpos : ∀ a, 0 < f a) {n m : Nat} {s : State} (hn : s.rest.length < n)
    (hm : s.rest.length < m) : repeatWithin stop step n s = repeatWithin stop step m s := by
  induction n generalizing m s with
  | zero => omega
  | succ n ih =>
    obtain ⟨m, rfl⟩ := Nat.exists_eq_succ_of_ne_zero (Nat.ne_zero_of_lt hm)
    refine bind_congr_right fun b u hb => ?_
    have hu := hstop.moves s b u hb
    cases b with
    | true => rfl
    | false =>
      refine bind_congr_right (x := step) fun a v ha => ?_
      have hv := hstep.moves u a v ha
      have := hpos a
      exact bind_of_eq (ih (by omega) (by omega))

lemma spends_repeatUntil (hstop : Spends stop fun b => cond b k 0) (hstep : Spends step f)
    (hpos : ∀ a, 0 < f a) : Spends (repeatUntil stop step) fun as => k + (as.map f).sum where
  moves _ _ _ h := length_of_repeatWithin hstop hstep h
  ends _ _ := repeatWithin_ne_endless hstop hstep hpos (Nat.lt_succ_self _)

lemma spends_repeatTimes (hstep : Spends step f) (n : Nat) :
    Spends (repeatTimes step n) fun as => (as.map f).sum := by
  induction n with
  | zero => exact Spends.pure rfl
  | succ n ih =>
    refine hstep.bind fun a => ?_
    refine ih.bind fun as => Spends.pure ?_
    simp only [List.map_cons, List.sum_cons]
    omega

/-- A counted loop that has more rounds than there are characters fails in the same way, however
many they are. -/
lemma repeatTimes_eq (hstep : Spends step f) (hpos : ∀ a, 0 < f a) {n m : Nat} {s : State}
    (hn : s.rest.length < n) (hm : s.rest.length < m) :
    repeatTimes step n s = repeatTimes step m s := by
  induction n generalizing m s with
  | zero => omega
  | succ n ih =>
    obtain ⟨m, rfl⟩ := Nat.exists_eq_succ_of_ne_zero (Nat.ne_zero_of_lt hm)
    refine bind_congr_right fun a u ha => ?_
    have hu := hstep.moves s a u ha
    have := hpos a
    exact bind_of_eq (ih (by omega) (by omega))

end Loops

lemma spends_nested {x : ReadM α} (h : Spends x f) : Spends (nested x) f where
  moves s a u hu := by
    rw [nested_eq] at hu
    split at hu
    · cases hu
    · split at hu
      · next b v hv =>
        cases hu
        have hmoves := h.moves _ _ _ hv
        exact hmoves
      · cases hu
  ends s u hu := by
    rw [nested_eq] at hu
    split at hu
    · cases hu
    · split at hu
      · cases hu
      · next e v hv =>
        cases hu
        exact h.ends _ _ hv

/-! ### Lexemes -/

lemma spends_accept {mark : Text} (hne : mark ≠ []) :
    Spends (accept mark) fun b => cond b 1 0 := by
  refine spends_of_cases fun s => .inl ?_
  rcases accept_cases hne s with ⟨c, hr, hc⟩ | ⟨-, hc⟩
  · exact ⟨_, _, mark, hc, hr, List.length_pos_iff.2 hne⟩
  · exact ⟨_, _, [], hc, rfl, Nat.le_refl 0⟩

lemma spends_code {table : CodeTable α} (hne : ∀ e ∈ table, e.1 ≠ []) :
    Spends (code table) fun o => o.toList.length := by
  refine spends_of_cases fun s => .inl ?_
  rcases code_cases hne s with ⟨w, a, c, hmem, -, hr, hc⟩ | ⟨-, hc⟩
  · exact ⟨_, _, w, hc, hr, List.length_pos_iff.2 (hne _ hmem)⟩
  · exact ⟨_, _, [], hc, rfl, Nat.le_refl 0⟩

lemma spends_letter (table : LetterTable α) :
    Spends (letter table) fun o => o.toList.length := by
  refine spends_of_cases fun s => .inl ?_
  rcases letter_cases table s with ⟨x, a, c, -, -, hr, hc⟩ | ⟨-, hc⟩
  · exact ⟨_, _, [x], hc, hr, Nat.le_refl 1⟩
  · exact ⟨_, _, [], hc, rfl, Nat.le_refl 0⟩

lemma spends_issue (kind : Kind) (q : Qualifiers) : Spends (issue kind q) fun _ => 0 :=
  spends_of_stay fun s => ⟨_, _, issue_eq kind q s, rfl, rfl⟩

lemma spends_exhausted : Spends exhausted fun _ => 0 :=
  spends_of_stay fun s => ⟨_, s, rfl, rfl, rfl⟩

lemma spends_numeralAs (lexeme : Text → Int → Lexeme) : Spends (numeralAs lexeme) fun _ => 1 := by
  refine spends_of_cases fun s => ?_
  rcases numeralAs_cases lexeme s with ⟨w, n, c, hw, hr, -, hn⟩ | ⟨w, c, -, hn⟩
  · exact .inl ⟨_, _, w, hn, hr, List.length_pos_iff.2 hw⟩
  · exact .inr ⟨_, _, hn, nofun⟩

lemma spends_closedName (lexeme : Text → Lexeme) : Spends (closedName lexeme) fun _ => 1 := by
  refine spends_of_cases fun s => ?_
  rcases closedName_cases lexeme s with ⟨name, c, -, hr, hc⟩ | ⟨-, hc⟩
  · exact .inl ⟨_, _, name ++ ['@'], hc, hr, by simp⟩
  · exact .inr ⟨_, _, hc, nofun⟩

/-- A part that is written out has its `@`, and a reference has its digit. -/
lemma spends_namePart : Spends namePart fun _ => 1 := by
  refine spends_of_cases fun s => ?_
  rcases namePart_cases s with ⟨name, c, -, -, hr, hc⟩ | ⟨d, c, name, hd, -, hc⟩ | ⟨why, u, -, hc⟩
  · exact .inl ⟨_, _, name ++ ['@'], hc, hr, by simp⟩
  · exact .inl ⟨_, _, [Nat.digitChar d], hc, digit?_eq_some hd, Nat.le_refl 1⟩
  · exact .inr ⟨_, _, hc, nofun⟩

/-- A name costs one character for each part, and one for its end. -/
lemma spends_path : Spends path fun p => 1 + p.length :=
  (spends_repeatUntil (spends_accept (by decide)) spends_namePart fun _ => Nat.one_pos).mono
    fun p => by simp

/-! ### Codes -/

/-- A code that has to be there. -/
lemma spends_required {x : ReadM (Option α)} {y : Option α → ReadM β} {why : Text → Malformed}
    (hx : Spends x fun o => o.toList.length) (hsome : ∀ a, ∃ b, y (some a) = pure b)
    (hnone : y none = malformed why) : Spends (x >>= y) fun _ => 1 := by
  refine hx.bind fun o => ?_
  cases o with
  | none =>
    rw [hnone]
    exact spends_of_error fun s => ⟨_, s, rfl, nofun⟩
  | some a =>
    obtain ⟨b, hb⟩ := hsome a
    rw [hb]
    exact Spends.pure rfl

lemma spends_primitive : Spends primitive fun _ => 1 := by
  refine (spends_letter primitiveLetters).bind fun o => ?_
  cases o with
  | some p => exact Spends.pure rfl
  | none => exact spends_required (spends_code (by decide)) (fun p => ⟨p, rfl⟩) rfl

lemma spends_storage : Spends storage fun _ => 0 :=
  (spends_letter storageLetters).bind fun _ => Spends.pure (Nat.zero_sub _)

lemma spends_returnStorage : Spends returnStorage fun _ => 0 :=
  (spends_code (by decide)).bind fun _ => Spends.pure (Nat.zero_sub _)

lemma spends_arrayStorage : Spends arrayStorage fun _ => 0 := by
  refine (spends_accept (by decide)).bind fun marked => ?_
  cases marked with
  | false => exact Spends.pure rfl
  | true =>
    refine Spends.mono (f := fun _ => 1) ?_ fun _ => Nat.zero_le 1
    exact spends_required (spends_code (by decide)) (fun q => ⟨some q, rfl⟩) rfl

lemma spends_functionClass : Spends functionClass fun _ => 1 :=
  spends_required (spends_letter functionClassLetters) (fun c => ⟨c, rfl⟩) rfl

lemma spends_convention : Spends convention fun _ => 1 :=
  spends_required (spends_letter conventionLetters) (fun c => ⟨c, rfl⟩) rfl

/-! ### Types -/

/-- A type costs a character for each of its nodes. -/
def SpendsTypes (nt : Slot → ReadM TypeTree) : Prop :=
  ∀ slot, Spends (nt slot) fun t => t.walk.length

section Productions

variable {nt : Slot → ReadM TypeTree} (hnt : SpendsTypes nt)

include hnt

lemma spends_param : Spends (param nt) fun t => t.walk.length :=
  (spends_issue .unknown {}).bind fun slot => hnt slot

lemma spends_listedParam (unclosed : Malformed) :
    Spends (listedParam nt unclosed) fun t => t.walk.length := by
  refine spends_exhausted.bind fun b => ?_
  cases b with
  | true => exact spends_of_error fun s => ⟨_, s, rfl, nofun⟩
  | false => exact spends_param hnt

/-- The node of a tag is paid for by its code, and its name comes for nothing. -/
lemma spends_aggregate (key : TagKey) (slot : Slot) :
    Spends (aggregate nt key slot) fun t => t.walk.length - 1 := by
  refine (spends_accept (by decide)).bind fun marked => ?_
  cases marked with
  | false =>
    refine spends_path.bind fun p => Spends.pure ?_
    rw [TypeTree.length_walk_leaf]
    omega
  | true =>
    refine (spends_closedName .base).bind fun base => ?_
    refine (spends_repeatUntil (spends_accept (by decide)) (spends_listedParam hnt _)
      TypeTree.length_walk_pos).bind fun args => Spends.pure ?_
    rw [TypeTree.length_walk_none]
    omega

omit hnt in
lemma spends_enumeration (slot : Slot) :
    Spends (enumeration slot) fun t => t.walk.length - 1 := by
  refine spends_path.bind fun p => Spends.pure ?_
  rw [TypeTree.length_walk_leaf]
  omega

omit hnt in
lemma spends_closeParams : Spends closeParams fun b => cond b 1 0 := by
  refine (spends_accept (by decide)).bind fun closed => ?_
  cases closed with
  | true => exact Spends.pure rfl
  | false => exact spends_accept (by decide)

/-- The function that is pointed to is paid for by what closes its parameters. -/
lemma spends_functionPointer (slot : Slot) :
    Spends (functionPointer nt slot) fun t => t.walk.length - 1 := by
  refine (spends_issue .function {}).bind fun function => ?_
  refine (spends_param hnt).bind fun result => ?_
  refine (spends_repeatUntil spends_closeParams (spends_listedParam hnt _)
    TypeTree.length_walk_pos).bind fun params => Spends.pure ?_
  rw [TypeTree.length_walk_some, TypeTree.length_walk_some, List.map_nil, List.sum_nil]
  omega

lemma spends_indirection (kind : Kind) (slot : Slot) :
    Spends (indirection nt kind slot) fun t => t.walk.length - 1 := by
  refine (spends_accept (by decide)).bind fun _ => ?_
  refine spends_storage.bind fun q => ?_
  refine (spends_issue .unknown q).bind fun target => ?_
  refine (hnt target).bind fun t => Spends.pure ?_
  rw [TypeTree.length_walk_some, List.map_nil, List.sum_nil]
  omega

omit hnt in
lemma spends_dimension : Spends dimension fun _ => 1 := by
  refine (spends_numeralAs .dimension).bind fun n => ?_
  split
  · exact Spends.pure rfl
  · split
    · exact spends_of_error fun s => ⟨_, s, rfl, nofun⟩
    · exact spends_of_error fun s => ⟨_, s, rfl, nofun⟩

omit hnt in
lemma spends_extent : Spends extent fun _ => 1 :=
  (spends_numeralAs _).bind fun _ => (spends_issue .unknown {}).bind fun _ => Spends.pure rfl

omit hnt in
lemma spends_extents (n : Nat) : Spends (repeatTimes extent n) List.length :=
  (spends_repeatTimes spends_extent n).mono fun rows => by simp

omit hnt in
lemma length_walk_arrayOf (element : TypeTree) (slot : Slot) (rows : List (Int × Slot)) :
    (arrayOf element slot rows).walk.length = rows.length + element.walk.length := by
  induction rows generalizing slot with
  | nil => rw [arrayOf, List.length_nil, Nat.zero_add]
  | cons row rows ih =>
    obtain ⟨n, next⟩ := row
    rw [arrayOf, TypeTree.length_walk_some, ih next, List.map_nil, List.sum_nil, List.length_cons]
    omega

/-- Every array of a chain is paid for by its extent. -/
lemma spends_array (slot : Slot) : Spends (array nt slot) fun t => t.walk.length - 1 := by
  refine spends_dimension.bind fun n => ?_
  refine (spends_extents n).bind fun rows => ?_
  refine spends_arrayStorage.bind fun q => ?_
  refine (hnt _).bind fun element => Spends.pure ?_
  rw [length_walk_arrayOf]
  omega

lemma spends_typeCode (slot : Slot) : Spends (typeCode nt slot) fun t => t.walk.length := by
  refine (spends_code (by decide)).bind fun o => ?_
  match o with
  | none =>
    refine spends_primitive.bind fun p => Spends.pure ?_
    rw [TypeTree.length_walk_leaf]
    rfl
  | some (.aggregate key) => exact spends_aggregate hnt key slot
  | some .enumeration => exact spends_enumeration slot
  | some .functionPointer => exact spends_functionPointer hnt slot
  | some .reference => exact spends_indirection hnt _ _
  | some .pointer => exact spends_indirection hnt _ _
  | some .constPointer => exact spends_indirection hnt _ _
  | some .array => exact spends_array hnt slot

end Productions

lemma spends_typeWithin (levels : Nat) : SpendsTypes (typeWithin levels) := by
  induction levels with
  | zero => exact fun slot => spends_nested (spends_of_error fun s => ⟨_, s, rfl, nofun⟩)
  | succ levels ih => exact fun slot => spends_nested (spends_typeCode ih slot)

lemma spends_typeInto : SpendsTypes typeInto := fun slot =>
  ⟨fun s => (spends_typeWithin (depthLimit - s.depth) slot).moves s,
    fun s => (spends_typeWithin (depthLimit - s.depth) slot).ends s⟩

/-! ### Symbols -/

lemma spends_paramsEnd (mark : Text) :
    Spends (do if ← exhausted then pure true else upcoming mark : ReadM Bool)
      fun b => cond b 0 0 := by
  refine (spends_exhausted.bind (g := fun _ => 0) fun b => ?_).mono fun b => by cases b <;> rfl
  cases b with
  | true => exact Spends.pure rfl
  | false =>
    exact spends_of_stay fun s => ⟨_, s, rfl, rfl, rfl⟩

lemma spends_params (mark : Text) :
    Spends (repeatUntil (do if ← exhausted then pure true else upcoming mark) (param typeInto))
      fun params => (params.map fun t => t.walk.length).sum :=
  (spends_repeatUntil (spends_paramsEnd mark) (spends_param spends_typeInto)
    TypeTree.length_walk_pos).mono fun params => by omega

/-- The function is paid for by its convention. -/
lemma spends_freeFunction : Spends freeFunction fun t => t.walk.length := by
  refine (spends_issue .function {}).bind fun slot => ?_
  refine spends_convention.bind fun c => ?_
  refine spends_returnStorage.bind fun q => ?_
  refine (spends_issue .unknown q).bind fun resultSlot => ?_
  refine (spends_typeInto resultSlot).bind fun result => ?_
  refine (spends_params ['@']).bind fun params => Spends.pure ?_
  rw [TypeTree.length_walk_some]
  omega

lemma spends_memberResult (q : Qualifiers) :
    Spends (memberResult q) fun t => t.walk.length := by
  refine (spends_accept (by decide)).bind fun missing => ?_
  cases missing with
  | true =>
    refine (spends_issue .noReturn q).bind fun slot => Spends.pure ?_
    rw [TypeTree.length_walk_leaf]
    rfl
  | false =>
    refine (spends_issue .unknown q).bind fun slot => ?_
    refine (spends_typeInto slot).bind fun t => ?_
    exact (spends_accept (by decide)).bind fun _ => Spends.pure (by simp)

/-- The function class makes up for the code that a member function lacks. -/
lemma spends_memberFunction : Spends memberFunction fun t => t.walk.length + 1 := by
  refine (spends_issue .function {}).bind fun slot => ?_
  refine spends_functionClass.bind fun cls => ?_
  refine (spends_accept (by decide)).bind fun _ => ?_
  refine spends_convention.bind fun c => ?_
  refine spends_storage.bind fun q => ?_
  refine (spends_memberResult q).bind fun result => ?_
  refine (spends_params ['Z']).bind fun params => Spends.pure ?_
  rw [TypeTree.length_walk_some]
  omega

/-- How many characters of a heading are certain: its mark, the end of its name and its code. -/
def headingLength : Heading → Nat
  | .identifier _ => 0
  | .decorated .memberFunction _ => 2
  | .decorated _ _ => 3

lemma spends_heading : Spends heading headingLength := by
  refine (spends_accept (by decide)).bind fun marked => ?_
  cases marked with
  | false =>
    exact spends_of_stay fun s => ⟨_, s, rfl, rfl, rfl⟩
  | true =>
    refine spends_path.bind fun p => ?_
    refine (spends_code (by decide)).bind fun e => Spends.pure ?_
    match e with
    | none =>
      change 2 - 1 - (1 + p.length) - 0 = 0
      omega
    | some .variable =>
      change 3 - 1 - (1 + p.length) - 1 = 0
      omega
    | some .freeFunction =>
      change 3 - 1 - (1 + p.length) - 1 = 0
      omega
    | some .memberFunction =>
      change 2 - 1 - (1 + p.length) - 1 = 0
      omega

/-- Together with its heading, a decorated name costs three characters more than its type has
nodes. -/
def bodyLength : Heading → Symbol → Nat
  | .identifier _, _ => 0
  | .decorated e p, s => s.type.walk.length + 3 - headingLength (.decorated e p)

lemma spends_body (head : Heading) : Spends (body head) (bodyLength head) := by
  match head with
  | .identifier name => exact (spends_issue .unknown {}).bind fun slot => Spends.pure rfl
  | .decorated .variable p =>
    refine (spends_param spends_typeInto).bind fun t => Spends.pure ?_
    simp [bodyLength, headingLength]
  | .decorated .freeFunction p =>
    refine spends_freeFunction.bind fun t => Spends.pure ?_
    simp [bodyLength, headingLength]
  | .decorated .memberFunction p =>
    refine spends_memberFunction.bind fun t => Spends.pure ?_
    simp [bodyLength, headingLength]

lemma symbol_ne_endless (s u : State) : symbol s ≠ .error .endless u := by
  intro h
  rcases bind_eq_error_iff.1 h with h | ⟨head, v, -, h⟩
  · exact spends_heading.ends s u h
  · exact (spends_body head).ends v u h

lemma length_walk_of_symbol {t : Text} {s : Symbol} {u : State} (ht : t.head? = some '?')
    (h : symbol (.start t) = .ok s u) : s.type.walk.length + 3 ≤ t.length := by
  obtain ⟨head, v, hhead, hbody⟩ := bind_eq_ok_iff.1 h
  obtain ⟨e, p, rfl⟩ := decorated_of_heading ht hhead
  have h₁ : v.rest.length + headingLength (.decorated e p) ≤ t.length :=
    spends_heading.moves _ _ _ hhead
  have h₂ : u.rest.length + (s.type.walk.length + 3 - headingLength (.decorated e p)) ≤
      v.rest.length := (spends_body (.decorated e p)).moves _ _ _ hbody
  omega

/-! ### Long numbers of dimensions -/

lemma ofLetters_replicate (k : Nat) :
    Numeral.ofLetters (List.replicate k 'P') + 1 = 16 ^ k := by
  induction k with
  | zero => rfl
  | succ k ih =>
    have hlast : Numeral.ofLetters (List.replicate (k + 1) 'P') =
        16 * Numeral.ofLetters (List.replicate k 'P') + 15 := by
      rw [Numeral.ofLetters, List.replicate_succ', List.foldl_append]
      rfl
    rw [hlast, pow_succ]
    omega

/-- A run of letters is a number of dimensions that is exponential in its length. -/
lemma dimension_of_letters {k : Nat} {s : State} {r : Text}
    (h : s.rest = List.replicate (k + 1) 'P' ++ '@' :: r) :
    ∃ u, dimension s = .ok (16 ^ (k + 1) - 1) u ∧ u.rest = r := by
  have hletters : ∀ x ∈ List.replicate (k + 1) 'P', Numeral.isLetterDigit x = true := by
    intro x hx
    rw [List.eq_of_mem_replicate hx]
    rfl
  obtain ⟨c, hc, hr⟩ := Encoding.magnitude?_of_letters (c := s.cursor) (by simp) hletters h
  have hsign : s.cursor.rest.head? ≠ some '?' := by
    change s.rest.head? ≠ _
    rw [h, List.replicate_succ, List.cons_append, List.head?_cons]
    decide
  have hvalue := ofLetters_replicate (k + 1)
  have hpow := Nat.one_lt_pow k.succ_ne_zero (by decide : 1 < 16)
  generalize Numeral.ofLetters (List.replicate (k + 1) 'P') = n at hc hvalue
  have hnumber := (number_eq_some_iff_of_no_sign hsign).2 ⟨n, hc, rfl⟩
  have hnumeral : numeralAs .dimension s = .ok (n : Int) (s.pass (.dimension (s.upTo c) n) c) := by
    simp only [numeralAs, hnumber]
  refine ⟨s.pass (.dimension (s.upTo c) n) c, ?_, hr⟩
  rw [dimension, bind_of_ok hnumeral, if_pos (by omega)]
  change EStateM.Result.ok n _ = _
  rw [← hvalue, Nat.add_sub_cancel]

/-! ### Progress -/

/-- Whatever `x` gives, it has moved past a character. -/
def Advances (x : ReadM α) : Prop :=
  ∀ s a u, x s = .ok a u → u.rest.length < s.rest.length

lemma Spends.advances {x : ReadM α} (h : Spends x f) (hpos : ∀ a, 0 < f a) : Advances x := by
  intro s a u hx
  have h₁ := h.moves s a u hx
  have h₂ := hpos a
  omega

/-- With however many rounds beyond the number of characters, the loop ends in the same way: by its
own test or a failure of a step, and not for want of rounds. -/
def EndsByItself (stop : ReadM Bool) (step : ReadM α) : Prop :=
  ∀ s n, s.rest.length < n → repeatWithin stop step n s = repeatUntil stop step s ∧
    ∀ u, repeatUntil stop step s ≠ .error .endless u

lemma Spends.endsByItself {stop : ReadM Bool} {step : ReadM α} {k : Nat}
    (hstop : Spends stop fun b => cond b k 0) (hstep : Spends step f) (hpos : ∀ a, 0 < f a) :
    EndsByItself stop step := fun s _ hn =>
  ⟨repeatWithin_eq hstop hstep hpos hn (Nat.lt_succ_self _),
    (spends_repeatUntil hstop hstep hpos).ends s⟩

/-- A counted loop uses up a character in each round, and stops where they run out, whatever number
it counts to. -/
lemma repeatTimes_extent (n : Nat) (s : State) :
    (∀ rows u, repeatTimes extent n s = .ok rows u → u.rest.length + n ≤ s.rest.length) ∧
      (s.rest.length < n → repeatTimes extent n s = repeatTimes extent (s.rest.length + 1) s) := by
  constructor
  · intro rows u h
    have hmoves := (spends_extents n).moves s rows u h
    rwa [length_of_repeatTimes h] at hmoves
  · intro hn
    exact repeatTimes_eq spends_extent (fun _ => Nat.one_pos) hn (Nat.lt_succ_self _)

end Reading

open Reading

/-- **Reading uses up the text**: a type, a name, a part of a name and a number are at least one
character each, so every loop of the reader ends by itself, and so does reading a symbol. The type
of a decorated name has fewer nodes than the text has characters, by three at least; and a number of
dimensions that is exponential in the length of its spelling is counted no further than there are
characters behind it. -/
theorem reading_uses_up_text :
    ((∀ slot, Advances (typeInto slot)) ∧ Advances path ∧ (∀ l, Advances (closedName l)) ∧
      ∀ l, Advances (numeralAs l)) ∧
    (EndsByItself (accept ['@']) namePart ∧
      (∀ levels base,
        EndsByItself (accept ['@']) (listedParam (typeWithin levels) (.unterminatedArgs base))) ∧
      (∀ levels,
        EndsByItself closeParams (listedParam (typeWithin levels) .unterminatedParams)) ∧
      EndsByItself freeParamsEnd (param typeInto) ∧
      EndsByItself memberParamsEnd (param typeInto) ∧
      ∀ s u, symbol s ≠ .error .endless u) ∧
    (∀ t s, t.head? = some '?' → parse t = .ok s → s.type.walk.length + 3 ≤ t.length) ∧
    (∀ k r s, s.rest = List.replicate (k + 1) 'P' ++ '@' :: r →
      ∃ u, dimension s = .ok (16 ^ (k + 1) - 1) u ∧ u.rest = r) ∧
    ∀ n s, (∀ rows u, repeatTimes extent n s = .ok rows u → u.rest.length + n ≤ s.rest.length) ∧
      (s.rest.length < n →
        repeatTimes extent n s = repeatTimes extent (s.rest.length + 1) s) := by
  have hpos := TypeTree.length_walk_pos
  have hone : ∀ {α : Type} (_ : α), 0 < 1 := fun _ => Nat.one_pos
  have hname : Advances path := spends_path.advances fun p => by omega
  have hparam : Spends (param typeInto) fun t => t.walk.length := spends_param spends_typeInto
  have hlisted : ∀ levels why,
      Spends (listedParam (typeWithin levels) why) fun t => t.walk.length :=
    fun levels => spends_listedParam (spends_typeWithin levels)
  refine ⟨⟨fun slot => (spends_typeInto slot).advances hpos, hname,
    fun l => (spends_closedName l).advances hone, fun l => (spends_numeralAs l).advances hone⟩,
    ⟨?_, fun levels base => ?_, fun levels => ?_, ?_, ?_, symbol_ne_endless⟩,
    fun t s ht h => ?_, fun k r s => dimension_of_letters, repeatTimes_extent⟩
  · exact Spends.endsByItself (spends_accept (by decide)) spends_namePart hone
  · exact Spends.endsByItself (spends_accept (by decide)) (hlisted levels _) hpos
  · exact Spends.endsByItself spends_closeParams (hlisted levels _) hpos
  · exact Spends.endsByItself (spends_paramsEnd ['@']) hparam hpos
  · exact Spends.endsByItself (spends_paramsEnd ['Z']) hparam hpos
  · obtain ⟨u, hu, -⟩ := symbol_of_parse ht h
    exact length_walk_of_symbol ht hu

/-- The shortest name of a function has as many nodes as it may have, and three characters are all
that the number of dimensions 255 takes. -/
theorem reading_uses_up_text_at_shortest :
    (∃ s, parse "?@YAH".toList = .ok s ∧ s.type.walk.length = 2 ∧ s.type.walk.length + 3 ≤ 5) ∧
      ∃ u, dimension (.start "PP@0H".toList) = .ok 255 u ∧ u.rest = "0H".toList := by
  obtain ⟨-, -, hsize, hdimension, -⟩ := reading_uses_up_text
  obtain ⟨s, hs, htwo⟩ := exists_of_test (t := "?@YAH".toList)
    (p := fun s => s.type.walk.length == 2) (by decide +kernel)
  exact ⟨⟨s, hs, by simpa using htwo, hsize _ s (by decide) hs⟩,
    hdimension 1 "0H".toList (.start "PP@0H".toList) rfl⟩

end Undecorate
