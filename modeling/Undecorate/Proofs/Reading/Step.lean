import Mathlib.Algebra.GroupWithZero.Nat
import Undecorate.Reading.Symbol

/-!
What the steps of reading do on a text that they fit.

`Gives x s a r n` says that `x` reads from `s` without failing: it gives `a`, leaves the text `r`,
is back at the same depth, and `n` nodes have been numbered by then. Facts of this form are put
together along `>>=` and along the loops.
-/

namespace Undecorate.Reading

variable {α β : Type}

/-- Reading `x` from `s` gives `a`, with `r` left to read and `n` nodes numbered. -/
def Gives (x : ReadM α) (s : State) (a : α) (r : Text) (n : Nat) : Prop :=
  ∃ u, x s = .ok a u ∧ u.rest = r ∧ u.depth = s.depth ∧ u.issued = n

lemma gives_pure {s : State} {r : Text} {n : Nat} (a : α) (hr : s.rest = r) (hn : s.issued = n) :
    Gives (pure a) s a r n :=
  ⟨s, rfl, hr, rfl, hn⟩

lemma bind_of_ok {x : ReadM α} {f : α → ReadM β} {s u : State} {a : α} (h : x s = .ok a u) :
    (x >>= f) s = f a u := by
  change EStateM.bind x f s = f a u
  simp [EStateM.bind, h]

lemma bind_of_error {x : ReadM α} {f : α → ReadM β} {s u : State} {e : Failure}
    (h : x s = .error e u) : (x >>= f) s = .error e u := by
  change EStateM.bind x f s = .error e u
  simp [EStateM.bind, h]

lemma bind_eq_error_iff {x : ReadM α} {y : α → ReadM β} {s v : State} {e : Failure} :
    (x >>= y) s = .error e v ↔
      x s = .error e v ∨ ∃ a u, x s = .ok a u ∧ y a u = .error e v := by
  change EStateM.bind x y s = .error e v ↔ _
  unfold EStateM.bind
  cases x s with
  | ok a u =>
    refine ⟨fun h => .inr ⟨a, u, rfl, h⟩, ?_⟩
    rintro (h | ⟨_, _, ha, h⟩)
    · cases h
    · cases ha
      exact h
  | error f u => simp

/-- What follows depends on the value and on the state that are reached, not on the way there. -/
lemma bind_of_eq {x y : ReadM α} {f : α → ReadM β} {s v : State} (h : x s = y v) :
    (x >>= f) s = (y >>= f) v := by
  change EStateM.bind x f s = EStateM.bind y f v
  simp only [EStateM.bind, h]

lemma Gives.bind {x : ReadM α} {f : α → ReadM β} {s : State} {a : α} {b : β} {r r' : Text}
    {n n' : Nat} (hx : Gives x s a r n)
    (hf : ∀ u : State, u.rest = r → u.depth = s.depth → u.issued = n → Gives (f a) u b r' n') :
    Gives (x >>= f) s b r' n' := by
  obtain ⟨u, hu, hr, hd, hn⟩ := hx
  obtain ⟨v, hv, hr', hd', hn'⟩ := hf u hr hd hn
  exact ⟨v, by rw [bind_of_ok hu, hv], hr', by rw [hd', hd], hn'⟩

/-- A last step that only puts the value together. -/
lemma Gives.map {x : ReadM α} {f : α → β} {s : State} {a : α} {r : Text} {n : Nat}
    (hx : Gives x s a r n) : Gives (x >>= fun a => pure (f a)) s (f a) r n :=
  hx.bind fun _ hr _ hn => gives_pure (f a) hr hn

lemma length_of_repeatTimes {step : ReadM α} {n : Nat} {s u : State} {as : List α}
    (h : repeatTimes step n s = .ok as u) : as.length = n := by
  induction n generalizing s as with
  | zero =>
    cases h
    rfl
  | succ n ih =>
    obtain ⟨a, v, -, h⟩ := bind_eq_ok_iff.1 h
    obtain ⟨rest, w, hrest, h⟩ := bind_eq_ok_iff.1 h
    cases h
    rw [List.length_cons, ih hrest]

/-! ### Marks and codes -/

lemma accept_eq {s : State} {mark r : Text} (hm : mark ≠ []) (h : s.rest = mark ++ r) :
    accept mark s =
      .ok true (s.pass (.code mark) { before := mark.reverse ++ s.cursor.before, rest := r }) := by
  have hc := Cursor.consume?_eq_some_iff.2 ⟨hm, r, h, rfl⟩
  simp only [accept, hc]

lemma accept_of_append (mark : Text) {s : State} {r : Text} (hm : mark ≠ [])
    (h : s.rest = mark ++ r) : Gives (accept mark) s true r s.issued :=
  ⟨_, accept_eq hm h, rfl, rfl, rfl⟩

lemma accept_of_no_mark {s : State} {mark : Text} (h : ¬ mark <+: s.rest) :
    accept mark s = .ok false s := by
  have hc : s.cursor.consume? mark = none := by
    rw [Option.eq_none_iff_forall_ne_some]
    intro c hc
    obtain ⟨-, r, hr, -⟩ := Cursor.consume?_eq_some_iff.1 hc
    exact h ⟨r, hr.symm⟩
  simp only [accept, hc]

lemma accept_cases {mark : Text} (hm : mark ≠ []) (s : State) :
    (∃ c, s.rest = mark ++ c.rest ∧ accept mark s = .ok true (s.pass (.code mark) c)) ∨
    ¬ mark <+: s.rest ∧ accept mark s = .ok false s := by
  by_cases h : mark <+: s.rest
  · obtain ⟨r, hr⟩ := h
    exact .inl ⟨_, hr.symm, accept_eq hm hr.symm⟩
  · exact .inr ⟨h, accept_of_no_mark h⟩

/-- A mark is not read where another letter comes first. -/
lemma accept_of_head_ne {s : State} {c m : Char} {mark w : Text} (h : s.rest = c :: w)
    (hc : c ≠ m) : accept (m :: mark) s = .ok false s := by
  refine accept_of_no_mark ?_
  rw [h, List.cons_prefix_cons]
  exact fun hp => hc hp.1.symm

lemma gives_of_ok {x : ReadM α} {s : State} {a : α} (h : x s = .ok a s) :
    Gives x s a s.rest s.issued := ⟨s, h, rfl, rfl, rfl⟩

lemma code_eq {table : CodeTable α} {s : State} {w r : Text} {a : α} (hw : w ≠ [])
    (h : s.rest = w ++ r) (ht : table.ahead? s.rest = some (w, a)) :
    code table s =
      .ok (some a) (s.pass (.code w) { before := w.reverse ++ s.cursor.before, rest := r }) := by
  simp [code, ht, EStateM.map, accept_eq hw h]

lemma code_of_ahead {table : CodeTable α} {s : State} {w r : Text} {a : α} (hw : w ≠ [])
    (h : s.rest = w ++ r) (ht : table.ahead? s.rest = some (w, a)) :
    Gives (code table) s (some a) r s.issued :=
  ⟨_, code_eq hw h ht, rfl, rfl, rfl⟩

lemma code_of_none {table : CodeTable α} {s : State} (ht : table.ahead? s.rest = none) :
    code table s = .ok none s := by
  simp only [code, ht]

/-- A code of the table is read if one comes next, and nothing is read otherwise. -/
lemma code_cases {table : CodeTable α} (hne : ∀ e ∈ table, e.1 ≠ []) (s : State) :
    (∃ w a c, (w, a) ∈ table ∧ table.ahead? s.rest = some (w, a) ∧ s.rest = w ++ c.rest ∧
      code table s = .ok (some a) (s.pass (.code w) c)) ∨
    table.ahead? s.rest = none ∧ code table s = .ok none s := by
  cases ha : table.ahead? s.rest with
  | none => exact .inr ⟨rfl, code_of_none ha⟩
  | some e =>
    obtain ⟨w, a⟩ := e
    have hmem := List.mem_of_find?_eq_some ha
    have hp := List.find?_some ha
    obtain ⟨r, hr⟩ := Option.isSome_iff_exists.1 hp
    rw [Text.behind?_eq_some_iff] at hr
    exact .inl ⟨w, a, _, hmem, rfl, hr, code_eq (hne _ hmem) hr ha⟩

lemma letter_eq {table : LetterTable α} {s : State} {c : Char} {r : Text} {a : α}
    (h : s.rest = c :: r) (ht : table.lookup c = some a) :
    letter table s = .ok (some a)
      (s.pass (.code [c]) { before := c :: s.cursor.before, rest := r, taken := some c }) := by
  have hc : s.cursor.take =
      (some c, { before := c :: s.cursor.before, rest := r, taken := some c }) := by
    change s.cursor.rest = c :: r at h
    simp only [Cursor.take, h]
  simp [letter, hc, ht]

lemma letter_of_lookup {table : LetterTable α} {s : State} {c : Char} {r : Text} {a : α}
    (h : s.rest = c :: r) (ht : table.lookup c = some a) :
    Gives (letter table) s (some a) r s.issued :=
  ⟨_, letter_eq h ht, rfl, rfl, rfl⟩

/-- What was taken last can be put back, and nothing has changed then but that it cannot be put
back again. -/
lemma putBack?_take (c : Cursor) :
    c.take.2.putBack? c.take.1.toList = some { c with taken := none } := by
  obtain ⟨before, rest, taken⟩ := c
  cases rest with
  | nil => simp [Cursor.take, Cursor.putBack?]
  | cons x rest => simp [Cursor.take, Cursor.putBack?]

lemma letter_of_none {table : LetterTable α} {s : State}
    (ht : s.rest.head?.bind (fun x => table.lookup x) = none) :
    letter table s = .ok none { s with cursor := { s.cursor with taken := none } } := by
  have hp := putBack?_take s.cursor
  have hh : s.cursor.take.1 = s.rest.head? := by
    unfold Cursor.take
    split <;> simp_all [State.rest]
  rw [hh] at hp
  simp only [letter, hh, ht, hp]

lemma mem_of_lookup_eq_some [BEq α] [LawfulBEq α] {table : List (α × β)} {a : α} {b : β}
    (h : table.lookup a = some b) : (a, b) ∈ table := by
  obtain ⟨l₁, l₂, rfl, -⟩ := List.lookup_eq_some_iff.1 h
  simp

/-- A letter of the table is read if one comes next, and nothing is read otherwise. -/
lemma letter_cases (table : LetterTable α) (s : State) :
    (∃ x a c, (x, a) ∈ table ∧ table.lookup x = some a ∧ s.rest = x :: c.rest ∧
      letter table s = .ok (some a) (s.pass (.code [x]) c)) ∨
    s.rest.head?.bind (fun x => table.lookup x) = none ∧
      letter table s = .ok none { s with cursor := { s.cursor with taken := none } } := by
  cases ho : s.rest.head?.bind (fun x => table.lookup x) with
  | none => exact .inr ⟨rfl, letter_of_none ho⟩
  | some a =>
    obtain ⟨x, hx, ha⟩ := Option.bind_eq_some_iff.1 ho
    obtain ⟨r, hr⟩ := List.head?_eq_some_iff.1 hx
    exact .inl ⟨x, a, _, mem_of_lookup_eq_some ha, ha, hr, letter_eq hr ha⟩

lemma gives_letter_none {table : LetterTable α} {s : State} {c : Char} {w : Text}
    (h : s.rest = c :: w) (ht : table.lookup c = none) :
    Gives (letter table) s none (c :: w) s.issued :=
  ⟨_, letter_of_none (by simpa [h] using ht), h, rfl, rfl⟩

/-! ### Nodes and nesting -/

/-- A new node has nothing that could go against its kind. -/
lemma issue_eq (kind : Kind) (q : Qualifiers) (s : State) :
    issue kind q s = .ok { serial := s.issued, qualifiers := q }
      { s with issued := s.issued + 1 } := by
  simp [issue, TypeTree.leaf, TypeTree.misfit?]

lemma gives_issue (kind : Kind) (q : Qualifiers) (s : State) :
    Gives (issue kind q) s { serial := s.issued, qualifiers := q } s.rest (s.issued + 1) :=
  ⟨_, issue_eq kind q s, rfl, rfl, rfl⟩

lemma nested_eq (x : ReadM α) (s : State) :
    nested x s =
      if depthLimit < s.depth + 1 then
        .error (.malformed (.nestedTooDeep s.rest)) { s with depth := s.depth + 1 }
      else
        match x { s with depth := s.depth + 1 } with
        | .ok a u => .ok a { u with depth := u.depth - 1 }
        | .error f u => .error f u := by
  change (if depthLimit < s.depth + 1 then malformed .nestedTooDeep else do
    let a ← x
    modify fun s => { s with depth := s.depth - 1 }
    pure a : ReadM α) { s with depth := s.depth + 1 } = _
  by_cases h : depthLimit < s.depth + 1
  · rw [if_pos h, if_pos h]
    rfl
  · rw [if_neg h, if_neg h]
    change EStateM.bind x _ _ = _
    unfold EStateM.bind
    cases x { s with depth := s.depth + 1 } <;> rfl

lemma gives_nested {x : ReadM α} {s : State} {a : α} {r : Text} {n : Nat}
    (hd : s.depth < depthLimit) (h : Gives x { s with depth := s.depth + 1 } a r n) :
    Gives (nested x) s a r n := by
  obtain ⟨u, hu, hr, hdu, hn⟩ := h
  refine ⟨{ u with depth := u.depth - 1 }, ?_, hr, by simp [hdu], hn⟩
  rw [nested_eq, if_neg (by omega), hu]

/-! ### Loops -/

/-- The values of a list of pieces that follow each other, where a piece numbers nodes from the
count it finds. -/
def spread (value : Nat → β → α) (size : β → Nat) : Nat → List β → List α
  | _, [] => []
  | i, b :: bs => value i b :: spread value size (i + size b) bs

section Spread

variable {spelled : β → Text} (value : Nat → β → α) (size : β → Nat) {step : ReadM α} {d : Nat}

lemma gives_repeatWithin {stop : ReadM Bool} {close r : Text} (bs : List β)
    (hgo : ∀ b ∈ bs, ∀ s w, s.rest = spelled b ++ w → stop s = .ok false s)
    (hstep : ∀ b ∈ bs, ∀ s w, s.rest = spelled b ++ w → s.depth = d →
      Gives step s (value s.issued b) w (s.issued + size b))
    (hstop : ∀ s, s.rest = close → Gives stop s true r s.issued) :
    ∀ (fuel : Nat) (s : State), bs.length < fuel → s.rest = bs.flatMap spelled ++ close →
      s.depth = d → Gives (repeatWithin stop step fuel) s (spread value size s.issued bs) r
        (s.issued + (bs.map size).sum) := by
  induction bs with
  | nil =>
    intro fuel s hf hr hd
    obtain ⟨fuel, rfl⟩ : ∃ k, fuel = k + 1 := ⟨fuel - 1, by simp at hf; omega⟩
    exact (hstop s hr).bind fun u hu _ hn => gives_pure [] hu hn
  | cons b bs ih =>
    intro fuel s hf hr hd
    obtain ⟨fuel, rfl⟩ : ∃ k, fuel = k + 1 := ⟨fuel - 1, by simp at hf; omega⟩
    rw [List.flatMap_cons, List.append_assoc] at hr
    have ho := hgo b (by simp) s _ hr
    refine (gives_of_ok ho).bind fun u hu hdu hnu => ?_
    rw [hr] at hu
    refine (hstep b (by simp) u _ hu (by rw [hdu, hd])).bind fun v hv hdv hnv => ?_
    have hrest := ih (fun b hb => hgo b (by simp [hb])) (fun b hb => hstep b (by simp [hb])) fuel v
      (by simp at hf; omega) hv (by rw [hdv, hdu, hd])
    rw [hnv, hnu] at hrest
    have := hrest.map (f := fun as => value s.issued b :: as)
    simpa [spread, hnu, Nat.add_assoc] using this

lemma length_le_length_flatMap {bs : List β} (h : ∀ b ∈ bs, spelled b ≠ []) :
    bs.length ≤ (bs.flatMap spelled).length := by
  induction bs with
  | nil => simp
  | cons b bs ih =>
    have hb : 0 < (spelled b).length := List.length_pos_iff.2 (h b (by simp))
    have := ih fun b hb => h b (by simp [hb])
    simp only [List.flatMap_cons, List.length_append, List.length_cons]
    omega

/-- Pieces that are each read by one step are read by the loop, up to what closes them. -/
lemma gives_repeatUntil {stop : ReadM Bool} {close r : Text} {s : State} (bs : List β)
    (hne : ∀ b ∈ bs, spelled b ≠ [])
    (hgo : ∀ b ∈ bs, ∀ s w, s.rest = spelled b ++ w → stop s = .ok false s)
    (hstep : ∀ b ∈ bs, ∀ s w, s.rest = spelled b ++ w → s.depth = d →
      Gives step s (value s.issued b) w (s.issued + size b))
    (hstop : ∀ s, s.rest = close → Gives stop s true r s.issued)
    (hr : s.rest = bs.flatMap spelled ++ close) (hd : s.depth = d) :
    Gives (repeatUntil stop step) s (spread value size s.issued bs) r
      (s.issued + (bs.map size).sum) := by
  refine gives_repeatWithin value size bs hgo hstep hstop (s.rest.length + 1) s ?_ hr hd
  have := length_le_length_flatMap hne
  rw [hr, List.length_append]
  omega

end Spread

end Undecorate.Reading
