import Mathlib.Order.BoundedOrder.Lattice
import Undecorate.Proofs.Reading.Lookahead

/-!
Reading what was read once more, from another text.

A respelling says how references are written the second time. `Retraces k A x B s` says of `x` that
what it reads from `s` is read again from a state that has the respelled lexemes ahead, with the
same value, and that the decisions are the same: if the texts that follow are related by `B`, then
the texts from which the two readings start are related by `A`. So the relations are found from the
end of the text to its start, and the judgement is put together along `>>=` and along the loops.
-/

namespace Undecorate.Reading

variable {α β : Type}

/-! ### Respellings -/

/-- How references are written again. One may be kept if the name is remembered the second time
too, or be written out if the name does not start like a template. -/
structure Respelling where
  reference : Nat → Text → Lexeme
  /-- The names that can be written again. -/
  Allows : Text → Prop
  /-- The names that are remembered the first and the second time. -/
  Tables : NameTable → NameTable → Prop
  tables_record : ∀ {T T' : NameTable} (name : Text),
    Tables T T' → Tables (T.record name) (T'.record name)
  reference_cases : ∀ (d : Nat) {name : Text}, Allows name →
    (reference d name = .reference d name ∧
      ∀ {T T' : NameTable}, Tables T T' → T.resolve? d = some name → T'.resolve? d = some name) ∨
    (reference d name = .part name ∧ ¬ ['?', '$'] <+: name ∧
      ∀ {T T' : NameTable}, Tables T T' → Tables T (T'.record name))

namespace Respelling

variable (R : Respelling)

def lexeme : Lexeme → Lexeme
  | .reference d name => R.reference d name
  | l => l

/-- Lexemes, latest first, as they are written again. -/
def text (ls : List Lexeme) : Text := ls.reverse.flatMap fun l => (R.lexeme l).spelled

@[simp] lemma text_nil : R.text [] = [] := rfl

@[simp] lemma text_append (later earlier : List Lexeme) :
    R.text (later ++ earlier) = R.text earlier ++ R.text later := by
  simp [text]

@[simp] lemma text_singleton (l : Lexeme) : R.text [l] = (R.lexeme l).spelled := by
  simp [text]

/-- Every remembered name can be written again, and is a part where it is written out. -/
def Knows (T : NameTable) : Prop :=
  ∀ name ∈ T.names, (∀ d, R.reference d name = .part name → Encoding.IsPart name) ∧ R.Allows name

/-- The states of the two readings, apart from the text. -/
structure Twin (s s' : State) : Prop where
  depth : s'.depth = s.depth
  issued : s'.issued = s.issued
  tables : R.Tables s.names s'.names

/-- The lexemes `ls` lead `x` from `s` to the value `a` in `u`, and a second time from every twin of
`s` that has them ahead, respelled. -/
structure Leads (k : Nat) (A B : Text → Text → Prop) (x : ReadM α) (a : α) (s u : State)
    (ls : List Lexeme) : Prop where
  knows : R.Knows u.names
  moves : k ≤ (R.text ls).length
  looks : ∀ r', B u.rest r' → A s.rest (R.text ls ++ r')
  again : ∀ s' r', B u.rest r' → R.Twin s s' → s'.rest = R.text ls ++ r' →
    ∃ u', x s' = .ok a u' ∧ u'.rest = r' ∧ R.Twin u u' ∧
      u'.lexemes = ls.map R.lexeme ++ s'.lexemes

/-- Whatever `x` reads from `s` is read again, and a value `a` has a text of at least `k a`
characters the second time. -/
def Retraces (k : α → Nat) (A : Text → Text → Prop) (x : ReadM α) (B : α → Text → Text → Prop)
    (s : State) : Prop :=
  ∀ a u, x s = .ok a u → ∃ ls, u.lexemes = ls ++ s.lexemes ∧
    ((∀ name, .part name ∈ ls → R.Allows name) → R.Knows s.names →
      R.Leads (k a) A (B a) x a s u ls)

end Respelling

variable {R : Respelling} {s : State} {A A' : Text → Text → Prop}

namespace Respelling

/-! ### Rules -/

lemma Retraces.pure {k : α → Nat} {a : α} (hk : k a = 0) :
    R.Retraces k A (pure a) (fun _ => A) s := by
  intro b u h
  cases h
  refine ⟨[], rfl, fun _ hs => ⟨hs, by simp [hk], fun r' h => h, fun s' r' _ ht hr => ?_⟩⟩
  exact ⟨s', rfl, hr, ht, rfl⟩

/-- A step that fails has nothing to read again. -/
lemma retraces_of_error {k : α → Nat} {x : ReadM α} {B : α → Text → Text → Prop}
    (h : ∀ a u, x s ≠ .ok a u) : R.Retraces k A x B s :=
  fun a u hx => absurd hx (h a u)

lemma Leads.trans {x : ReadM α} {f : α → ReadM β} {a : α} {b : β} {s u v : State}
    {B C : Text → Text → Prop} {k l m : Nat} {ls later : List Lexeme}
    (hx : R.Leads k A B x a s u ls) (hf : R.Leads l B C (f a) b u v later) (hm : m ≤ k + l) :
    R.Leads m A C (x >>= f) b s v (later ++ ls) where
  knows := hf.knows
  moves := by
    have := hx.moves
    have := hf.moves
    rw [text_append, List.length_append]
    omega
  looks r' h := by
    rw [text_append, List.append_assoc]
    exact hx.looks _ (hf.looks r' h)
  again s' r' h ht hr := by
    rw [text_append, List.append_assoc] at hr
    obtain ⟨u', hu, hur, hut, hul⟩ := hx.again s' _ (hf.looks r' h) ht hr
    obtain ⟨v', hv, hvr, hvt, hvl⟩ := hf.again u' r' h hut hur
    refine ⟨v', by rw [bind_of_ok hu, hv], hvr, hvt, ?_⟩
    rw [hvl, hul, List.map_append, List.append_assoc]

/-- What the first step moves past counts for both. -/
lemma Retraces.bind {x : ReadM α} {f : α → ReadM β} {k : α → Nat} {m : β → Nat}
    {B : α → Text → Text → Prop} {C : β → Text → Text → Prop} (hx : R.Retraces k A x B s)
    (hf : ∀ a u, x s = .ok a u → R.Retraces (fun b => m b - k a) (B a) (f a) C u) :
    R.Retraces m A (x >>= f) C s := by
  intro b v h
  obtain ⟨a, u, ha, hb⟩ := bind_eq_ok_iff.1 h
  obtain ⟨ls, hls, hx⟩ := hx a u ha
  obtain ⟨later, hlater, hf⟩ := hf a u ha b v hb
  refine ⟨later ++ ls, by rw [hlater, hls, List.append_assoc], fun hparts hs => ?_⟩
  have hx := hx (fun name hn => hparts name (by simp [hn])) hs
  have hf := hf (fun name hn => hparts name (by simp [hn])) hx.knows
  have hcount : m b ≤ k a + (m b - k a) := by omega
  exact hx.trans hf hcount

/-- Less may be asked for at the start, and more may be granted at the end. -/
lemma Retraces.weaken {x : ReadM α} {k : α → Nat} {B B' : α → Text → Text → Prop}
    (h : R.Retraces k A x B s) (hA : ∀ r r', A r r' → A' r r')
    (hB : ∀ a r r', B' a r r' → B a r r') : R.Retraces k A' x B' s := by
  intro a u hx
  obtain ⟨ls, hls, h⟩ := h a u hx
  refine ⟨ls, hls, fun hparts hs => ?_⟩
  obtain ⟨hknows, hmoves, hlooks, hagain⟩ := h hparts hs
  exact ⟨hknows, hmoves, fun r' hr => hA _ _ (hlooks r' (hB a _ _ hr)),
    fun s' r' hr => hagain s' r' (hB a _ _ hr)⟩

/-- Where nothing is asked of the texts that follow, anything may be granted. -/
lemma Retraces.any {x : ReadM α} {k : α → Nat} {B : α → Text → Text → Prop}
    (h : R.Retraces k A x (fun _ => ⊤) s) : R.Retraces k A x B s :=
  h.weaken (fun _ _ h => h) fun _ _ _ _ => trivial

/-! ### Steps -/

/-- A step that passes nothing: it depends on what comes next at most. -/
lemma leads_stay {x : ReadM α} {a : α} {u : State} {B : Text → Text → Prop}
    (hu : u.rest = s.rest ∧ u.depth = s.depth ∧ u.names = s.names)
    (hA : ∀ r', B s.rest r' → A s.rest r')
    (hx : ∀ s', R.Twin s s' → B s.rest s'.rest → ∃ u', x s' = .ok a u' ∧ u'.rest = s'.rest ∧
      u'.depth = s'.depth ∧ u'.issued = u.issued ∧ u'.names = s'.names ∧ u'.lexemes = s'.lexemes)
    (hs : R.Knows s.names) : R.Leads 0 A B x a s u [] := by
  obtain ⟨hur, hud, hun⟩ := hu
  refine ⟨by rwa [hun], Nat.zero_le _, fun r' h => hA r' (by rwa [hur] at h),
    fun s' r' h ht hr => ?_⟩
  obtain ⟨u', hx', hr', hd', hi', hn', hl'⟩ := hx s' ht (by rwa [hr, ← hur])
  refine ⟨u', hx', by rw [hr', hr]; rfl, ⟨?_, hi', ?_⟩, hl'⟩
  · rw [hd', hud, ht.depth]
  · rw [hun, hn']
    exact ht.tables

/-- A step that passes one lexeme, which is written again as it was. -/
lemma leads_pass {x : ReadM α} {a : α} {l : Lexeme} {c : Cursor} {B : Text → Text → Prop} {k : Nat}
    (hl : R.lexeme l = l) (hk : k ≤ l.spelled.length)
    (hA : ∀ r', B c.rest r' → A s.rest (l.spelled ++ r'))
    (hx : ∀ s' r', B c.rest r' → R.Twin s s' → s'.rest = l.spelled ++ r' →
      ∃ c', x s' = .ok a (s'.pass l c') ∧ c'.rest = r')
    (hs : R.Knows s.names) : R.Leads k A B x a s (s.pass l c) [l] := by
  refine ⟨hs, by simpa [hl] using hk, fun r' h => ?_, fun s' r' h ht hr => ?_⟩
  · simpa [hl] using hA r' h
  · obtain ⟨c', hc, hr'⟩ := hx s' r' h ht (by simpa [hl] using hr)
    exact ⟨s'.pass l c', hc, hr', ⟨ht.depth, ht.issued, ht.tables⟩, by simp [State.pass, hl]⟩

/-! ### Loops and nesting -/

/-- How many rounds a loop is given does not matter, as long as they are enough. -/
lemma repeatWithin_of_length_lt {stop : ReadM Bool} {step : ReadM α} {fuel n : Nat} {s u : State}
    {as : List α} (h : repeatWithin stop step fuel s = .ok as u) (hn : as.length < n) :
    repeatWithin stop step n s = .ok as u := by
  induction fuel generalizing n s as with
  | zero => cases h
  | succ fuel ih =>
    obtain ⟨n, rfl⟩ := Nat.exists_eq_succ_of_ne_zero (Nat.ne_zero_of_lt hn)
    obtain ⟨b, v, hb, h⟩ := bind_eq_ok_iff.1 h
    rw [repeatWithin, bind_of_ok hb]
    cases b with
    | true => exact h
    | false =>
      obtain ⟨a, w, ha, h⟩ := bind_eq_ok_iff.1 h
      obtain ⟨rest, x, hrest, h⟩ := bind_eq_ok_iff.1 h
      cases h
      exact (bind_of_ok ha).trans (bind_of_ok (ih hrest (Nat.lt_of_succ_lt_succ hn)))

section Loops

variable {stop : ReadM Bool} {step : ReadM α} {B C : Text → Text → Prop}

lemma retraces_repeatWithin
    (hstop : ∀ s, R.Retraces (fun _ => 0) A stop (fun b => cond b C B) s)
    (hstep : ∀ s u, stop s = .ok false u → R.Retraces (fun _ => 1) B step (fun _ => A) u)
    (fuel : Nat) (s : State) :
    R.Retraces List.length A (repeatWithin stop step fuel) (fun _ => C) s := by
  induction fuel generalizing s with
  | zero => exact retraces_of_error fun a u h => by cases h
  | succ fuel ih =>
    refine (hstop s).bind fun b u hb => ?_
    cases b with
    | true => exact Retraces.pure rfl
    | false =>
      refine (hstep s u hb).bind fun a v _ => ?_
      exact (ih v).bind fun as w _ => Retraces.pure (by simp)

/-- A loop is retraced if a round of it is: every round has a text of its own the second time, so
that there are enough rounds then too. -/
lemma retraces_repeatUntil
    (hstop : ∀ s, R.Retraces (fun _ => 0) A stop (fun b => cond b C B) s)
    (hstep : ∀ s u, stop s = .ok false u → R.Retraces (fun _ => 1) B step (fun _ => A) u)
    (s : State) : R.Retraces (fun _ => 0) A (repeatUntil stop step) (fun _ => C) s := by
  intro as u h
  obtain ⟨ls, hls, h⟩ := retraces_repeatWithin hstop hstep (s.rest.length + 1) s as u h
  refine ⟨ls, hls, fun hparts hs => ?_⟩
  obtain ⟨hknows, hmoves, hlooks, hagain⟩ := h hparts hs
  refine ⟨hknows, Nat.zero_le _, hlooks, fun s' r' hr ht hs' => ?_⟩
  obtain ⟨u', hu, hrest⟩ := hagain s' r' hr ht hs'
  have henough : as.length < s'.rest.length + 1 := by
    rw [hs', List.length_append]
    omega
  exact ⟨u', repeatWithin_of_length_lt hu henough, hrest⟩

lemma retraces_repeatTimes (hstep : ∀ s, R.Retraces (fun _ => 0) A step (fun _ => A) s) (n : Nat)
    (s : State) : R.Retraces (fun _ => 0) A (repeatTimes step n) (fun _ => A) s := by
  induction n generalizing s with
  | zero => exact Retraces.pure rfl
  | succ n ih =>
    refine (hstep s).bind fun a u _ => ?_
    exact (ih u).bind fun as v _ => Retraces.pure rfl

end Loops

lemma retraces_nested {x : ReadM α} {k : α → Nat} {B : α → Text → Text → Prop}
    (h : ∀ s, R.Retraces k A x B s) (s : State) : R.Retraces k A (nested x) B s := by
  intro a u hu
  rw [nested_eq] at hu
  split at hu
  · cases hu
  · next hd =>
    split at hu
    · next b v hv =>
      cases hu
      obtain ⟨ls, hls, h⟩ := h _ _ _ hv
      refine ⟨ls, hls, fun hparts hs => ?_⟩
      obtain ⟨hknows, hmoves, hlooks, hagain⟩ := h hparts hs
      refine ⟨hknows, hmoves, hlooks, fun s' r' hr ht hs' => ?_⟩
      obtain ⟨v', hv', hr', ht', hl'⟩ := hagain { s' with depth := s'.depth + 1 } r' hr
        ⟨by simp [ht.depth], ht.issued, ht.tables⟩ hs'
      refine ⟨{ v' with depth := v'.depth - 1 }, ?_, hr',
        ⟨by simp [ht'.depth], ht'.issued, ht'.tables⟩, hl'⟩
      rw [nested_eq, if_neg (by rwa [ht.depth]), hv']
    · cases hu

end Respelling

end Undecorate.Reading
