import Undecorate.Proofs.Reading.Step

/-!
Readers that know nothing of types.

A mark, a code, a name or a number is read in the same way however deep the type around it is
nested and however many nodes have been numbered, and it leaves both counts alone. `Lexical x` says
this of `x`: reading from a state that is placed elsewhere is reading from that state, with the end
placed elsewhere.
-/

namespace Undecorate.Reading

variable {α β : Type}

/-- The state at another depth, with another count of numbered nodes. -/
def State.placed (s : State) (depth issued : Nat) : State := { s with depth, issued }

/-- An end of reading whose state is placed elsewhere. -/
def placedEnd (depth issued : Nat) :
    EStateM.Result Failure State α → EStateM.Result Failure State α
  | .ok a u => .ok a (u.placed depth issued)
  | .error f u => .error f (u.placed depth issued)

/-- Neither the depth nor the count of nodes matters to `x`. -/
def Lexical (x : ReadM α) : Prop := ∀ s d n, x (s.placed d n) = placedEnd d n (x s)

lemma State.placed_self (s : State) : s.placed s.depth s.issued = s := rfl

/-- Where reading comes to a good end, both counts are what they were. -/
lemma Lexical.counts {x : ReadM α} (h : Lexical x) {s u : State} {a : α} (hx : x s = .ok a u) :
    u.depth = s.depth ∧ u.issued = s.issued := by
  have hself := h s s.depth s.issued
  rw [s.placed_self, hx] at hself
  injection hself with _ hu
  constructor <;> rw [hu] <;> rfl

/-! ### Rules -/

lemma lexical_pure (a : α) : Lexical (pure a) := fun _ _ _ => rfl

lemma lexical_throw (f : Failure) : Lexical (throw f : ReadM α) := fun _ _ _ => rfl

lemma lexical_malformed (why : Text → Malformed) : Lexical (malformed why : ReadM α) :=
  fun _ _ _ => rfl

lemma Lexical.bind {x : ReadM α} {f : α → ReadM β} (hx : Lexical x) (hf : ∀ a, Lexical (f a)) :
    Lexical (x >>= f) := by
  intro s d n
  have hplaced := hx s d n
  cases hs : x s with
  | ok a u =>
    rw [hs] at hplaced
    rw [bind_of_ok hs, bind_of_ok hplaced]
    exact hf a u d n
  | error e u =>
    rw [hs] at hplaced
    rw [bind_of_error hs, bind_of_error hplaced]
    rfl

/-- A choice between two readers. -/
lemma lexical_choice {x : ReadM Bool} {y : Bool → ReadM α} (hx : Lexical x)
    (htrue : Lexical (y true)) (hfalse : Lexical (y false)) : Lexical (x >>= y) := by
  refine hx.bind fun b => ?_
  cases b with
  | true => exact htrue
  | false => exact hfalse

/-- A code that may be missing. -/
lemma lexical_option {x : ReadM (Option α)} {y : Option α → ReadM β} (hx : Lexical x)
    (hsome : ∀ a, Lexical (y (some a))) (hnone : Lexical (y none)) : Lexical (x >>= y) := by
  refine hx.bind fun o => ?_
  cases o with
  | none => exact hnone
  | some a => exact hsome a

lemma lexical_repeatUntil {stop : ReadM Bool} {step : ReadM α} (hstop : Lexical stop)
    (hstep : Lexical step) : Lexical (repeatUntil stop step) := by
  have hwithin : ∀ fuel, Lexical (repeatWithin stop step fuel) := by
    intro fuel
    induction fuel with
    | zero => exact lexical_throw _
    | succ fuel ih =>
      refine lexical_choice hstop (lexical_pure []) ?_
      exact hstep.bind fun a => ih.bind fun as => lexical_pure (a :: as)
  exact fun s => hwithin (s.rest.length + 1) s

/-! ### Marks, codes, letters and numbers -/

lemma lexical_exhausted : Lexical exhausted := fun _ _ _ => rfl

lemma lexical_upcoming (mark : Text) : Lexical (upcoming mark) := fun _ _ _ => rfl

lemma lexical_accept (mark : Text) : Lexical (accept mark) := by
  intro s d n
  simp only [accept, State.placed]
  cases s.cursor.consume? mark <;> rfl

lemma lexical_code (table : CodeTable α) : Lexical (code table) := by
  intro s d n
  have hahead : table.ahead? (s.placed d n).rest = table.ahead? s.rest := rfl
  simp only [code, hahead]
  cases table.ahead? s.rest with
  | none => rfl
  | some e =>
    simp only [EStateM.map, lexical_accept e.1 s d n]
    cases accept e.1 s <;> rfl

lemma lexical_letter (table : LetterTable α) : Lexical (letter table) := by
  intro s d n
  simp only [letter, State.placed]
  cases s.cursor.take.1.bind (fun x => table.lookup x) with
  | some value => rfl
  | none => cases s.cursor.take.2.putBack? s.cursor.take.1.toList <;> rfl

lemma lexical_numeralAs (lexeme : Text → Int → Lexeme) : Lexical (numeralAs lexeme) := by
  intro s d n
  simp only [numeralAs, State.placed]
  split <;> rfl

/-! ### Names -/

lemma lexical_closedName (lexeme : Text → Lexeme) : Lexical (closedName lexeme) := by
  intro s d n
  simp only [closedName, State.placed]
  cases s.cursor.readUntil? ['@'] <;> rfl

lemma lexical_literalPart : Lexical literalPart :=
  (lexical_closedName .part).bind fun name =>
    Lexical.bind (fun _ _ _ => rfl) fun _ => lexical_pure name

lemma lexical_namePart : Lexical namePart := by
  intro s d n
  simp only [namePart, State.placed]
  cases s.cursor.digit? with
  | none => exact lexical_literalPart s d n
  | some p =>
    obtain ⟨digit, c⟩ := p
    simp only
    cases s.names.resolve? digit <;> rfl

lemma lexical_path : Lexical path := lexical_repeatUntil (lexical_accept ['@']) lexical_namePart

/-! ### Codes with a meaning -/

lemma lexical_primitive : Lexical primitive := by
  refine lexical_option (lexical_letter _) lexical_pure ?_
  exact lexical_option (lexical_code _) lexical_pure (lexical_malformed _)

lemma lexical_storage : Lexical storage := (lexical_letter _).bind fun _ => lexical_pure _

lemma lexical_returnStorage : Lexical returnStorage :=
  (lexical_code _).bind fun _ => lexical_pure _

lemma lexical_arrayStorage : Lexical arrayStorage := by
  refine lexical_choice (lexical_accept _) ?_ (lexical_pure none)
  exact lexical_option (lexical_code _) (fun q => lexical_pure (some q)) (lexical_malformed _)

lemma lexical_functionClass : Lexical functionClass :=
  lexical_option (lexical_letter _) lexical_pure (lexical_malformed _)

lemma lexical_convention : Lexical convention :=
  lexical_option (lexical_letter _) lexical_pure (lexical_malformed _)

lemma lexical_closeParams : Lexical closeParams :=
  lexical_choice (lexical_accept _) (lexical_pure true) (lexical_accept _)

/-- The end of the parameters of a function that is not pointed to. -/
lemma lexical_paramsEnd (mark : Text) :
    Lexical (do if ← exhausted then pure true else upcoming mark) :=
  lexical_choice lexical_exhausted (lexical_pure true) (lexical_upcoming mark)

lemma lexical_heading : Lexical heading := by
  refine lexical_choice (lexical_accept _) ?_ fun _ _ _ => rfl
  exact lexical_path.bind fun p => (lexical_code _).bind fun entity => lexical_pure _

lemma lexical_dimension : Lexical dimension := by
  refine (lexical_numeralAs _).bind fun n => ?_
  split
  · exact lexical_pure _
  · split <;> exact lexical_throw _

end Undecorate.Reading
