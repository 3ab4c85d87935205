import Undecorate.Proofs.Reading.Lexeme

/-!
What reading is assembled from.

Whatever reads a text is put together along `>>=` from a few readers that do one thing, from looks
at the state, and from the reader of names. `Assembled B x` says so of `x`, where `B` tells the
readers that are not taken apart any further; it goes through the loops and holds of every
production. While one reader is read, others are: `Comes B x s y u` says that reading `x` from `s`
comes to `y` at `u`.
-/

namespace Undecorate

/-- The failure is that a digit refers to nothing. -/
def Failure.dangles : Failure → Bool
  | .malformed (.danglingReference _ _) => true
  | _ => false

namespace Reading

variable {α β γ : Type}

/-- What stands in front of the name of a template, and nowhere else. -/
abbrev templateMark : Text := ['?', '$']

/-- A mark, but not that of a template. -/
abbrev Plain (mark : Text) : Prop := mark ≠ [] ∧ mark ≠ templateMark

/-- Reads the name of a template if its mark comes next. -/
def templateName : ReadM (Option Text) := do
  if ← accept templateMark then do
    let base ← templateBase
    pure (some base)
  else pure none

/-- The readers that do one thing and have nothing to do with references. -/
inductive Simple : {α : Type} → ReadM α → Prop
  | accept {mark : Text} (h : Plain mark) : Simple (accept mark)
  | code {α : Type} {table : CodeTable α} (h : ∀ e ∈ table, Plain e.1) : Simple (code table)
  | letter {α : Type} (table : LetterTable α) : Simple (letter table)
  | numeral : Simple numeral
  | dimension : Simple (numeralAs .dimension)
  | templateName : Simple templateName
  | issue (kind : Kind) (q : Qualifiers) : Simple (issue kind q)
  | descend : Simple (modify fun s => { s with depth := s.depth + 1 } : ReadM PUnit)
  | ascend : Simple (modify fun s => { s with depth := s.depth - 1 } : ReadM PUnit)
  | giveUp {α : Type} (why : Text → Failure) (h : ∀ r, (why r).dangles = false) :
      Simple (fun s => .error (why s.rest) s : ReadM α)

/-- The readers that do one thing. -/
inductive Elementary : {α : Type} → ReadM α → Prop
  | simple {α : Type} {x : ReadM α} (h : Simple x) : Elementary x
  | namePart : Elementary namePart

/-- The readers that a production is made of. A name is read as a whole. -/
inductive Component : {α : Type} → ReadM α → Prop
  | simple {α : Type} {x : ReadM α} (h : Simple x) : Component x
  | path : Component path

/-- The reader is put together from readers in `B` and from looks at the state. -/
inductive Assembled (B : (α : Type) → ReadM α → Prop) : {α : Type} → ReadM α → Prop
  | base {α : Type} {x : ReadM α} (h : B α x) : Assembled B x
  | look {α : Type} (f : State → α) : Assembled B (fun s => .ok (f s) s)
  | bind {α β : Type} {x : ReadM α} {f : α → ReadM β} (hx : Assembled B x)
      (hf : ∀ a, Assembled B (f a)) : Assembled B (x >>= f)

/-! ### Readers within readers -/

/-- Reading `x` from `s` comes to `y` at `u`: it is all that is read, or what is read first, or what
is read behind that. What is read first and what is read behind it are assembled from `B`, so that
nothing but readers in `B` has led from `s` to `u`. -/
inductive Comes (B : (α : Type) → ReadM α → Prop) (x : ReadM α) (s : State) :
    {β : Type} → ReadM β → State → Prop
  | here : Comes B x s x s
  | first {β γ : Type} {y : ReadM β} {f : β → ReadM γ} {u : State} (hy : Assembled B y)
      (hf : ∀ b, Assembled B (f b)) (h : Comes B x s (y >>= f) u) : Comes B x s y u
  | next {β γ : Type} {y : ReadM β} {f : β → ReadM γ} {u v : State} {b : β} (hy : Assembled B y)
      (hf : ∀ b, Assembled B (f b)) (h : Comes B x s (y >>= f) u) (hb : y u = .ok b v) :
      Comes B x s (f b) v

section Comes

variable {B : (α : Type) → ReadM α → Prop}

lemma Comes.trans {x : ReadM α} {y : ReadM β} {z : ReadM γ} {s u v : State} (h : Comes B x s y u)
    (h' : Comes B y u z v) : Comes B x s z v := by
  induction h' with
  | here => exact h
  | first hy hf _ ih => exact .first hy hf ih
  | next hy hf _ hb ih => exact .next hy hf ih hb

/-- What fails makes all fail within which it is read. -/
lemma Comes.fails {x : ReadM α} {y : ReadM β} {s u v : State} {f : Failure}
    (h : Comes B x s y u) (hy : y u = .error f v) : x s = .error f v := by
  induction h with
  | here => exact hy
  | first _ _ _ ih => exact ih (bind_of_error hy)
  | next _ _ _ hb ih => exact ih ((bind_of_ok hb).trans hy)

/-- What is assembled from other readers fails where it comes to one of them that fails. -/
lemma Assembled.exists_failure {x : ReadM α} (h : Assembled B x) {s u : State} {f : Failure}
    (hx : x s = .error f u) :
    ∃ (β : Type) (y : ReadM β) (m : State), B β y ∧ Comes B x s y m ∧ y m = .error f u := by
  induction h generalizing s with
  | base hb => exact ⟨_, _, s, hb, .here, hx⟩
  | look f => cases hx
  | bind hy hg ihy ihg =>
    rcases bind_eq_error_iff.1 hx with hx | ⟨a, v, ha, hx⟩
    · obtain ⟨β, z, m, hz, hcomes, hfail⟩ := ihy hx
      exact ⟨β, z, m, hz, (Comes.first hy hg .here).trans hcomes, hfail⟩
    · obtain ⟨β, z, m, hz, hcomes, hfail⟩ := ihg a hx
      exact ⟨β, z, m, hz, (Comes.next hy hg .here ha).trans hcomes, hfail⟩

end Comes

/-! ### Loops and nesting -/

section Rules

variable {B : (α : Type) → ReadM α → Prop}

lemma assembled_pure (a : α) : Assembled B (pure a) := .look fun _ => a

/-- A choice between two readers. -/
lemma assembled_choice {x : ReadM Bool} {y : Bool → ReadM α} (hx : Assembled B x)
    (htrue : Assembled B (y true)) (hfalse : Assembled B (y false)) : Assembled B (x >>= y) := by
  refine hx.bind fun b => ?_
  cases b with
  | true => exact htrue
  | false => exact hfalse

/-- A code that has to be there. -/
lemma assembled_required {x : ReadM (Option α)} {y : Option α → ReadM β} (hx : Assembled B x)
    (hsome : ∀ a, Assembled B (y (some a))) (hnone : Assembled B (y none)) :
    Assembled B (x >>= y) := by
  refine hx.bind fun o => ?_
  cases o with
  | none => exact hnone
  | some a => exact hsome a

/-- A reader that depends on the state. -/
lemma assembled_of_look {x : State → ReadM α} (h : ∀ s, Assembled B (x s)) :
    Assembled B (fun s => x s s : ReadM α) :=
  .bind (x := get) (.look fun s => s) h

section Loops

variable {stop : ReadM Bool} {step : ReadM α} (hendless : B _ (throw .endless : ReadM (List α)))
  (hstop : Assembled B stop) (hstep : Assembled B step)

include hstep

lemma assembled_repeatTimes (n : Nat) : Assembled B (repeatTimes step n) := by
  induction n with
  | zero => exact assembled_pure []
  | succ n ih => exact hstep.bind fun a => ih.bind fun as => assembled_pure (a :: as)

include hstop hendless

lemma assembled_repeatUntil : Assembled B (repeatUntil stop step) := by
  refine assembled_of_look (x := fun s => repeatWithin stop step (s.rest.length + 1)) fun s => ?_
  induction s.rest.length + 1 with
  | zero => exact .base hendless
  | succ fuel ih =>
    refine assembled_choice hstop (assembled_pure []) ?_
    exact hstep.bind fun a => ih.bind fun as => assembled_pure (a :: as)

end Loops

end Rules

/-- A name is read part by part. -/
lemma assembled_path : Assembled @Elementary path := by
  refine assembled_repeatUntil ?_ ?_ (.base .namePart)
  · exact .simple (.giveUp (fun _ => .endless) fun _ => rfl)
  · exact .base (.simple (.accept (by decide)))

/-! ### Codes -/

/-- The reader is made of components. -/
abbrev Built (x : ReadM α) : Prop := Assembled @Component x

lemma built_simple {x : ReadM α} (h : Simple x) : Built x := .base (.simple h)

lemma built_path : Built path := .base .path

lemma built_malformed {why : Text → Malformed}
    (h : ∀ r, (Failure.malformed (why r)).dangles = false) : Built (malformed why : ReadM α) :=
  built_simple (.giveUp (fun r => .malformed (why r)) h)

lemma built_throw {f : Failure} (h : f.dangles = false) : Built (throw f : ReadM α) :=
  built_simple (.giveUp (fun _ => f) fun _ => h)

lemma built_repeatUntil {stop : ReadM Bool} {step : ReadM α} (hstop : Built stop)
    (hstep : Built step) : Built (repeatUntil stop step) :=
  assembled_repeatUntil (.simple (.giveUp (fun _ => .endless) fun _ => rfl)) hstop hstep

lemma built_nested {x : ReadM α} (h : Built x) : Built (nested x) := by
  refine (built_simple .descend).bind fun _ => ?_
  refine Assembled.bind (x := get) (.look fun s => s) fun s => ?_
  split
  · exact built_malformed fun _ => rfl
  · exact h.bind fun a => (built_simple .ascend).bind fun _ => assembled_pure a

lemma built_accept {mark : Text} (h : Plain mark) : Built (accept mark) :=
  built_simple (.accept h)

lemma built_code {table : CodeTable α} (h : ∀ e ∈ table, Plain e.1) : Built (code table) :=
  built_simple (.code h)

lemma built_issue (kind : Kind) (q : Qualifiers) : Built (issue kind q) :=
  built_simple (.issue kind q)

lemma built_exhausted : Built exhausted := .look fun s => s.cursor.atEnd

lemma built_primitive : Built primitive := by
  refine assembled_required (built_simple (.letter _)) assembled_pure ?_
  exact assembled_required (built_code (by decide)) assembled_pure (built_malformed fun _ => rfl)

lemma built_storage : Built storage := (built_simple (.letter _)).bind fun _ => assembled_pure _

lemma built_returnStorage : Built returnStorage :=
  (built_code (by decide)).bind fun _ => assembled_pure _

lemma built_arrayStorage : Built arrayStorage := by
  refine assembled_choice (built_accept (by decide)) ?_ (assembled_pure none)
  exact assembled_required (built_code (by decide)) (fun q => assembled_pure (some q))
    (built_malformed fun _ => rfl)

lemma built_functionClass : Built functionClass :=
  assembled_required (built_simple (.letter _)) assembled_pure (built_malformed fun _ => rfl)

lemma built_convention : Built convention :=
  assembled_required (built_simple (.letter _)) assembled_pure (built_malformed fun _ => rfl)

/-! ### Types -/

section Productions

variable {nt : Slot → ReadM TypeTree} (hnt : ∀ slot, Built (nt slot))

include hnt

lemma built_param : Built (param nt) := (built_issue _ _).bind hnt

lemma built_listedParam {unclosed : Malformed} (h : (Failure.malformed unclosed).dangles = false) :
    Built (listedParam nt unclosed) :=
  assembled_choice built_exhausted (built_throw h) (built_param hnt)

omit hnt in
/-- The name of a template is read at once with its mark. -/
lemma aggregate_eq (key : TagKey) (slot : Slot) :
    aggregate nt key slot = templateName >>= fun o => o.elim
      (path >>= fun p => pure (TypeTree.leaf { slot.node (.tag key) with path := p }))
      fun base =>
        repeatUntil (accept ['@']) (listedParam nt (.unterminatedArgs base)) >>= fun args =>
          pure (TypeTree.mk { slot.node (.tag key) with path := [base] } none args) := by
  rw [aggregate, templateName, bind_assoc]
  congr 1
  funext marked
  cases marked with
  | false => rfl
  | true => simp only [if_true, bind_assoc, pure_bind, Option.elim_some]

lemma built_aggregate (key : TagKey) (slot : Slot) : Built (aggregate nt key slot) := by
  rw [aggregate_eq]
  refine assembled_required (built_simple .templateName) (fun base => ?_)
    (built_path.bind fun _ => assembled_pure _)
  refine Assembled.bind ?_ fun _ => assembled_pure _
  exact built_repeatUntil (built_accept (by decide)) (built_listedParam hnt rfl)

omit hnt in
lemma built_enumeration (slot : Slot) : Built (enumeration slot) :=
  built_path.bind fun _ => assembled_pure _

omit hnt in
lemma built_closeParams : Built closeParams :=
  assembled_choice (built_accept (by decide)) (assembled_pure true) (built_accept (by decide))

lemma built_functionPointer (slot : Slot) : Built (functionPointer nt slot) := by
  refine (built_issue _ _).bind fun function => ?_
  refine (built_param hnt).bind fun result => ?_
  exact (built_repeatUntil built_closeParams (built_listedParam hnt rfl)).bind
    fun _ => assembled_pure _

lemma built_indirection (kind : Kind) (slot : Slot) : Built (indirection nt kind slot) := by
  refine (built_accept (by decide)).bind fun _ => ?_
  refine built_storage.bind fun q => ?_
  refine (built_issue _ _).bind fun target => ?_
  exact (hnt target).bind fun _ => assembled_pure _

omit hnt in
lemma built_dimension : Built dimension := by
  refine (built_simple .dimension).bind fun n => ?_
  split
  · exact assembled_pure _
  · split
    · exact built_throw rfl
    · exact built_throw rfl

omit hnt in
lemma built_extent : Built extent :=
  (built_simple .numeral).bind fun n =>
    (built_issue _ _).bind fun element => assembled_pure (n, element)

lemma built_array (slot : Slot) : Built (array nt slot) := by
  refine built_dimension.bind fun n => ?_
  refine (assembled_repeatTimes built_extent n).bind fun rows => ?_
  refine built_arrayStorage.bind fun q => ?_
  exact (hnt _).bind fun _ => assembled_pure _

lemma built_typeCode (slot : Slot) : Built (typeCode nt slot) := by
  refine assembled_required (built_code (by decide)) (fun c => ?_)
    (built_primitive.bind fun _ => assembled_pure _)
  cases c with
  | aggregate key => exact built_aggregate hnt key slot
  | enumeration => exact built_enumeration slot
  | functionPointer => exact built_functionPointer hnt slot
  | reference => exact built_indirection hnt _ slot
  | pointer => exact built_indirection hnt _ slot
  | constPointer => exact built_indirection hnt _ _
  | array => exact built_array hnt slot

end Productions

lemma built_typeWithin (levels : Nat) (slot : Slot) : Built (typeWithin levels slot) := by
  induction levels generalizing slot with
  | zero => exact built_nested (built_malformed fun _ => rfl)
  | succ levels ih => exact built_nested (built_typeCode ih slot)

lemma built_typeInto (slot : Slot) : Built (typeInto slot) :=
  assembled_of_look (x := fun s => typeWithin (depthLimit - s.depth) slot) fun s =>
    built_typeWithin (depthLimit - s.depth) slot

/-! ### Symbols -/

lemma built_params (mark : Text) :
    Built (repeatUntil (do if ← exhausted then pure true else upcoming mark) (param typeInto)) := by
  have hupcoming : Built (upcoming mark) := .look fun s => s.cursor.startsWith mark
  exact built_repeatUntil (assembled_choice built_exhausted (assembled_pure true) hupcoming)
    (built_param built_typeInto)

lemma built_freeFunction : Built freeFunction := by
  refine (built_issue _ _).bind fun slot => ?_
  refine built_convention.bind fun c => ?_
  refine built_returnStorage.bind fun q => ?_
  refine (built_issue _ _).bind fun resultSlot => ?_
  refine (built_typeInto resultSlot).bind fun result => ?_
  exact (built_params ['@']).bind fun params => assembled_pure _

lemma built_memberResult (q : Qualifiers) : Built (memberResult q) := by
  refine assembled_choice (built_accept (by decide)) ?_ ?_
  · exact (built_issue _ _).bind fun slot => assembled_pure _
  · refine (built_issue _ _).bind fun slot => ?_
    refine (built_typeInto slot).bind fun t => ?_
    exact (built_accept (by decide)).bind fun _ => assembled_pure t

lemma built_memberFunction : Built memberFunction := by
  refine (built_issue _ _).bind fun slot => ?_
  refine built_functionClass.bind fun cls => ?_
  refine (built_accept (by decide)).bind fun _ => ?_
  refine built_convention.bind fun c => ?_
  refine built_storage.bind fun q => ?_
  refine (built_memberResult q).bind fun result => ?_
  exact (built_params ['Z']).bind fun params => assembled_pure _

lemma built_heading : Built heading := by
  refine assembled_choice (built_accept (by decide)) ?_ ?_
  · refine built_path.bind fun p => ?_
    exact (built_code (by decide)).bind fun entity => assembled_pure _
  · exact Assembled.bind (x := get) (.look fun s => s) fun s => assembled_pure _

lemma built_body : ∀ head : Heading, Built (body head)
  | .identifier _ => (built_issue _ _).bind fun _ => assembled_pure _
  | .decorated .variable _ => (built_param built_typeInto).bind fun _ => assembled_pure _
  | .decorated .freeFunction _ => built_freeFunction.bind fun _ => assembled_pure _
  | .decorated .memberFunction _ => built_memberFunction.bind fun _ => assembled_pure _

/-- A symbol is read by readers that do one thing, and by that of names. -/
lemma built_symbol : Built symbol := built_heading.bind built_body

end Reading

end Undecorate
