import Mathlib.Data.List.Nodup
import Undecorate.Proofs.Reading.Formed
import Undecorate.Proofs.Reading.Lexical

/-!
Nodes are numbered in the order of the finished tree.

A node is numbered when its place is known, often long before its kind, and the numbers below it
are given out while it is being read. `Numbers ns x f` says that the numbers found in what `x`
gives are `ns`, which were issued before, followed by those that `x` issues itself, in order. So
a production is followed from its first number to its last, and in the end nothing has been
numbered that is not in the tree, and nothing is there twice.
-/

namespace Undecorate

/-! ### The numbers of a tree -/

namespace TypeTree

/-- The numbers of the nodes, in the order of `walk`. -/
def serials (t : TypeTree) : List Nat := t.walk.map fun u => u.node.serial

lemma map_walkInner (inner : Option TypeTree) :
    (walkInner inner).map (fun u => u.node.serial) = inner.elim [] serials := by
  cases inner <;> rfl

lemma map_walkArgs (ts : List TypeTree) :
    (walkArgs ts).map (fun u => u.node.serial) = ts.flatMap serials := by
  rw [walkArgs_eq_flatMap, List.map_flatMap]
  rfl

lemma serials_mk (node : Node) (inner : Option TypeTree) (args : List TypeTree) :
    (mk node inner args).serials =
      node.serial :: (inner.elim [] serials ++ args.flatMap serials) := by
  rw [serials, walk, List.map_cons, List.map_append, map_walkInner, map_walkArgs]
  rfl

lemma serials_leaf (node : Node) : (leaf node).serials = [node.serial] := by
  rw [leaf, serials_mk]
  rfl

end TypeTree

namespace Reading

variable {α β : Type}

/-- The numbers `ns` are those issued between the two states. -/
structure Issues (s u : State) (ns : List Nat) : Prop where
  range : ns = List.range' s.issued ns.length
  count : u.issued = s.issued + ns.length

lemma Issues.trans {s u v : State} {ns ms : List Nat} (h : Issues s u ns) (h' : Issues u v ms) :
    Issues s v (ns ++ ms) where
  range := by
    have hms := h'.range
    rw [h.count] at hms
    calc ns ++ ms
        = List.range' s.issued ns.length ++ List.range' (s.issued + ns.length) ms.length := by
          rw [← h.range, ← hms]
      _ = List.range' s.issued (ns ++ ms).length := by
          rw [List.range'_append_1, List.length_append]
  count := by
    have := h.count
    have := h'.count
    rw [List.length_append]
    omega

/-- The numbers in what `x` gives are `ns`, followed by those that `x` issues. -/
def Numbers (ns : List Nat) (x : ReadM α) (f : α → List Nat) : Prop :=
  ∀ s a u, x s = .ok a u → ∃ ms, Issues s u ms ∧ f a = ns ++ ms

/-- No number is issued by `x`. -/
abbrev Still (x : ReadM α) : Prop := Numbers [] x fun _ => []

variable {ns : List Nat} {f : α → List Nat} {g : β → List Nat}

/-! ### Rules -/

lemma numbers_of_error {x : ReadM α} (h : ∀ s a u, x s ≠ .ok a u) : Numbers ns x f :=
  fun s a u hx => absurd hx (h s a u)

lemma Numbers.pure {a : α} (h : f a = ns) : Numbers ns (pure a) f := by
  intro s b u hb
  cases hb
  exact ⟨[], ⟨rfl, rfl⟩, by rw [h, List.append_nil]⟩

lemma Numbers.bind {x : ReadM α} {y : α → ReadM β} (hx : Numbers ns x f)
    (hy : ∀ a, Numbers (f a) (y a) g) : Numbers ns (x >>= y) g := by
  intro s b v h
  obtain ⟨a, u, ha, hb⟩ := bind_eq_ok_iff.1 h
  obtain ⟨ms, hms, hf⟩ := hx s a u ha
  obtain ⟨ks, hks, hg⟩ := hy a u b v hb
  exact ⟨ms ++ ks, hms.trans hks, by rw [hg, hf, List.append_assoc]⟩

/-- What was numbered earlier stands in front. -/
lemma Numbers.behind {x : ReadM α} (h : Numbers ns x f) (earlier : List Nat) :
    Numbers (earlier ++ ns) x fun a => earlier ++ f a := by
  intro s a u hx
  obtain ⟨ms, hms, hf⟩ := h s a u hx
  exact ⟨ms, hms, by simp only [hf, List.append_assoc]⟩

/-- A step whose numbers are all its own. -/
lemma Numbers.andThen {x : ReadM α} {y : α → ReadM β} (hx : Numbers [] x f)
    (hy : ∀ a, Numbers (ns ++ f a) (y a) g) : Numbers ns (x >>= y) g := by
  have hns := hx.behind ns
  rw [List.append_nil] at hns
  exact hns.bind hy

lemma Still.bind {x : ReadM α} {y : α → ReadM β} (hx : Still x)
    (hy : ∀ a, Numbers ns (y a) g) : Numbers ns (x >>= y) g := by
  refine Numbers.andThen hx fun a => ?_
  rw [List.append_nil]
  exact hy a

lemma numbers_issue (kind : Kind) (q : Qualifiers) :
    Numbers [] (issue kind q) fun slot => [slot.serial] := by
  intro s slot u h
  rw [issue_eq] at h
  cases h
  exact ⟨[s.issued], ⟨rfl, rfl⟩, rfl⟩

section Loops

variable {stop : ReadM Bool} {step : ReadM α}

lemma numbers_cons {x : ReadM (List α)} (hstep : Numbers [] step f)
    (hx : Numbers [] x (List.flatMap f)) :
    Numbers [] (do let a ← step; let as ← x; pure (a :: as)) (List.flatMap f) := by
  refine hstep.andThen fun a => ?_
  exact hx.andThen fun as => Numbers.pure rfl

lemma numbers_repeatWithin (hstop : Still stop) (hstep : Numbers [] step f) (fuel : Nat) :
    Numbers [] (repeatWithin stop step fuel) (List.flatMap f) := by
  induction fuel with
  | zero => exact numbers_of_error fun s a u h => by cases h
  | succ fuel ih =>
    refine hstop.bind fun b => ?_
    cases b with
    | true => exact Numbers.pure rfl
    | false => exact numbers_cons hstep ih

lemma numbers_repeatUntil (hstop : Still stop) (hstep : Numbers [] step f) :
    Numbers [] (repeatUntil stop step) (List.flatMap f) :=
  fun s => numbers_repeatWithin hstop hstep (s.rest.length + 1) s

lemma numbers_repeatTimes (hstep : Numbers [] step f) (n : Nat) :
    Numbers [] (repeatTimes step n) (List.flatMap f) := by
  induction n with
  | zero => exact Numbers.pure rfl
  | succ n ih => exact numbers_cons hstep ih

end Loops

lemma numbers_nested {x : ReadM α} (h : Numbers ns x f) : Numbers ns (nested x) f := by
  intro s a u hu
  rw [nested_eq] at hu
  split at hu
  · cases hu
  · split at hu
    · next b v hv =>
      cases hu
      obtain ⟨ms, hms, hf⟩ := h _ _ _ hv
      exact ⟨ms, ⟨hms.range, hms.count⟩, hf⟩
    · cases hu

/-- What knows nothing of types numbers nothing. -/
lemma Lexical.still {x : ReadM α} (h : Lexical x) : Still x :=
  fun _ _ _ hx => ⟨[], ⟨rfl, (h.counts hx).2⟩, rfl⟩

/-! ### Types -/

/-- The reader of nested types fills the slot, and numbers what is below it. -/
def NumbersTypes (nt : Slot → ReadM TypeTree) : Prop :=
  ∀ slot : Slot, Numbers [slot.serial] (nt slot) TypeTree.serials

section Productions

variable {nt : Slot → ReadM TypeTree} (hnt : NumbersTypes nt)

include hnt

lemma numbers_param : Numbers [] (param nt) TypeTree.serials :=
  (numbers_issue .unknown {}).bind hnt

lemma numbers_listedParam (unclosed : Malformed) :
    Numbers [] (listedParam nt unclosed) TypeTree.serials := by
  refine lexical_exhausted.still.bind fun b => ?_
  cases b with
  | true => exact numbers_of_error fun s a u h => by cases h
  | false => exact numbers_param hnt

lemma numbers_aggregate (key : TagKey) (slot : Slot) :
    Numbers [slot.serial] (aggregate nt key slot) TypeTree.serials := by
  refine (lexical_accept _).still.bind fun marked => ?_
  cases marked with
  | false => exact lexical_path.still.bind fun p => Numbers.pure (TypeTree.serials_leaf _)
  | true =>
    refine (lexical_closedName .base).still.bind fun base => ?_
    have hargs := numbers_repeatUntil (lexical_accept ['@']).still
      (numbers_listedParam hnt (.unterminatedArgs base))
    refine hargs.andThen fun args => Numbers.pure ?_
    rw [TypeTree.serials_mk]
    rfl

omit hnt in
lemma numbers_enumeration (slot : Slot) :
    Numbers [slot.serial] (enumeration slot) TypeTree.serials :=
  lexical_path.still.bind fun _ => Numbers.pure (TypeTree.serials_leaf _)

/-- The pointer and the function are numbered first, and then what the function is made of. -/
lemma numbers_functionPointer (slot : Slot) :
    Numbers [slot.serial] (functionPointer nt slot) TypeTree.serials := by
  have hparams := numbers_repeatUntil lexical_closeParams.still
    (numbers_listedParam hnt .unterminatedParams)
  refine (numbers_issue .function {}).andThen fun function => ?_
  refine (numbers_param hnt).andThen fun result => ?_
  refine hparams.andThen fun params => Numbers.pure ?_
  rw [TypeTree.serials_mk, Option.elim_some, TypeTree.serials_mk, Option.elim_some]
  simp [Slot.node]

lemma numbers_indirection (kind : Kind) (slot : Slot) :
    Numbers [slot.serial] (indirection nt kind slot) TypeTree.serials := by
  refine (lexical_accept _).still.bind fun _ => ?_
  refine lexical_storage.still.bind fun q => ?_
  refine (numbers_issue .unknown q).andThen fun target => ?_
  refine ((hnt target).behind [slot.serial]).bind fun t => Numbers.pure ?_
  rw [TypeTree.serials_mk]
  simp [Slot.node]

omit hnt in
lemma numbers_extent : Numbers [] extent fun row => [row.2.serial] :=
  (lexical_numeralAs _).still.bind fun _ =>
    (numbers_issue .unknown {}).bind fun _ => Numbers.pure rfl

omit hnt in
/-- The places of an array and of its rows, with the one for the elements split off. -/
lemma serials_slots (slot : Slot) (rows : List (Int × Slot)) :
    ∃ outer, slot.serial :: rows.map (fun row => row.2.serial) =
        outer ++ [(elementSlot slot rows).serial] ∧
      ∀ element : TypeTree, ∀ q, (arrayOf element { slot with qualifiers := q } rows).serials =
        outer ++ element.serials := by
  induction rows generalizing slot with
  | nil => exact ⟨[], rfl, fun element q => rfl⟩
  | cons row rows ih =>
    obtain ⟨n, next⟩ := row
    obtain ⟨outer, hslots, htree⟩ := ih next
    refine ⟨slot.serial :: outer, ?_, fun element q => ?_⟩
    · rw [List.map_cons, hslots]
      rfl
    · rw [arrayOf, TypeTree.serials_mk, Option.elim_some, htree element next.qualifiers]
      simp [Slot.node]

/-- Every extent numbers the place of what its array is made of, so the numbers of a chain go down
the chain, and those of the elements come last. -/
lemma numbers_array (slot : Slot) : Numbers [slot.serial] (array nt slot) TypeTree.serials := by
  refine lexical_dimension.still.bind fun n => ?_
  refine (numbers_repeatTimes numbers_extent n).andThen fun rows => ?_
  obtain ⟨outer, hslots, htree⟩ := serials_slots slot rows
  have hstart : [slot.serial] ++ rows.flatMap (fun row => [row.2.serial]) =
      outer ++ [(elementSlot slot rows).serial] := by
    rw [← hslots, ← List.flatMap_pure_eq_map]
    rfl
  rw [hstart]
  refine lexical_arrayStorage.still.bind fun q => ?_
  refine ((hnt _).behind outer).bind fun element => Numbers.pure ?_
  exact htree element _

lemma numbers_typeCode (slot : Slot) :
    Numbers [slot.serial] (typeCode nt slot) TypeTree.serials := by
  refine (lexical_code _).still.bind fun o => ?_
  match o with
  | none => exact lexical_primitive.still.bind fun p => Numbers.pure (TypeTree.serials_leaf _)
  | some (.aggregate key) => exact numbers_aggregate hnt key slot
  | some .enumeration => exact numbers_enumeration slot
  | some .functionPointer => exact numbers_functionPointer hnt slot
  | some .reference => exact numbers_indirection hnt _ slot
  | some .pointer => exact numbers_indirection hnt _ slot
  | some .constPointer => exact numbers_indirection hnt _ { slot with qualifiers := _ }
  | some .array => exact numbers_array hnt slot

end Productions

lemma numbers_typeWithin (levels : Nat) : NumbersTypes (typeWithin levels) := by
  induction levels with
  | zero => exact fun slot => numbers_nested (numbers_of_error fun s a u h => by cases h)
  | succ levels ih => exact fun slot => numbers_nested (numbers_typeCode ih slot)

lemma numbers_typeInto : NumbersTypes typeInto :=
  fun slot s => numbers_typeWithin (depthLimit - s.depth) slot s

/-! ### Symbols -/

lemma numbers_params (mark : Text) :
    Numbers [] (repeatUntil (do if ← exhausted then pure true else upcoming mark) (param typeInto))
      (List.flatMap TypeTree.serials) :=
  numbers_repeatUntil (lexical_paramsEnd mark).still (numbers_param numbers_typeInto)

lemma numbers_freeFunction : Numbers [] freeFunction TypeTree.serials := by
  refine (numbers_issue .function {}).bind fun slot => ?_
  refine lexical_convention.still.bind fun c => ?_
  refine lexical_returnStorage.still.bind fun q => ?_
  refine (numbers_issue .unknown q).andThen fun resultSlot => ?_
  refine ((numbers_typeInto resultSlot).behind [slot.serial]).bind fun result => ?_
  refine (numbers_params ['@']).andThen fun params => Numbers.pure ?_
  rw [TypeTree.serials_mk]
  simp [Slot.node]

lemma numbers_memberResult (q : Qualifiers) : Numbers [] (memberResult q) TypeTree.serials := by
  refine (lexical_accept _).still.bind fun missing => ?_
  cases missing with
  | true =>
    exact (numbers_issue .noReturn q).bind fun slot => Numbers.pure (TypeTree.serials_leaf _)
  | false =>
    refine (numbers_issue .unknown q).bind fun slot => ?_
    refine (numbers_typeInto slot).bind fun t => ?_
    exact (lexical_accept _).still.bind fun _ => Numbers.pure rfl

lemma numbers_memberFunction : Numbers [] memberFunction TypeTree.serials := by
  refine (numbers_issue .function {}).bind fun slot => ?_
  refine lexical_functionClass.still.bind fun cls => ?_
  refine (lexical_accept _).still.bind fun _ => ?_
  refine lexical_convention.still.bind fun c => ?_
  refine lexical_storage.still.bind fun q => ?_
  refine (numbers_memberResult q).andThen fun result => ?_
  refine (numbers_params ['Z']).andThen fun params => Numbers.pure ?_
  rw [TypeTree.serials_mk]
  simp [Slot.node]

lemma numbers_body (h : Heading) : Numbers [] (body h) fun s => s.type.serials := by
  match h with
  | .identifier name =>
    exact (numbers_issue .unknown {}).bind fun slot => Numbers.pure (TypeTree.serials_leaf _)
  | .decorated .variable p =>
    exact (numbers_param numbers_typeInto).bind fun t => Numbers.pure rfl
  | .decorated .freeFunction p => exact numbers_freeFunction.bind fun t => Numbers.pure rfl
  | .decorated .memberFunction p => exact numbers_memberFunction.bind fun t => Numbers.pure rfl

lemma numbers_symbol : Numbers [] symbol fun s => s.type.serials :=
  lexical_heading.still.bind numbers_body

end Reading

open Reading

lemma serials_eq_range {d : Decoder} {t : Text} {s : Symbol} (h : (d.parse t).1 = .ok s) :
    s.type.serials = List.range (d.parse t).2.state.issued := by
  cases hr : symbol (d.restart t) with
  | error f u =>
    simp only [Decoder.parse, hr] at h
    cases h
  | ok sym u =>
    simp only [Decoder.parse, hr] at h ⊢
    cases h
    obtain ⟨ns, ⟨hns, hcount⟩, hserials⟩ := numbers_symbol _ _ _ hr
    have hzero : (d.restart t).issued = 0 := rfl
    rw [hzero] at hns hcount
    rw [hcount, Nat.zero_add, List.range_eq_range', ← hns]
    exact hserials

/-- **Nothing but the tree is numbered**: whatever a decoder has read before, the nodes of a symbol
that it reads are numbered from zero in the order of `walk`, and no other node has a number. So
every node that was made is found in the tree, and at one place only. -/
theorem serials_of_parse {d : Decoder} {t : Text} {s : Symbol} (h : (d.parse t).1 = .ok s) :
    s.type.walk.map (fun u => u.node.serial) = List.range (d.parse t).2.state.issued ∧
      ∀ i < (d.parse t).2.state.issued,
        (s.type.walk.map fun u => u.node.serial).count i = 1 := by
  have hrange := serials_eq_range h
  refine ⟨hrange, fun i hi => ?_⟩
  have hcount : s.type.serials.count i = 1 := by
    rw [hrange]
    exact List.count_eq_one_of_mem List.nodup_range (List.mem_range.2 hi)
  exact hcount

/-- A function that returns a pointer to a function, takes an array of two dimensions by reference,
and takes a pointer to a template instance. -/
def numberedName : Text := "?f@@YAP6AHN@ZAAY123HPAV?$Box@HPAD@@@Z".toList

theorem serials_of_parse_numberedName :
    ∃ s, parse numberedName = .ok s ∧
      s.type.walk.map (fun u => u.node.serial) = List.range 14 := by
  have hissued : (Decoder.parse {} numberedName).2.state.issued = 14 := by decide +kernel
  obtain ⟨s, hs, -⟩ := exists_of_test (t := numberedName) (p := fun _ => true) (by decide +kernel)
  have hserials := (serials_of_parse (d := {}) hs).1
  rw [hissued] at hserials
  exact ⟨s, hs, hserials⟩

end Undecorate
