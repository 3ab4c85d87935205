import Mathlib.Data.List.Forall2
import Undecorate.Proofs.Declaration.InsideOut
import Undecorate.Proofs.Reading.Lexical
import Undecorate.Proofs.WellFormed

/-!
Functions without a result.

A constructor or destructor has a lone `@` in the place of its result. The reader keeps the storage
in front of it on the missing result, and the writer looks for `const` whatever the kind of a type.
So a function without a result is its name with its parameters in parentheses, with nothing before
the name, exactly if the storage is not `const`.
-/

namespace Undecorate

open Script

/-- A name with parameters in parentheses, and nothing before it. -/
def callText (name : Text) (params : List Text) : Text :=
  name ++ '(' :: ([','].intercalate params ++ [')'])

/-- What a `const` that belongs to nothing leaves before the name. -/
def strayConst (q : Qualifiers) (p : Path) : Text :=
  if q.isConst then "const".toList ++ (if p.isEmpty then [] else [' ']) else []

lemma strayConst_eq_nil {q : Qualifiers} {p : Path} :
    strayConst q p = [] ↔ q.isConst = false := by
  unfold strayConst
  cases q.isConst with
  | true => simp
  | false => simp

/-! ### Parameters -/

lemma Script.render_eq_ok_iff_writes {s : Script} {t : Text} : s.render = .ok t ↔ s.Writes t := by
  refine ⟨fun h => ?_, Writes.render⟩
  unfold Script.render at h
  split at h
  · cases h
  · next hf =>
    cases h
    exact ⟨hf, rfl⟩

namespace TypeTree

/-- The texts are those of the types, each written alone. -/
def RenderAs (ts : List TypeTree) (texts : List Text) : Prop :=
  List.Forall₂ (fun t text => t.render = .ok text) ts texts

lemma RenderAs.lays_furtherParams {ts : List TypeTree} {texts : List Text} (h : RenderAs ts texts) :
    (furtherParams ts).Lays { text := texts.flatMap fun text => ',' :: text } := by
  induction h with
  | nil => exact lays_empty
  | cons ht _ ih =>
    have hfirst := (render_eq_ok_iff_writes.1 ht).behind (c := ',') (by decide)
    rw [furtherParams, append_assoc (text [','])]
    exact hfirst.append ih

lemma RenderAs.writes_params {ts : List TypeTree} {texts : List Text} (h : RenderAs ts texts) :
    (params ts).Writes ([','].intercalate texts) := by
  cases h with
  | nil => exact ⟨rfl, rfl⟩
  | cons ht hts =>
    rw [params, intercalate_cons]
    exact (render_eq_ok_iff_writes.1 ht).append (RenderAs.lays_furtherParams hts)

lemma exists_renderAs_of_further {ts : List TypeTree} (h : (furtherParams ts).fault = none) :
    ∃ texts, RenderAs ts texts := by
  induction ts with
  | nil => exact ⟨[], .nil⟩
  | cons t ts ih =>
    rw [furtherParams, append_assoc (text [','])] at h
    obtain ⟨hfirst, hrest⟩ := fault_append_eq_none.1 h
    have ht := (fault_append_eq_none.1 hfirst).2
    obtain ⟨texts, htexts⟩ := ih hrest
    exact ⟨_, .cons (render_eq_ok_iff_writes.2 ⟨ht, rfl⟩) htexts⟩

/-- Parameters that are written are written one by one. -/
lemma exists_renderAs {ts : List TypeTree} (h : (params ts).fault = none) :
    ∃ texts, RenderAs ts texts := by
  cases ts with
  | nil => exact ⟨[], .nil⟩
  | cons t ts =>
    obtain ⟨ht, hrest⟩ := fault_append_eq_none.1 h
    obtain ⟨texts, htexts⟩ := exists_renderAs_of_further hrest
    exact ⟨_, .cons (render_eq_ok_iff_writes.2 ⟨ht, rfl⟩) htexts⟩

end TypeTree

/-! ### Declarations -/

namespace Symbol

/-- The symbol is a function without a result, and the missing result has these qualifiers. -/
def LacksResult (s : Symbol) (q : Qualifiers) : Prop :=
  s.type.kind = .function ∧ ∃ result ∈ s.type.inner, result.kind = .noReturn ∧
    result.node.qualifiers = q

instance (s : Symbol) (q : Qualifiers) : Decidable (s.LacksResult q) :=
  inferInstanceAs (Decidable (_ ∧ _))

variable {s : Symbol} {q : Qualifiers}

lemma qualifiedName_eq (s : Symbol) : s.qualifiedName = s.path.text :=
  (lays_qualified s.path).writes.2

/-- Only the `const` of the missing result is to the left of the name. -/
lemma LacksResult.declare_eq (h : s.LacksResult q) :
    ∃ node : Node, node.qualifiers = q ∧ s.type.declare s.path = constMark node ++
      (qualified s.path ++ (text ['('] ++ TypeTree.params s.type.args ++ text [')'])) := by
  obtain ⟨p, ⟨node, inner, args⟩⟩ := s
  obtain ⟨hf, ⟨resultNode, resultInner, resultArgs⟩, hinner, hn, hq⟩ := h
  change node.kind = .function at hf
  change inner = _ at hinner
  change resultNode.kind = .noReturn at hn
  subst hinner
  refine ⟨resultNode, hq, ?_⟩
  simp only [TypeTree.declare, TypeTree.left, TypeTree.right, TypeTree.leftInner, TypeTree.args, hf,
    hn, append_assoc]

/-- A `const` in front of a name with parameters. -/
lemma text_qualified (p : Path) (t : Text) (node : Node) :
    (((Declarator.ofPath p).followedBy t).qualified node).text =
      strayConst node.qualifiers p ++ (p.text ++ t) := by
  unfold strayConst Declarator.qualified
  cases node.qualifiers.isConst with
  | false => simp [Declarator.followedBy, Declarator.ofPath]
  | true =>
    have hletter : endsInLetter false ['c', 'o', 'n', 's', 't'] = true := by decide
    cases p with
    | nil => simp [Declarator.after, Declarator.followedBy, Declarator.ofPath]
    | cons base scopes =>
      simp [Declarator.after, Declarator.followedBy, Declarator.ofPath, hletter]

lemma LacksResult.writes (h : s.LacksResult q) {texts : List Text}
    (ht : TypeTree.RenderAs s.type.args texts) :
    (s.type.declare s.path).Writes
      (strayConst q s.path ++ callText s.qualifiedName texts) := by
  obtain ⟨node, rfl, hdeclare⟩ := h.declare_eq
  have hparams := (ht.writes_params.behind (c := '(') (by decide)).append (lays_text [')'])
  have hnamed := (lays_qualified s.path).append hparams
  have hall := (lays_constMark hnamed node).writes
  rw [text_qualified] at hall
  rw [hdeclare, qualifiedName_eq]
  exact hall

/-- The declaration is complete exactly if the parameters are. -/
lemma LacksResult.render_eq_ok_iff (h : s.LacksResult q) {d : Text} :
    s.render = .ok d ↔ ∃ texts, TypeTree.RenderAs s.type.args texts ∧
      d = strayConst q s.path ++ callText s.qualifiedName texts := by
  constructor
  · intro hd
    have hwrites := render_eq_ok_iff_writes.1 hd
    have hparams : (TypeTree.params s.type.args).fault = none := by
      obtain ⟨node, -, hdeclare⟩ := h.declare_eq
      have hfault := hwrites.1
      rw [hdeclare] at hfault
      simp only [fault_append_eq_none] at hfault
      exact hfault.2.2.1.2
    obtain ⟨texts, htexts⟩ := TypeTree.exists_renderAs hparams
    refine ⟨texts, htexts, ?_⟩
    rw [← hwrites.2, (h.writes htexts).2]
  · rintro ⟨texts, htexts, rfl⟩
    exact (h.writes htexts).render

end Symbol

/-! ### Texts -/

namespace Reading

variable {t : Text} {q : Qualifiers}

/-- Where a placed state is read to a good end, so is the state itself. -/
lemma Lexical.ok_of_placed {α : Type} {x : ReadM α} (h : Lexical x) {s u : State} {d n : Nat}
    {a : α} (hx : x (s.placed d n) = .ok a u) : ∃ v, x s = .ok a v := by
  rw [h s d n] at hx
  cases hs : x s with
  | ok b v =>
    rw [hs] at hx
    cases hx
    exact ⟨v, rfl⟩
  | error f v =>
    rw [hs] at hx
    cases hx

/-- The storage in front of the result of a member function. -/
def memberStorage : ReadM Qualifiers := do
  let _ ← functionClass
  let _ ← accept ['E']
  let _ ← convention
  storage

/-- The storage in front of the result, if the text goes on like that of a member function. -/
def resultStorage? (t : Text) : Option Qualifiers :=
  match (heading >>= fun _ => memberStorage) (.start t) with
  | .ok q _ => some q
  | .error _ _ => none

lemma lexical_memberStorage : Lexical memberStorage := by
  refine lexical_functionClass.bind fun _ => ?_
  refine (lexical_accept _).bind fun _ => ?_
  exact lexical_convention.bind fun _ => lexical_storage

lemma ends_memberStorage {s : State} (hs : Sound t s) (hcodes : entityCodes.Missing s.rest) :
    Ends t 0 Qualifiers.Stored s (memberStorage s) := by
  refine (ends_functionClass hs hcodes).andThen fun f u _ hu _ => ?_
  refine Reads.bind (reads_accept _) (fun _ _ => ?_) u hu
  exact reads_convention.andThen fun _ _ => reads_storage

/-- A missing result has the qualifiers that were read in front of it. -/
lemma reads_missingResult (hq : q.Stored) :
    Reads t 0 (memberResult q) fun result => result.kind = .noReturn →
      result.node.qualifiers = q := by
  refine (reads_accept _).bind fun missing _ => ?_
  cases missing with
  | true => exact (reads_issue .noReturn q).bind fun slot hs => Reads.pure fun _ => hs
  | false =>
    refine (reads_issue .unknown q).bind fun slot hs => ?_
    refine (reads_typeInto slot (hs ▸ hq)).andThen fun result hr => ?_
    exact (reads_accept _).bind fun _ _ => Reads.pure fun hn => absurd hn hr.kind_ne.2

lemma reads_freeResult :
    Reads t 0 freeFunction fun type => ∀ result ∈ type.inner, result.kind ≠ .noReturn := by
  refine (reads_issue .function {}).bind fun slot _ => ?_
  refine reads_convention.andThen fun c _ => ?_
  refine reads_returnStorage.bind fun q hq => ?_
  refine (reads_issue .unknown q).bind fun resultSlot hr => ?_
  refine (reads_typeInto resultSlot (hr ▸ hq)).andThen fun result hresult => ?_
  refine (reads_params ['@']).bind fun params _ => Reads.pure ?_
  rintro r ⟨⟩
  exact hresult.kind_ne.2

lemma storage_of_memberFunction {s u : State} {type : TypeTree} (hs : Sound t s)
    (hcodes : entityCodes.Missing s.rest) (h : memberFunction s = .ok type u) :
    ∃ q v, memberStorage s = .ok q v ∧
      ∀ result ∈ type.inner, result.kind = .noReturn → result.node.qualifiers = q := by
  obtain ⟨slot, s₁, hslot, h⟩ := bind_eq_ok_iff.1 h
  obtain ⟨cls, s₂, hcls, h⟩ := bind_eq_ok_iff.1 h
  obtain ⟨extra, s₃, hextra, h⟩ := bind_eq_ok_iff.1 h
  obtain ⟨c, s₄, hc, h⟩ := bind_eq_ok_iff.1 h
  obtain ⟨q, s₅, hq, h⟩ := bind_eq_ok_iff.1 h
  obtain ⟨result, s₆, hresult, h⟩ := bind_eq_ok_iff.1 h
  obtain ⟨params, s₇, hparams, h⟩ := bind_eq_ok_iff.1 h
  cases h
  rw [issue_eq] at hslot
  cases hslot
  have hstorage : memberStorage (s.placed s.depth (s.issued + 1)) = .ok q s₅ :=
    calc memberStorage (s.placed s.depth (s.issued + 1))
        = (accept ['E'] >>= fun _ => convention >>= fun _ => storage) s₂ := bind_of_ok hcls
      _ = (convention >>= fun _ => storage) s₃ := bind_of_ok hextra
      _ = storage s₄ := bind_of_ok hc
      _ = .ok q s₅ := hq
  have hs₁ : Sound t (s.placed s.depth (s.issued + 1)) := ⟨hs.text, hs.names, hs.fits⟩
  have hends := ends_memberStorage hs₁ hcodes
  rw [hstorage] at hends
  obtain ⟨hstored, hs₅, -⟩ := hends
  have hmissing := reads_missingResult hstored s₅ hs₅
  rw [hresult] at hmissing
  -- the node that was numbered before does not matter to the storage
  obtain ⟨v, hv⟩ := lexical_memberStorage.ok_of_placed hstorage
  refine ⟨q, v, hv, ?_⟩
  rintro r ⟨⟩
  exact hmissing.1

end Reading

open Reading

/-- Only a member function can lack its result, and it keeps the storage that is read there. -/
lemma resultStorage?_of_parse {t : Text} {s : Symbol} {q : Qualifiers} (h : parse t = .ok s)
    (hl : s.LacksResult q) : resultStorage? t = some q := by
  obtain ⟨hf, result, hresult, hn, hq⟩ := hl
  have ht : t.head? = some '?' := by
    by_contra hne
    rw [parse_of_identifier hne] at h
    cases h
    cases hf
  obtain ⟨w, hw⟩ := List.head?_eq_some_iff.1 ht
  obtain ⟨u, hu⟩ := ok_of_parse h
  obtain ⟨head, v, hhead, hbody⟩ := bind_eq_ok_iff.1 hu
  have hends := ends_heading (sound_start t) hw
  rw [hhead] at hends
  obtain ⟨⟨e, p, rfl, -⟩, hv, -⟩ := hends
  match e with
  | .variable =>
    obtain ⟨type, v', htype, hbody⟩ := bind_eq_ok_iff.1 hbody
    cases hbody
    have hreads := reads_param reads_typeInto v hv
    rw [htype] at hreads
    exact absurd hf hreads.1.kind_ne.1
  | .freeFunction =>
    obtain ⟨type, v', htype, hbody⟩ := bind_eq_ok_iff.1 hbody
    cases hbody
    have hreads := reads_freeResult v hv
    rw [htype] at hreads
    exact absurd hn (hreads.1 result hresult)
  | .memberFunction =>
    obtain ⟨type, v', htype, hbody⟩ := bind_eq_ok_iff.1 hbody
    cases hbody
    obtain ⟨q', x, hstorage, hkept⟩ :=
      storage_of_memberFunction hv (missing_of_heading hhead) htype
    obtain rfl := (hkept result hresult hn).symm.trans hq
    unfold resultStorage?
    rw [bind_of_ok hhead, hstorage]

/-- **A missing result is written as nothing, unless it is `const`**: a function that was read
without a result has the storage that its text has in front of the lone `@`. Its declaration is its
name with the texts of its parameters, and before the name there is nothing but a `const` of that
storage. -/
theorem missing_result_unwritten_iff {t d : Text} {s : Symbol} {q : Qualifiers}
    (h : parse t = .ok s) (hl : s.LacksResult q) (hd : s.render = .ok d) :
    resultStorage? t = some q ∧ ∃ texts, TypeTree.RenderAs s.type.args texts ∧
      d = strayConst q s.path ++ callText s.qualifiedName texts ∧
      (d = callText s.qualifiedName texts ↔ q.isConst = false) := by
  obtain ⟨texts, htexts, rfl⟩ := hl.render_eq_ok_iff.1 hd
  refine ⟨resultStorage?_of_parse h hl, texts, htexts, rfl, ?_⟩
  rw [List.append_left_eq_self, strayConst_eq_nil]

/-- Whether a symbol lacks its result behind this storage and has this declaration. -/
def declaresWithout (q : Qualifiers) (d : Text) (s : Symbol) : Bool :=
  decide (s.LacksResult q) && decide (s.render.toOption = some d)

lemma declaresWithout_spec {q : Qualifiers} {d : Text} {s : Symbol}
    (h : declaresWithout q d s = true) : s.LacksResult q ∧ s.render = .ok d := by
  simp only [declaresWithout, Bool.and_eq_true, decide_eq_true_eq] at h
  exact ⟨h.1, render_of_toOption h.2⟩

/-- The destructor of a class in a namespace, behind a storage that is not `const`. -/
theorem missing_result_unwritten_iff_destructor :
    ∃ s, parse "??1Foo@ns@@UAC@PAHDZ".toList = .ok s ∧ s.LacksResult { isVolatile := true } ∧
      s.render = .ok "ns::Foo::~Foo(int*,char)".toList ∧
      resultStorage? "??1Foo@ns@@UAC@PAHDZ".toList = some { isVolatile := true } ∧
      ∃ texts, TypeTree.RenderAs s.type.args texts ∧
        "ns::Foo::~Foo(int*,char)".toList = callText s.qualifiedName texts := by
  obtain ⟨s, hs, htest⟩ := exists_of_test (t := "??1Foo@ns@@UAC@PAHDZ".toList)
    (p := declaresWithout { isVolatile := true } "ns::Foo::~Foo(int*,char)".toList)
    (by decide +kernel)
  obtain ⟨hl, hd⟩ := declaresWithout_spec htest
  obtain ⟨hstorage, texts, htexts, -, hiff⟩ := missing_result_unwritten_iff hs hl hd
  exact ⟨s, hs, hl, hd, hstorage, texts, htexts, hiff.2 rfl⟩

/-- A constructor behind a storage that is `const`: whatever its parameters, something else is in
front of its name. -/
theorem const_before_constructor :
    ∃ s, parse "??0Foo@@QAB@XZ".toList = .ok s ∧ s.LacksResult { isConst := true } ∧
      s.qualifiedName = "Foo::Foo".toList ∧ s.render = .ok "const Foo::Foo(void)".toList ∧
      ∀ texts, "const Foo::Foo(void)".toList ≠ callText s.qualifiedName texts := by
  obtain ⟨s, hs, htest⟩ := exists_of_test (t := "??0Foo@@QAB@XZ".toList)
    (p := fun s => declaresWithout { isConst := true } "const Foo::Foo(void)".toList s &&
      decide (s.qualifiedName = "Foo::Foo".toList)) (by decide +kernel)
  obtain ⟨htest, hname⟩ := Bool.and_eq_true_iff.1 htest
  obtain ⟨hl, hd⟩ := declaresWithout_spec htest
  have hname := of_decide_eq_true hname
  refine ⟨s, hs, hl, hname, hd, fun texts htext => ?_⟩
  rw [hname] at htext
  exact absurd (congrArg List.head? htext) (by simp [callText])

end Undecorate
