import Undecorate.Proofs.Agreement

/-!
The order of switches does not matter, and `verbose` only adds to the log.

A command line names one symbol and has switches before and behind it, alone or joined. Each of them
adds to what is asked for and takes nothing back, so that all that counts is which switches are
there. The log is a list of records about reading the symbol, and stands in front of what is written
to the error output without it.
-/

namespace Undecorate

namespace CommandLine

/-- The ways to give `passthrough` and `verbose`, alone and joined. -/
def switchForms : List (Text × List Switch) :=
  [("-p".toList, [.passthrough]),
   ("--passthrough".toList, [.passthrough]),
   ("-v".toList, [.verbose]),
   ("--verbose".toList, [.verbose]),
   ("-pv".toList, [.passthrough, .verbose]),
   ("-vp".toList, [.verbose, .passthrough])]

/-- The switches that an argument gives. -/
def givenBy (a : Text) : List Switch := (switchForms.lookup a).getD []

/-- Some argument gives the switch. -/
def asks (s : Switch) (args : List Text) : Bool := args.any fun a => (givenBy a).contains s

/-- The symbol is named once, and there are switches before and behind it. -/
def Names (t : Text) (args : List Text) : Prop :=
  ∃ before behind, args = before ++ t :: behind ∧
    ∀ a ∈ before ++ behind, a ∈ switchForms.map Prod.fst

/-! ### Arguments -/

lemma switchForms_spec : ∀ a ∈ switchForms.map Prod.fst,
    classify? a = some (.switches (givenBy a)) ∧ .help ∉ givenBy a := by
  decide

lemma givenBy_of_no_dash {t : Text} (ht : t.head? ≠ some '-') : givenBy t = [] := by
  have hdash : ∀ e ∈ switchForms, e.1.head? = some '-' := by decide
  cases hl : switchForms.lookup t with
  | none => simp [givenBy, hl]
  | some given => exact absurd (hdash _ (Reading.mem_of_lookup_eq_some hl)) ht

/-- Switches in front are told apart one by one. -/
lemma classifyAll?_switches {args : List Text} (h : ∀ a ∈ args, a ∈ switchForms.map Prod.fst)
    (rest : List Text) :
    classifyAll? (args ++ rest) =
      (classifyAll? rest).map ((args.map givenBy).map .switches ++ ·) := by
  induction args with
  | nil => simp
  | cons a args ih =>
    have ha := (switchForms_spec a (h a (by simp))).1
    rw [List.cons_append, classifyAll?, ha]
    simp only [ih fun b hb => h b (by simp [hb]), Option.map_map, List.map_cons, List.cons_append]
    rfl

/-! ### Drafts -/

/-- What a list of switches asks for does not depend on its order. -/
lemma foldl_switches (d : Draft) (gs : List (List Switch)) :
    gs.foldl Draft.switches d =
      { d with
        passthrough := d.passthrough || gs.any (·.contains .passthrough)
        verbose := d.verbose || gs.any (·.contains .verbose) } := by
  induction gs generalizing d with
  | nil => simp
  | cons g gs ih =>
    rw [List.foldl_cons, ih]
    simp [Draft.switches, Bool.or_assoc]

lemma follow_switches {gs : List (List Switch)} (h : ∀ g ∈ gs, .help ∉ g) (d : Draft)
    (rest : List Argument) :
    d.follow (gs.map .switches ++ rest) = (gs.foldl Draft.switches d).follow rest := by
  induction gs generalizing d with
  | nil => rfl
  | cons g gs ih =>
    have hg : g.contains .help = false := by simpa using h g (by simp)
    simp only [List.map_cons, List.cons_append, Draft.follow, hg, Bool.false_eq_true, if_false,
      List.foldl_cons]
    exact ih (fun g' hg' => h g' (by simp [hg'])) _

/-- No separator follows the symbol here that would belong to it. -/
lemma follow_operand {gs : List (List Switch)} (h : ∀ g ∈ gs, .help ∉ g) (d : Draft) (t : Text) :
    d.follow (.operand t :: gs.map .switches) = (gs.foldl Draft.switches (d.operand t)).finish := by
  have hrest : (d.operand t).follow (gs.map .switches) =
      (gs.foldl Draft.switches (d.operand t)).finish := by
    simpa [Draft.follow] using follow_switches h (d.operand t) []
  rw [← hrest]
  cases gs <;> rfl

/-- **What counts is which switches are there**, and not where or how often. -/
lemma ofArgs_of_names {t : Text} {args : List Text} (ht : t.head? ≠ some '-') (h : Names t args) :
    Request.ofArgs args = .symbol t (asks .passthrough args) (asks .verbose args) := by
  obtain ⟨before, behind, rfl, hforms⟩ := h
  have hbefore : ∀ a ∈ before, a ∈ switchForms.map Prod.fst := fun a ha => hforms a (by simp [ha])
  have hbehind : ∀ a ∈ behind, a ∈ switchForms.map Prod.fst := fun a ha => hforms a (by simp [ha])
  have hhelp : ∀ {args : List Text}, (∀ a ∈ args, a ∈ switchForms.map Prod.fst) →
      ∀ g ∈ args.map givenBy, Switch.help ∉ g := by
    intro args hargs g hg
    obtain ⟨a, ha, rfl⟩ := List.mem_map.1 hg
    exact (switchForms_spec a (hargs a ha)).2
  have hall : classifyAll? (before ++ t :: behind) =
      some ((before.map givenBy).map .switches ++
        .operand t :: (behind.map givenBy).map .switches) := by
    have htail := classifyAll?_switches hbehind []
    rw [List.append_nil] at htail
    rw [classifyAll?_switches hbefore, classifyAll?, classify?_of_no_dash ht, htail]
    simp [classifyAll?]
  simp only [Request.ofArgs, hall]
  rw [follow_switches (hhelp hbefore), follow_operand (hhelp hbehind), foldl_switches,
    foldl_switches]
  simp [Draft.operand, Draft.finish, asks, givenBy_of_no_dash ht, List.any_map, Function.comp_def]

end CommandLine

open Reading CommandLine

/-! ### The log -/

/-- A message as a record of the log. -/
def logRecord (message : Text) : Text :=
  "DEBUG msvc_demangler.demangler: ".toList ++ message ++ ['\n']

/-- The failure to read a text, as it is logged. -/
def failureEvents (t : Text) : List Event :=
  match parse t with
  | .ok _ => []
  | .error f => Event.ofFailure t f

/-- Besides that reading begins, it is logged what the heading announces, if it can be read, and
then the failure, if the text is malformed. -/
lemma events_eq (t : Text) :
    ∃ heads : List Heading, events t = .begun t :: (heads.map .announced ++ failureEvents t) := by
  unfold events failureEvents
  cases hhead : heading (.start t) with
  | error f u =>
    have hparse : parse t = .error f := by rw [parse, decoder_of_error (bind_of_error hhead)]
    exact ⟨[], by rw [hparse]; rfl⟩
  | ok head s =>
    have hsymbol : symbol (.start t) = body head s := bind_of_ok hhead
    cases hbody : body head s with
    | error f u =>
      have hparse : parse t = .error f := by rw [parse, decoder_of_error (hsymbol.trans hbody)]
      exact ⟨[head], by rw [hparse]; simp only [hbody]; rfl⟩
    | ok sym u =>
      have hparse : parse t = .ok sym := by rw [parse, decoder_of_ok (hsymbol.trans hbody)]
      exact ⟨[head], by rw [hparse]; simp only [hbody]; rfl⟩

/-- The log begins with the text, and ends with the failure to read it where there is one. -/
lemma logOf_eq (t : Text) :
    ∃ messages : List Text,
      logOf t = (("demangling ".toList ++ t.quoted) :: messages).flatMap logRecord ∧
      ∀ why, parse t = .error (.malformed why) →
        messages.getLast? = some ("failed to demangle ".toList ++ t.quoted ++ ": ".toList ++
          why.message) := by
  obtain ⟨heads, hevents⟩ := events_eq t
  refine ⟨(heads.map Event.announced ++ failureEvents t).map Event.message, ?_, fun why h => ?_⟩
  · have hlines : ∀ es : List Event, es.flatMap Event.line =
        (es.map Event.message).flatMap logRecord := fun es => by rw [List.flatMap_map]; rfl
    rw [logOf, hevents, hlines]
    rfl
  · have hlast : failureEvents t = [.failed t why] := by
      simp only [failureEvents, h, Event.ofFailure]
    rw [hlast, List.map_append, List.map_singleton, List.getLast?_append]
    rfl

/-! ### Runs -/

/-- **Order does not matter, and `verbose` only adds to the log**: two command lines that name the
same symbol and agree on `passthrough` print the same and end in the same way, and if they agree on
`verbose` too they are answered alike. With `verbose`, the error output is a log, which begins with
the text, in front of what it is without it. -/
theorem run_depends_on_switches {t : Text} {args args' : List Text} (ht : t.head? ≠ some '-')
    (h : Names t args) (h' : Names t args')
    (hp : asks .passthrough args = asks .passthrough args') :
    (run args).out = (run args').out ∧ (run args).ending = (run args').ending ∧
    (asks .verbose args = asks .verbose args' → run args = run args') ∧
    (asks .verbose args = true → asks .verbose args' = false →
      ∃ messages : List Text,
        (run args).err =
          (("demangling ".toList ++ t.quoted) :: messages).flatMap logRecord ++ (run args').err ∧
        ∀ why, parse t = .error (.malformed why) →
          messages.getLast? = some ("failed to demangle ".toList ++ t.quoted ++ ": ".toList ++
            why.message)) := by
  simp only [run, ofArgs_of_names ht h, ofArgs_of_names ht h', hp]
  refine ⟨rfl, rfl, fun hv => by rw [hv], fun hv hv' => ?_⟩
  obtain ⟨messages, hlog, hlast⟩ := logOf_eq t
  exact ⟨messages, by simp [respond, hv, hv', hlog], hlast⟩

/-- A name that ends before its type. -/
def fragmentName : Text := "?x@@3".toList

/-- The error stays an error with the log in front of it, and it does not matter that switches are
joined or given twice. -/
theorem run_depends_on_switches_fragmentName :
    (run ["-v".toList, fragmentName, "--verbose".toList]).ending = .exit 1 ∧
      (∃ messages : List Text,
        (run ["-v".toList, fragmentName, "--verbose".toList]).err =
          (("demangling ".toList ++ fragmentName.quoted) :: messages).flatMap logRecord ++
            "unknown primitive type: \n".toList) ∧
      run [fragmentName, "-pv".toList, "-p".toList] =
        run ["--verbose".toList, "-vp".toList, fragmentName] := by
  have halone : Names fragmentName [fragmentName] := ⟨[], [], rfl, by simp⟩
  have hverbose : Names fragmentName ["-v".toList, fragmentName, "--verbose".toList] :=
    ⟨["-v".toList], ["--verbose".toList], rfl, by decide⟩
  have hjoined : Names fragmentName [fragmentName, "-pv".toList, "-p".toList] :=
    ⟨[], ["-pv".toList, "-p".toList], rfl, by decide⟩
  have hapart : Names fragmentName ["--verbose".toList, "-vp".toList, fragmentName] :=
    ⟨["--verbose".toList, "-vp".toList], [], rfl, by decide⟩
  have herr : (run [fragmentName]).err = "unknown primitive type: \n".toList := by decide +kernel
  have hend : (run [fragmentName]).ending = .exit 1 := by decide +kernel
  obtain ⟨-, hending, -, hlog⟩ := run_depends_on_switches (by decide) hverbose halone (by decide)
  obtain ⟨messages, hmessages, -⟩ := hlog (by decide) (by decide)
  obtain ⟨-, -, hsame, -⟩ := run_depends_on_switches (by decide) hjoined hapart (by decide)
  exact ⟨hending.trans hend, ⟨messages, by rw [hmessages, herr]⟩, hsame (by decide)⟩

end Undecorate
