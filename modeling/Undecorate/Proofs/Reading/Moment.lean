import Mathlib.Logic.Relation
import Undecorate.Proofs.Reading.Assembly

/-!
Reading, step by step.

`Step s u` says that an elementary reader leads from `s` to `u`, and `Stops s f u` that one of them
fails with `f`. So reading is a run of steps that ends in success, or that an elementary reader
stops: `Runs x` says this of `x`, and it holds of whatever is assembled from readers that run. A
property of states that each step keeps holds at every moment of reading.
-/

namespace Undecorate

namespace Reading

variable {α β : Type}

/-- An elementary reader leads from one state to the other. -/
def Step (s u : State) : Prop := ∃ (α : Type) (x : ReadM α) (a : α), Elementary x ∧ x s = .ok a u

/-- An elementary reader fails. -/
def Stops (s : State) (f : Failure) (u : State) : Prop :=
  ∃ (α : Type) (x : ReadM α), Elementary x ∧ x s = .error f u

/-- Steps that follow each other. -/
abbrev Run : State → State → Prop := Relation.ReflTransGen Step

/-- A run from `s` ends like this, or is stopped like this. -/
def Concludes (s : State) : EStateM.Result Failure State α → Prop
  | .ok _ u => Run s u
  | .error f u => ∃ m, Run s m ∧ Stops m f u

/-- Reading `x` is a run of steps, from wherever it starts. -/
def Runs (x : ReadM α) : Prop := ∀ s, Concludes s (x s)

/-! ### Rules -/

lemma Concludes.after {s u : State} {r : EStateM.Result Failure State α} (hr : Concludes u r)
    (h : Run s u) : Concludes s r := by
  cases r with
  | ok a v => exact h.trans hr
  | error f v =>
    obtain ⟨m, hm, hstop⟩ := hr
    exact ⟨m, h.trans hm, hstop⟩

lemma Elementary.runs {x : ReadM α} (h : Elementary x) : Runs x := by
  intro s
  cases hx : x s with
  | ok a u => exact .single ⟨α, x, a, h, hx⟩
  | error f u => exact ⟨s, .refl, α, x, h, hx⟩

lemma Runs.bind {x : ReadM α} {f : α → ReadM β} (hx : Runs x) (hf : ∀ a, Runs (f a)) :
    Runs (x >>= f) := by
  intro s
  have h := hx s
  cases hs : x s with
  | ok a u =>
    rw [hs] at h
    rw [bind_of_ok hs]
    exact (hf a u).after h
  | error e u =>
    rw [hs] at h
    rw [bind_of_error hs]
    exact h

lemma Runs.run {x : ReadM α} (h : Runs x) {s u : State} {a : α} (hx : x s = .ok a u) : Run s u := by
  have hend := h s
  rwa [hx] at hend

section Assembled

variable {B : (α : Type) → ReadM α → Prop} (hB : ∀ {α : Type} {x : ReadM α}, B α x → Runs x)
  {x : ReadM α}

include hB

/-- Whatever is assembled from readers that run is a run of steps. -/
lemma Assembled.runs (h : Assembled B x) : Runs x := by
  induction h with
  | base hx => exact hB hx
  | look f => exact fun s => .refl
  | bind _ _ ihx ihf => exact ihx.bind ihf

/-- Where reading comes to, steps lead to. -/
lemma Comes.run {y : ReadM β} {s u : State} (h : Comes B x s y u) : Run s u := by
  induction h with
  | here => exact .refl
  | first _ _ _ ih => exact ih
  | next hy _ _ hb ih => exact ih.trans ((hy.runs hB).run hb)

/-- Behind what reading comes to, steps lead to the end. -/
lemma Comes.exists_next {y : ReadM β} {s u : State} (h : Comes B x s y u) :
    ∃ k : β → ReadM α, (∀ b, Runs (k b)) ∧ x s = (y >>= k) u := by
  induction h with
  | here => exact ⟨pure, fun a s => .refl, by rw [bind_pure]⟩
  | @first β γ y f u _ hf _ ih =>
    obtain ⟨k, hk, hx⟩ := ih
    exact ⟨fun b => f b >>= k, fun b => ((hf b).runs hB).bind hk, by rw [hx, bind_assoc]⟩
  | next _ _ _ hb ih =>
    obtain ⟨k, hk, hx⟩ := ih
    exact ⟨k, hk, by rw [hx, bind_assoc, bind_of_ok hb]⟩

end Assembled

lemma runs_path : Runs path := assembled_path.runs Elementary.runs

lemma Component.runs {x : ReadM α} (h : Component x) : Runs x := by
  cases h with
  | simple hx => exact (Elementary.simple hx).runs
  | path => exact runs_path

lemma runs_of_built {x : ReadM α} (h : Built x) : Runs x := Assembled.runs Component.runs h

/-- Reading a symbol is a run of steps. -/
lemma runs_symbol : Runs symbol := runs_of_built built_symbol

/-! ### What a step does -/

/-- What can be passed from one state to another, in the order read. Parts of names, written out or
not, are passed by the reader of such parts only, and the name of a template with its mark. -/
inductive Passes (s u : State) : List Lexeme → Prop
  | nothing (hn : u.names = s.names) : Passes s u []
  | code {w : Text} (hw : w ≠ templateMark) (hn : u.names = s.names) : Passes s u [.code w]
  | dimension (w : Text) (n : Int) (hn : u.names = s.names) : Passes s u [.dimension w n]
  | template (name : Text) (hn : u.names = s.names) :
      Passes s u [.code templateMark, .base name]
  | part {name : Text} (h : namePart s = .ok name u) (hn : u.names = s.names.record name) :
      Passes s u [.part name]
  | reference {d : Nat} {name : Text} (h : namePart s = .ok name u)
      (hd : s.cursor.digit? = some (d, u.cursor)) (hn : u.names = s.names)
      (hr : s.names.resolve? d = some name) : Passes s u [.reference d name]

/-- The lexemes that are passed are behind those passed before, and spell what is gone from the
rest. -/
structure Proceeds (s u : State) (ls : List Lexeme) : Prop where
  lexemes : u.lexemes = ls.reverse ++ s.lexemes
  rest : s.rest = ls.flatMap Lexeme.spelled ++ u.rest
  passes : Passes s u ls

lemma proceeds_stay {s u : State} (hl : u.lexemes = s.lexemes) (hr : u.rest = s.rest)
    (hn : u.names = s.names) : Proceeds s u [] :=
  ⟨hl, hr.symm, .nothing hn⟩

lemma proceeds_pass {s u : State} {l : Lexeme} (hl : u.lexemes = l :: s.lexemes)
    (hr : s.rest = l.spelled ++ u.rest) (h : Passes s u [l]) : Proceeds s u [l] :=
  ⟨hl, by simpa using hr, h⟩

lemma proceeds_accept {mark : Text} {s u : State} {b : Bool} (hmark : Plain mark)
    (h : accept mark s = .ok b u) : ∃ ls, Proceeds s u ls := by
  rcases accept_cases hmark.1 s with ⟨c, hr, hc⟩ | ⟨-, hc⟩ <;> rw [hc] at h <;> cases h
  · exact ⟨_, proceeds_pass rfl hr (.code hmark.2 rfl)⟩
  · exact ⟨[], proceeds_stay rfl rfl rfl⟩

lemma proceeds_code {table : CodeTable α} {s u : State} {o : Option α}
    (htable : ∀ e ∈ table, Plain e.1) (h : code table s = .ok o u) : ∃ ls, Proceeds s u ls := by
  rcases code_cases (fun e he => (htable e he).1) s with ⟨w, a, c, hmem, -, hr, hc⟩ | ⟨-, hc⟩ <;>
    rw [hc] at h <;> cases h
  · exact ⟨_, proceeds_pass rfl hr (.code (htable _ hmem).2 rfl)⟩
  · exact ⟨[], proceeds_stay rfl rfl rfl⟩

/-- The mark of a template is no number: behind the sign there is no digit and no letter. -/
lemma number_templateMark (r : Text) : (Cursor.ofText (templateMark ++ r)).number.1 = none := by
  have hmagnitude : ({ before := ['?'], rest := '$' :: r } : Cursor).magnitude? = none := by
    have hrun : ({ before := ['?'], rest := '$' :: r } : Cursor).letterRun? = none := by
      cases hcut : Text.cut? ['@'] r <;>
        simp [Cursor.letterRun?, Cursor.readUntil?, Text.cut?, Text.behind?, hcut,
          Numeral.isLetterDigit]
    simp [Cursor.magnitude?, Cursor.digit?, Cursor.take, hrun]
  simp [Cursor.number, Cursor.ofText, Cursor.consume?, Text.behind?, hmagnitude]

lemma proceeds_numeralAs {lexeme : Text → Int → Lexeme} {s u : State} {n : Int}
    (h : numeralAs lexeme s = .ok n u) (hl : ∀ w n, (lexeme w n).spelled = w)
    (hp : ∀ w c, w ≠ templateMark → Passes s (s.pass (lexeme w n) c) [lexeme w n]) :
    ∃ ls, Proceeds s u ls := by
  rcases numeralAs_cases lexeme s with ⟨w, k, c, -, hr, hnumber, hn⟩ | ⟨w, c, -, hn⟩ <;>
    rw [hn] at h <;> cases h
  have hw : w ≠ templateMark := by
    rintro rfl
    rw [hr, number_templateMark] at hnumber
    cases hnumber
  exact ⟨_, proceeds_pass rfl (by rw [hl]; exact hr) (hp w c hw)⟩

/-- The mark of a template is read with the name behind it, or is not there. Where the name is not
closed, only the mark is read. -/
lemma templateName_cases (s : State) :
    (∃ name c d, s.rest = templateMark ++ c.rest ∧ c.rest = name ++ ['@'] ++ d.rest ∧
      templateName s = .ok (some name) ((s.pass (.code templateMark) c).pass (.base name) d)) ∨
    templateName s = .ok none s ∨
    ∃ f c, f.dangles = false ∧ templateName s = .error f (s.pass (.code templateMark) c) := by
  rcases accept_cases (show templateMark ≠ [] by decide) s with ⟨c, hr, hc⟩ | ⟨-, hc⟩
  · rcases closedName_cases .base (s.pass (.code templateMark) c) with ⟨name, d, -, hd, hn⟩ |
      ⟨-, hn⟩
    · refine .inl ⟨name, c, d, hr, hd, ?_⟩
      rw [templateName, bind_of_ok hc]
      exact bind_of_ok hn
    · refine .inr (.inr ⟨.malformed (.unterminatedName c.rest), c, rfl, ?_⟩)
      rw [templateName, bind_of_ok hc]
      exact bind_of_error hn
  · refine .inr (.inl ?_)
    rw [templateName, bind_of_ok hc]
    rfl

lemma proceeds_simple {x : ReadM α} {s u : State} {a : α} (hx : Simple x) (h : x s = .ok a u) :
    ∃ ls, Proceeds s u ls := by
  cases hx with
  | accept hmark => exact proceeds_accept hmark h
  | code htable => exact proceeds_code htable h
  | letter table =>
    rcases letter_cases table s with ⟨y, b, c, -, -, hr, hl⟩ | ⟨-, hl⟩ <;> rw [hl] at h <;> cases h
    · exact ⟨_, proceeds_pass (l := .code [y]) rfl hr (.code (by simp) rfl)⟩
    · exact ⟨[], proceeds_stay rfl rfl rfl⟩
  | numeral => exact proceeds_numeralAs h (fun _ _ => rfl) fun w c hw => .code hw rfl
  | dimension => exact proceeds_numeralAs h (fun _ _ => rfl) fun w c _ => .dimension w _ rfl
  | templateName =>
    rcases templateName_cases s with ⟨name, c, d, hr, hd, hn⟩ | hn | ⟨f, c, -, hn⟩ <;>
      rw [hn] at h <;> cases h
    · refine ⟨_, rfl, ?_, .template name rfl⟩
      rw [hr, hd]
      simp [Lexeme.spelled, State.rest, State.pass]
    · exact ⟨[], proceeds_stay rfl rfl rfl⟩
  | issue kind q =>
    rw [issue_eq] at h
    cases h
    exact ⟨[], proceeds_stay rfl rfl rfl⟩
  | descend =>
    cases h
    exact ⟨[], proceeds_stay rfl rfl rfl⟩
  | ascend =>
    cases h
    exact ⟨[], proceeds_stay rfl rfl rfl⟩
  | giveUp why hwhy => cases h

/-- Every step passes a lexeme, passes the mark and the name of a template, or stays where it is. -/
lemma step_cases {s u : State} (h : Step s u) : ∃ ls, Proceeds s u ls := by
  obtain ⟨α, x, a, hx, h⟩ := h
  cases hx with
  | simple hx => exact proceeds_simple hx h
  | namePart =>
    rcases namePart_cases s with ⟨name, c, -, -, hr, hc⟩ | ⟨d, c, name, hd, hn, hc⟩ |
      ⟨why, v, -, hc⟩ <;> rw [hc] at h <;> cases h
    · exact ⟨_, proceeds_pass (l := .part a) rfl hr (.part hc rfl)⟩
    · exact ⟨_, proceeds_pass rfl (digit?_eq_some hd) (.reference hc hd rfl hn)⟩

/-- The lexemes that a run passes spell what is gone from the rest. -/
lemma Run.spells {s u : State} (h : Run s u) :
    ∃ ls, u.lexemes = ls ++ s.lexemes ∧ s.rest = ls.reverse.flatMap Lexeme.spelled ++ u.rest := by
  induction h with
  | refl => exact ⟨[], rfl, rfl⟩
  | tail _ hstep ih =>
    obtain ⟨earlier, hearlier, hrest⟩ := ih
    obtain ⟨later, hp⟩ := step_cases hstep
    refine ⟨later.reverse ++ earlier, ?_, ?_⟩
    · rw [hp.lexemes, hearlier, List.append_assoc]
    · rw [hrest, hp.rest]
      simp

/-- A reference that dangles stops the reading behind its digit. -/
def Dangles (s : State) (f : Failure) (u : State) : Prop :=
  ∃ (d : Nat) (c : Cursor), s.cursor.digit? = some (d, c) ∧ s.names.resolve? d = none ∧
    f = .malformed (.danglingReference d s.names.size) ∧ u = { s with cursor := c }

lemma namePart_eq_error {s u : State} {f : Failure} (h : namePart s = .error f u) :
    Dangles s f u ∨ f.dangles = false ∧ u = s := by
  cases hd : s.cursor.digit? with
  | none =>
    simp only [namePart, hd, literalPart] at h
    refine .inr ?_
    rcases closedName_cases .part s with ⟨name, c, -, -, hc⟩ | ⟨-, hc⟩
    · rw [bind_of_ok hc] at h
      cases h
    · rw [bind_of_error hc] at h
      cases h
      exact ⟨rfl, rfl⟩
  | some p =>
    obtain ⟨d, c⟩ := p
    cases hn : s.names.resolve? d with
    | none =>
      simp only [namePart, hd, hn] at h
      cases h
      exact .inl ⟨d, c, hd, hn, rfl, rfl⟩
    | some name =>
      simp only [namePart, hd, hn] at h
      cases h

/-- A reader that does one thing and fails has nothing to do with references. Names are the same
then, and no more has been passed than the sign of a number or the mark of a template. -/
lemma Simple.fails {x : ReadM α} {s u : State} {f : Failure} (hx : Simple x)
    (h : x s = .error f u) : f.dangles = false ∧ u.names = s.names ∧
      (u.lexemes = s.lexemes ∨ ∃ w, u.lexemes = .code w :: s.lexemes) := by
  have hnumeral : ∀ {lexeme : Text → Int → Lexeme}, numeralAs lexeme s = .error f u →
      f.dangles = false ∧ u.names = s.names ∧
        (u.lexemes = s.lexemes ∨ ∃ w, u.lexemes = .code w :: s.lexemes) := by
    intro lexeme h
    unfold numeralAs at h
    split at h <;> cases h
    exact ⟨rfl, rfl, .inr ⟨_, rfl⟩⟩
  cases hx with
  | accept hmark =>
    rcases accept_cases hmark.1 s with ⟨c, -, hc⟩ | ⟨-, hc⟩ <;> rw [hc] at h <;> cases h
  | code htable =>
    rcases code_cases (fun e he => (htable e he).1) s with ⟨w, a, c, -, -, -, hc⟩ | ⟨-, hc⟩ <;>
      rw [hc] at h <;> cases h
  | letter table =>
    rcases letter_cases table s with ⟨y, b, c, -, -, -, hl⟩ | ⟨-, hl⟩ <;> rw [hl] at h <;> cases h
  | numeral => exact hnumeral h
  | dimension => exact hnumeral h
  | templateName =>
    rcases templateName_cases s with ⟨name, c, d, -, -, hn⟩ | hn | ⟨f, c, hf, hn⟩ <;>
      rw [hn] at h <;> cases h
    exact ⟨hf, rfl, .inr ⟨_, rfl⟩⟩
  | issue kind q =>
    rw [issue_eq] at h
    cases h
  | descend => cases h
  | ascend => cases h
  | giveUp why hwhy =>
    cases h
    exact ⟨hwhy s.rest, rfl, .inl rfl⟩

/-- What stops a run is a reference that dangles, or has nothing to do with references. -/
lemma stops_cases {s u : State} {f : Failure} (h : Stops s f u) :
    Dangles s f u ∨ f.dangles = false ∧ u.names = s.names ∧
      (u.lexemes = s.lexemes ∨ ∃ w, u.lexemes = .code w :: s.lexemes) := by
  obtain ⟨α, x, hx, h⟩ := h
  cases hx with
  | simple hx => exact .inr (hx.fails h)
  | namePart =>
    rcases namePart_eq_error h with h | ⟨hf, rfl⟩
    · exact .inl h
    · exact .inr ⟨hf, rfl, .inl rfl⟩

/-- A name in which a reference dangles fails where that part of it is read. -/
lemma exists_namePart_of_path {s u : State} {f : Failure} (hf : f.dangles = true)
    (h : path s = .error f u) :
    ∃ m, Comes @Elementary path s namePart m ∧ namePart m = .error f u := by
  obtain ⟨β, y, m, hy, hcomes, hfail⟩ := assembled_path.exists_failure h
  cases hy with
  | simple hy => simp [(hy.fails hfail).1] at hf
  | namePart => exact ⟨m, hcomes, hfail⟩

/-- What fails with a reference that dangles comes to a name in which it does. -/
lemma exists_path_of_built {x : ReadM α} (hx : Built x) {s u : State} {f : Failure}
    (hf : f.dangles = true) (h : x s = .error f u) :
    ∃ v, Comes @Component x s path v ∧ path v = .error f u := by
  obtain ⟨β, y, v, hy, hcomes, hfail⟩ := Assembled.exists_failure hx h
  cases hy with
  | simple hy => simp [(hy.fails hfail).1] at hf
  | path => exact ⟨v, hcomes, hfail⟩

end Reading

end Undecorate
