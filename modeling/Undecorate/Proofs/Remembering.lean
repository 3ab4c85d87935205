import Mathlib.Data.List.Basic
import Undecorate.Proofs.Reading.Formed
import Undecorate.Proofs.Reading.Moment

/-!
What a digit in a name means.

The parts of names that are written out are numbered in the order in which they are read, over the
whole symbol: repetitions count, names of templates and parts that are references do not. At every
moment of reading the first ten of them are remembered, so a digit stands for the part with its
number, or for nothing if there is no such part yet. What can be referred to never changes.
-/

namespace Undecorate

/-! ### The table of names -/

section Table

variable {T : NameTable} {parts : List Text}

/-- What is remembered of the parts written out so far, after one more. -/
lemma names_record (h : T.names = parts.take NameTable.capacity) (name : Text) :
    (T.record name).names = (parts ++ [name]).take NameTable.capacity := by
  have hsize : T.size = min NameTable.capacity parts.length := by
    rw [NameTable.size, h, List.length_take]
  unfold NameTable.record
  split_ifs with hroom
  · have hfew : parts.length < NameTable.capacity := by omega
    have hall : T.names = parts := h.trans (List.take_of_length_le (by omega))
    rw [hall, List.take_of_length_le (by simp; omega)]
  · rw [h, List.take_append_of_le_length (by omega)]

lemma resolve?_natCast (T : NameTable) (d : Nat) : T.resolve? d = T.names[d]? := by
  simp [NameTable.resolve?]

lemma resolve?_eq_getElem? (h : T.names = parts.take NameTable.capacity) {d : Nat}
    (hd : d < NameTable.capacity) : T.resolve? d = parts[d]? := by
  rw [resolve?_natCast, h, List.getElem?_take_of_lt hd]

lemma prefix_record (T : NameTable) (name : Text) : T.names <+: (T.record name).names := by
  unfold NameTable.record
  split_ifs
  · exact List.prefix_append _ _
  · exact List.prefix_rfl

/-- A longer table has the same names at the same places. -/
lemma resolve?_of_prefix {T' : NameTable} (h : T.names <+: T'.names) {i : Int} {name : Text}
    (hi : T.resolve? i = some name) : T'.resolve? i = some name := by
  unfold NameTable.resolve? at hi ⊢
  split_ifs at hi ⊢ with hpos
  obtain ⟨rest, hrest⟩ := h
  have hlt : i.toNat < T.names.length := (List.getElem?_eq_some_iff.1 hi).1
  rw [← hrest, List.getElem?_append_left hlt]
  exact hi

end Table

namespace Reading

lemma digit?_lt {c d : Cursor} {n : Nat} (h : c.digit? = some (n, d)) : n < NameTable.capacity := by
  unfold Cursor.digit? at h
  split at h
  · next x after hx =>
    split_ifs at h with hdigit
    cases h
    simp only [Char.isDigit, Bool.and_eq_true, decide_eq_true_eq] at hdigit
    have h9 : x.toNat ≤ 57 := hdigit.2
    change x.toNat - 48 < 10
    omega
  · cases h

/-! ### Parts that are written out -/

/-- The part of a name that the lexeme writes out, if it does. -/
def Lexeme.literal? : Lexeme → Option Text
  | part name => some name
  | _ => none

/-- The parts of names that are written out. -/
def literals (ls : List Lexeme) : List Text := ls.filterMap Lexeme.literal?

/-- The parts of names that have been written out so far, in the order read. -/
def State.literals (s : State) : List Text := Reading.literals s.lexemes.reverse

lemma literals_append (ls ms : List Lexeme) : literals (ls ++ ms) = literals ls ++ literals ms :=
  List.filterMap_append

lemma literals_of_cons {s u : State} {l : Lexeme} (h : u.lexemes = l :: s.lexemes) :
    u.literals = s.literals ++ (Lexeme.literal? l).toList := by
  rw [State.literals, h, List.reverse_cons, literals_append]
  cases l <;> rfl

/-- The part of a name that the lexeme stands for, written out or not. -/
def Lexeme.named? : Lexeme → Option Text
  | part name => some name
  | reference _ name => some name
  | _ => none

/-- The mark of a template stands in front of the name of one, and such a name stands nowhere
else. -/
inductive Marked : List Lexeme → Prop
  | nil : Marked []
  | plain {l : Lexeme} {ls : List Lexeme} (hmark : l ≠ .code templateMark)
      (hbase : ∀ name, l ≠ .base name) (h : Marked ls) : Marked (l :: ls)
  | template (name : Text) {ls : List Lexeme} (h : Marked ls) :
      Marked (.code templateMark :: .base name :: ls)

lemma Marked.append {ls ms : List Lexeme} (hl : Marked ls) (hm : Marked ms) :
    Marked (ls ++ ms) := by
  induction hl with
  | nil => exact hm
  | plain hmark hbase _ ih => exact .plain hmark hbase ih
  | template name _ ih => exact .template name ih

section Passes

variable {s u : State} {ls : List Lexeme}

/-- Parts that are written out are remembered, and nothing else is. -/
lemma Passes.names_cases (h : Passes s u ls) :
    (∃ name, literals ls = [name] ∧ u.names = s.names.record name) ∨
      literals ls = [] ∧ u.names = s.names := by
  cases h with
  | part _ hn => exact .inl ⟨_, rfl, hn⟩
  | nothing hn => exact .inr ⟨rfl, hn⟩
  | code _ hn => exact .inr ⟨rfl, hn⟩
  | dimension w n hn => exact .inr ⟨rfl, hn⟩
  | template name hn => exact .inr ⟨rfl, hn⟩
  | reference _ _ hn _ => exact .inr ⟨rfl, hn⟩

lemma Passes.marked (h : Passes s u ls) : Marked ls := by
  cases h with
  | nothing => exact .nil
  | template name => exact .template name .nil
  | code hw => exact .plain (by simpa using hw) (by simp) .nil
  | dimension => exact .plain (by simp) (by simp) .nil
  | part => exact .plain (by simp) (by simp) .nil
  | reference => exact .plain (by simp) (by simp) .nil

/-- A part of a name is passed alone, and by the reader of such parts. -/
lemma Passes.eq_singleton (h : Passes s u ls) {l : Lexeme} {name : Text} (hl : l.named? = some name)
    (hmem : l ∈ ls) : ls = [l] ∧ namePart s = .ok name u := by
  cases h with
  | nothing => cases hmem
  | code =>
    obtain rfl := List.mem_singleton.1 hmem
    cases hl
  | dimension =>
    obtain rfl := List.mem_singleton.1 hmem
    cases hl
  | template base =>
    rcases List.mem_pair.1 hmem with rfl | rfl <;> cases hl
  | part h =>
    obtain rfl := List.mem_singleton.1 hmem
    cases hl
    exact ⟨rfl, h⟩
  | reference h =>
    obtain rfl := List.mem_singleton.1 hmem
    cases hl
    exact ⟨rfl, h⟩

end Passes

/-- What has been passed is spelled in the text, the names of templates are marked, and the first
parts written out are remembered. -/
structure Faithful (t : Text) (s : State) : Prop where
  text : s.spelled ++ s.rest = t
  marked : Marked s.lexemes.reverse
  table : s.names.names = s.literals.take NameTable.capacity

lemma faithful_start (t : Text) : Faithful t (.start t) := ⟨rfl, .nil, rfl⟩

section Steps

variable {t : Text} {s u : State}

/-- **One step**: lexemes more, and the part that they write out with them. -/
lemma Faithful.step (hs : Faithful t s) (h : Step s u) : Faithful t u := by
  obtain ⟨ls, hl, hr, hp⟩ := step_cases h
  have hpassed : u.lexemes.reverse = s.lexemes.reverse ++ ls := by simp [hl]
  refine ⟨?_, ?_, ?_⟩
  · rw [← hs.text, hr, State.spelled, hpassed]
    simp [State.spelled]
  · rw [hpassed]
    exact hs.marked.append hp.marked
  · rw [State.literals, hpassed, literals_append]
    rcases hp.names_cases with ⟨name, hname, hn⟩ | ⟨hname, hn⟩ <;> rw [hname, hn]
    · exact names_record hs.table name
    · rw [List.append_nil]
      exact hs.table

lemma Faithful.run (hs : Faithful t s) (h : Run s u) : Faithful t u := by
  induction h with
  | refl => exact hs
  | tail _ hstep ih => exact ih.step hstep

lemma prefix_of_step (h : Step s u) : s.names.names <+: u.names.names := by
  obtain ⟨ls, -, -, hp⟩ := step_cases h
  rcases hp.names_cases with ⟨name, -, hn⟩ | ⟨-, hn⟩
  · exact hn ▸ prefix_record _ _
  · exact hn ▸ List.prefix_rfl

/-- What is remembered is never forgotten or moved. -/
lemma prefix_of_run (h : Run s u) : s.names.names <+: u.names.names := by
  induction h with
  | refl => exact List.prefix_rfl
  | tail _ hstep ih => exact ih.trans (prefix_of_step hstep)

/-- The parts of names that a run has passed were passed one after the other: each of them by a
step, from a state in which the earlier lexemes had been passed. -/
lemma exists_step_of_run (h : Run s u) (hs : s.lexemes = []) {earlier later : List Lexeme}
    {l : Lexeme} {name : Text} (hl : l.named? = some name)
    (hsplit : u.lexemes.reverse = earlier ++ l :: later) :
    ∃ m v, Run s m ∧ Run v u ∧ m.lexemes.reverse = earlier ∧ Step m v ∧ Proceeds m v [l] := by
  induction h generalizing later with
  | refl => simp [hs] at hsplit
  | @tail w u hrun hstep ih =>
    obtain ⟨ls, hp⟩ := step_cases hstep
    have hpassed : u.lexemes.reverse = w.lexemes.reverse ++ ls := by simp [hp.lexemes]
    rw [hpassed, List.append_eq_append_iff] at hsplit
    rcases hsplit with ⟨before, rfl, hls⟩ | ⟨after, hw, hls⟩
    · obtain ⟨rfl, -⟩ := hp.passes.eq_singleton hl (by simp [hls])
      obtain ⟨rfl, -⟩ := (List.append_eq_singleton_iff.1 hls.symm).resolve_right (by simp)
      exact ⟨w, u, hrun, .refl, by simp, hstep, hp⟩
    · cases after with
      | nil =>
        have hmem : l ∈ [] ++ ls := hls ▸ List.mem_cons_self
        obtain ⟨rfl, -⟩ := hp.passes.eq_singleton hl hmem
        exact ⟨w, u, hrun, .refl, by simpa using hw, hstep, hp⟩
      | cons l' after =>
        obtain ⟨rfl, -⟩ := List.cons_eq_cons.1 hls
        obtain ⟨m, v, hm, hv, hrest⟩ := ih hw
        exact ⟨m, v, hm, hv.tail hstep, hrest⟩

lemma Faithful.resolve?_eq {d : Nat} {c : Cursor} (hs : Faithful t s)
    (hd : s.cursor.digit? = some (d, c)) : s.names.resolve? d = s.literals[d]? :=
  resolve?_eq_getElem? hs.table (digit?_lt hd)

/-- A digit reads as the part with its number. -/
lemma Faithful.namePart_of_literal {d : Nat} {c : Cursor} {name : Text} (hs : Faithful t s)
    (hd : s.cursor.digit? = some (d, c)) (hname : s.literals[d]? = some name) :
    namePart s = .ok name (s.pass (.reference d name) c) := by
  have hn : s.names.resolve? d = some name := (hs.resolve?_eq hd).trans hname
  simp only [namePart, hd, hn]

lemma Faithful.size_of_few {d : Nat} {c : Cursor} (hs : Faithful t s)
    (hd : s.cursor.digit? = some (d, c)) (hfew : s.literals.length ≤ d) :
    s.names.size = s.literals.length := by
  have hlt := digit?_lt hd
  rw [NameTable.size, hs.table, List.length_take]
  omega

/-- A digit that is the number of no part yet ends the reading. -/
lemma Faithful.namePart_of_few {d : Nat} {c : Cursor} (hs : Faithful t s)
    (hd : s.cursor.digit? = some (d, c)) (hfew : s.literals.length ≤ d) :
    namePart s =
      .error (.malformed (.danglingReference d s.literals.length)) { s with cursor := c } := by
  have hn : s.names.resolve? d = none :=
    (hs.resolve?_eq hd).trans (List.getElem?_eq_none hfew)
  simp only [namePart, hd, hn, hs.size_of_few hd hfew]

end Steps

/-! ### Names -/

/-- With these parts written out before, the lexemes are read as those parts of a name: a part that
is written out as itself, and a digit as the part with its number. -/
inductive Yields : List Text → List Lexeme → Path → Prop
  | nothing (L : List Text) : Yields L [] []
  | part {L : List Text} {name : Text} {ls : List Lexeme} {p : Path}
      (h : Yields (L ++ [name]) ls p) : Yields L (.part name :: ls) (name :: p)
  | reference {L : List Text} {d : Nat} {name : Text} {ls : List Lexeme} {p : Path}
      (hd : L[d]? = some name) (h : Yields L ls p) : Yields L (.reference d name :: ls) (name :: p)

/-- The lexemes of a name are those of its parts and the mark that closes it. -/
structure NameRead (s u : State) (p : Path) (ls : List Lexeme) : Prop where
  lexemes : u.lexemes.reverse = s.lexemes.reverse ++ ls ++ [.code ['@']]
  parts : Yields s.literals ls p

/-- One round after the other, whatever the parts before. -/
lemma nameRead_of_repeatWithin {t : Text} {fuel : Nat} {s u : State} {p : Path}
    (hs : Faithful t s) (h : repeatWithin (accept ['@']) namePart fuel s = .ok p u) :
    ∃ ls, NameRead s u p ls := by
  induction fuel generalizing s p with
  | zero => cases h
  | succ fuel ih =>
    rcases accept_cases (show ['@'] ≠ [] by decide) s with ⟨c, -, hc⟩ | ⟨-, hc⟩ <;>
      rw [repeatWithin, bind_of_ok hc] at h
    · cases h
      exact ⟨[], by simp [State.pass], .nothing _⟩
    · obtain ⟨name, v, hname, h⟩ := bind_eq_ok_iff.1 h
      obtain ⟨p, w, hp, hend⟩ := bind_eq_ok_iff.1 h
      cases hend
      obtain ⟨ls, hlexemes, hparts⟩ := ih (hs.step ⟨_, _, _, .namePart, hname⟩) hp
      rcases namePart_cases s with ⟨name, c, -, -, -, hc⟩ | ⟨d, c, name, hd, hn, hc⟩ |
        ⟨why, v, -, hc⟩ <;> rw [hc] at hname <;> cases hname
      · rw [literals_of_cons (l := .part name) rfl] at hparts
        exact ⟨.part name :: ls, by simpa [State.pass] using hlexemes, .part hparts⟩
      · have hsame : (s.pass (.reference d name) c).literals = s.literals :=
          (literals_of_cons rfl).trans (List.append_nil _)
        rw [hsame] at hparts
        have hd : s.literals[d]? = some name := (hs.resolve?_eq hd).symm.trans hn
        exact ⟨.reference d name :: ls, by simpa [State.pass] using hlexemes, .reference hd hparts⟩

/-! ### Moments -/

/-- A moment of reading a text: steps lead to it, and from it to the end. -/
structure Moment (t : Text) (m : State) : Prop where
  reached : Run (.start t) m
  concludes : Concludes m (symbol (.start t))

/-- Reading the symbol comes to a name, and reading the name comes to one of its parts. -/
def MeetsPart (t : Text) (m : State) : Prop :=
  ∃ v, Comes @Component symbol (.start t) path v ∧ Comes @Elementary path v namePart m

/-- A digit is met in the place of a part of a name. -/
structure Meets (t : Text) (m : State) (d : Nat) : Prop where
  part : MeetsPart t m
  digit : ∃ c, m.cursor.digit? = some (d, c)

lemma MeetsPart.moment {t : Text} {m : State} (h : MeetsPart t m) : Moment t m := by
  obtain ⟨v, hname, hpart⟩ := h
  obtain ⟨k, hk, hsymbol⟩ := hname.exists_next Component.runs
  obtain ⟨k', hk', hpath⟩ := hpart.exists_next Elementary.runs
  refine ⟨(hname.run Component.runs).trans (hpart.run Elementary.runs), ?_⟩
  rw [hsymbol, bind_of_eq hpath]
  exact ((Elementary.namePart.runs.bind hk').bind hk) m

/-- Where a part of a name cannot be read, the symbol cannot. -/
lemma MeetsPart.fails {t : Text} {m u : State} {f : Failure} (h : MeetsPart t m)
    (hm : namePart m = .error f u) : symbol (.start t) = .error f u := by
  obtain ⟨v, hname, hpart⟩ := h
  exact hname.fails (hpart.fails hm)

end Reading

open Reading

/-- The state in which reading a text ends. -/
def endState (t : Text) : State := (Decoder.parse {} t).2.state

section Moments

variable {t : Text} {m : State}

lemma moment_start (t : Text) : Moment t (.start t) := ⟨.refl, runs_symbol _⟩

lemma Reading.Moment.faithful (h : Moment t m) : Faithful t m :=
  (faithful_start t).run h.reached

lemma Reading.Moment.of_run {u v : State} (hv : Moment t v) (hu : Run (.start t) u)
    (h : Run u v) : Moment t u :=
  ⟨hu, hv.concludes.after h⟩

lemma endState_of_ok {s : Symbol} {u : State} (h : symbol (.start t) = .ok s u) :
    endState t = u := by
  rw [endState, decoder_of_ok h]

lemma endState_of_error {f : Failure} {u : State} (h : symbol (.start t) = .error f u) :
    endState t = u := by
  rw [endState, decoder_of_error h]

/-- A failure happens at a moment. -/
lemma Reading.Moment.exists_stop {f : Failure} {u : State} (h : Moment t m)
    (hr : symbol (.start t) = .error f u) : ∃ v, Moment t v ∧ Run m v ∧ Stops v f u := by
  have hc := h.concludes
  rw [hr] at hc
  obtain ⟨v, hv, hstop⟩ := hc
  exact ⟨v, ⟨h.reached.trans hv, hr ▸ ⟨v, .refl, hstop⟩⟩, hv, hstop⟩

/-- The last moment. Behind it is the end, or a failure, in which nothing is remembered. -/
lemma Reading.Moment.exists_last (h : Moment t m) : ∃ v, Moment t v ∧ Run m v ∧
    (endState t).names = v.names ∧
    ((endState t).lexemes = v.lexemes ∨ ∃ w, (endState t).lexemes = .code w :: v.lexemes) := by
  cases hr : symbol (.start t) with
  | ok s u =>
    have hc := h.concludes
    rw [hr] at hc
    obtain rfl := endState_of_ok hr
    refine ⟨endState t, ⟨h.reached.trans hc, ?_⟩, hc, rfl, .inl rfl⟩
    rw [hr]
    exact .refl
  | error f u =>
    obtain ⟨v, hv, hrun, hstop⟩ := h.exists_stop hr
    obtain rfl := endState_of_error hr
    refine ⟨v, hv, hrun, ?_⟩
    rcases stops_cases hstop with ⟨d, c, -, -, -, hu⟩ | ⟨-, hn, hl⟩
    · rw [hu]
      exact ⟨rfl, .inl rfl⟩
    · exact ⟨hn, hl⟩

/-- What is remembered in the end. -/
lemma names_endState (t : Text) :
    (endState t).names.names = (literals (lexemes t)).take NameTable.capacity := by
  obtain ⟨v, hv, -, hn, hl⟩ := (moment_start t).exists_last
  have hliterals : literals (lexemes t) = v.literals := by
    change (endState t).literals = v.literals
    rcases hl with hl | ⟨w, hl⟩
    · rw [State.literals, hl, State.literals]
    · exact (literals_of_cons hl).trans (List.append_nil _)
  rw [hn, hliterals]
  exact hv.faithful.table

/-- Each part of a name, written out or not, was read at a moment at which the earlier lexemes had
been passed. -/
lemma exists_moment_of_named {earlier later : List Lexeme} {l : Lexeme} {name : Text}
    (hl : l.named? = some name) (hsplit : lexemes t = earlier ++ l :: later) :
    ∃ m u, Moment t m ∧ Moment t u ∧ m.lexemes.reverse = earlier ∧ Proceeds m u [l] := by
  obtain ⟨v, hv, -, -, hend⟩ := (moment_start t).exists_last
  -- What a failure adds to the lexemes is no part of a name, so the last moment has this one.
  obtain ⟨later, hsplit⟩ : ∃ later, v.lexemes.reverse = earlier ++ l :: later := by
    change (endState t).lexemes.reverse = _ at hsplit
    rcases hend with hend | ⟨w, hend⟩
    · exact ⟨later, hend ▸ hsplit⟩
    · rw [hend, List.reverse_cons] at hsplit
      rcases List.eq_nil_or_concat' later with rfl | ⟨later, last, rfl⟩
      · obtain ⟨-, rfl⟩ := List.append_singleton_inj.1 hsplit
        cases hl
      · rw [← List.cons_append, ← List.append_assoc] at hsplit
        exact ⟨later, (List.append_singleton_inj.1 hsplit).1⟩
  obtain ⟨m, u, hm, hu, hearlier, hstep, hp⟩ := exists_step_of_run hv.reached rfl hl hsplit
  have hmu : Run m u := .single hstep
  exact ⟨m, u, hv.of_run hm (hmu.trans hu), hv.of_run (hm.trans hmu) hu, hearlier, hp⟩

lemma literal_of_reference {earlier later : List Lexeme} {d : Nat} {name : Text}
    (hsplit : lexemes t = earlier ++ .reference d name :: later) :
    (literals earlier)[d]? = some name := by
  obtain ⟨m, u, hm, -, rfl, hp⟩ := exists_moment_of_named rfl hsplit
  cases hp.passes with
  | reference _ hd _ hr =>
    rw [← hr]
    exact (hm.faithful.resolve?_eq hd).symm

lemma Reading.Moment.resolve?_kept {u : State} {i : Int} {name : Text} (hm : Moment t m)
    (hi : m.names.resolve? i = some name) (hu : Run m u ∨ u = endState t) :
    u.names.resolve? i = some name := by
  rcases hu with hu | rfl
  · exact resolve?_of_prefix (prefix_of_run hu) hi
  · obtain ⟨v, -, hv, hn, -⟩ := hm.exists_last
    rw [hn]
    exact resolve?_of_prefix (prefix_of_run hv) hi

/-- Reading ends with a reference that dangles where a digit is met that is the number of no part
yet, and nowhere else. -/
lemma dangling_iff (i : Int) (n : Nat) :
    parse t = .error (.malformed (.danglingReference i n)) ↔
      ∃ m d, Meets t m d ∧ m.literals.length ≤ d ∧ i = d ∧ n = m.literals.length := by
  constructor
  · intro h
    cases hr : symbol (.start t) with
    | ok s u =>
      rw [parse, decoder_of_ok hr] at h
      cases h
    | error f u =>
      rw [parse, decoder_of_error hr] at h
      cases h
      obtain ⟨v, hname, hfail⟩ := exists_path_of_built built_symbol rfl hr
      obtain ⟨m, hpart, hfail⟩ := exists_namePart_of_path rfl hfail
      have hmeets : MeetsPart t m := ⟨v, hname, hpart⟩
      have hfaithful := hmeets.moment.faithful
      rcases namePart_eq_error hfail with ⟨d, c, hd, hn, hf, -⟩ | ⟨hf, -⟩
      · cases hf
        have hfew : m.literals.length ≤ d := by
          rw [hfaithful.resolve?_eq hd] at hn
          exact List.getElem?_eq_none_iff.1 hn
        exact ⟨m, d, ⟨hmeets, c, hd⟩, hfew, rfl, hfaithful.size_of_few hd hfew⟩
      · cases hf
  · rintro ⟨m, d, ⟨hmeets, c, hd⟩, hfew, rfl, rfl⟩
    have hfail := hmeets.fails (hmeets.moment.faithful.namePart_of_few hd hfew)
    rw [parse, decoder_of_error hfail]

end Moments

/-! ### The meaning of a digit -/

/-- What is remembered at a moment of reading a text. -/
structure Reading.Remembers (t : Text) (m : State) : Prop extends Faithful t m where
  literal : ∀ d c name, m.cursor.digit? = some (d, c) → m.literals[d]? = some name →
    namePart m = .ok name (m.pass (.reference d name) c)
  dangling : ∀ d c, m.cursor.digit? = some (d, c) → m.literals.length ≤ d →
    namePart m =
      .error (.malformed (.danglingReference d m.literals.length)) { m with cursor := c }
  kept : ∀ i name u, m.names.resolve? i = some name → Run m u ∨ u = endState t →
    u.names.resolve? i = some name

lemma Reading.Moment.remembers {t : Text} {m : State} (hm : Moment t m) : Remembers t m where
  toFaithful := hm.faithful
  literal _ _ _ hd hname := hm.faithful.namePart_of_literal hd hname
  dangling _ _ hd hfew := hm.faithful.namePart_of_few hd hfew
  kept _ _ _ hi hu := hm.resolve?_kept hi hu

/-- **A digit means the part with its number.** At every moment the first parts that were written
out are remembered, up to ten, a digit reads as the part with its number or dangles, and what can be
referred to is kept to the end. A name that is read from there has the parts that its lexemes write
out and those that its digits are the numbers of. Each part of a name was read at a moment at which
just the lexemes in front of it had been passed, so a reference stands for the part with its number
among those. Reading fails with a reference that dangles exactly where it comes to a name and there,
in the place of a part, to a digit that is the number of none. -/
theorem digit_means_literal (t : Text) :
    (Moment t (.start t) ∧ ∀ m, Moment t m → Remembers t m) ∧
    (∀ m p u, Moment t m → path m = .ok p u → ∃ ls, NameRead m u p ls) ∧
    (∀ earlier l later name, lexemes t = earlier ++ l :: later → l.named? = some name →
      ∃ m u, Moment t m ∧ Moment t u ∧ m.lexemes.reverse = earlier ∧
        u.lexemes = l :: m.lexemes ∧ namePart m = .ok name u) ∧
    (∀ earlier d name later, lexemes t = earlier ++ .reference d name :: later →
      (literals earlier)[d]? = some name) ∧
    (endState t).names.names = (literals (lexemes t)).take NameTable.capacity ∧
    ∀ i n, parse t = .error (.malformed (.danglingReference i n)) ↔
      ∃ m d, Meets t m d ∧ m.literals.length ≤ d ∧ i = d ∧ n = m.literals.length := by
  refine ⟨⟨moment_start t, fun m hm => hm.remembers⟩,
    fun m p u hm hp => nameRead_of_repeatWithin hm.faithful hp,
    fun earlier l later name hsplit hl => ?_, fun _ _ _ _ => literal_of_reference,
    names_endState t, dangling_iff⟩
  obtain ⟨m, u, hm, hu, hearlier, hp⟩ := exists_moment_of_named hl hsplit
  have hread := (hp.passes.eq_singleton hl (List.mem_singleton.2 rfl)).2
  exact ⟨m, u, hm, hu, hearlier, hp.lexemes, hread⟩

/-- A function with two references in a template argument. The name of the template has no
number. -/
def referringName : Text := "?f@@YAXUfoo@ns@@V?$Box@U12@@@Z".toList

/-- A function with a reference that would stand for the name of the template, if it had a
number. -/
def danglingName : Text := "?f@@YAXV?$Box@U1@@@Z".toList

theorem digit_means_literal_in_template :
    (∃ m u, Remembers referringName m ∧ namePart m = .ok "ns".toList u ∧
      m.literals = ["f".toList, "foo".toList, "ns".toList]) ∧
    ∃ m d, Meets danglingName m d ∧ m.literals.length ≤ d ∧ (1 : Int) = d ∧
      1 = m.literals.length := by
  constructor
  · obtain ⟨⟨-, hmoments⟩, -, hread, -⟩ := digit_means_literal referringName
    have hsplit : lexemes referringName = (lexemes referringName).take 15 ++
        .reference 2 "ns".toList :: (lexemes referringName).drop 16 := by
      decide +kernel
    obtain ⟨m, u, hm, -, hearlier, -, hname⟩ := hread _ _ _ "ns".toList hsplit rfl
    refine ⟨m, u, hmoments m hm, hname, ?_⟩
    rw [State.literals, hearlier]
    decide +kernel
  · obtain ⟨-, -, -, -, -, hdangling⟩ := digit_means_literal danglingName
    have hend : (match parse danglingName with
        | .error f => decide (f = .malformed (.danglingReference 1 1))
        | .ok _ => false) = true := by decide +kernel
    refine (hdangling 1 1).1 ?_
    cases hp : parse danglingName with
    | ok s =>
      rw [hp] at hend
      cases hend
    | error f =>
      rw [hp] at hend
      rw [of_decide_eq_true hend]

end Undecorate
