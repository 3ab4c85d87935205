import Undecorate.Proofs.Reading.Formed
import Undecorate.Proofs.Reading.Moment
import Undecorate.Proofs.Reading.Retracing

/-!
What follows a symbol is not looked at.

A type ends with itself, so a variable is the same whatever follows. The parameters of a function
end before a mark that is not read, `@` for a free function and `Z` for a member function, or with
the text; in both cases the same part of the text has been read, and it is read as the same symbol
in front of everything that lets the parameters end there.
-/

namespace Undecorate

open Reading

/-- A text is read again as it is spelled, with the same names remembered. -/
def Reading.Respelling.unchanged : Respelling where
  reference := .reference
  Allows _ := True
  Tables := Eq
  tables_record _ h := h ▸ rfl
  reference_cases _ _ _ := .inl ⟨rfl, fun h hn => h ▸ hn⟩

lemma text_unchanged (ls : List Lexeme) :
    Respelling.unchanged.text ls = ls.reverse.flatMap Lexeme.spelled := by
  refine List.flatMap_congr fun l _ => ?_
  cases l <;> rfl

namespace Reading.Respelling

lemma map_unchanged (ls : List Lexeme) : ls.map unchanged.lexeme = ls := by
  have hsame : ∀ l ∈ ls, unchanged.lexeme l = l := fun l _ => by cases l <;> rfl
  exact (List.map_congr_left hsame).trans (List.map_id _)

/-- No name is written out, so that any name may be remembered. -/
lemma knows_unchanged (T : NameTable) : unchanged.Knows T := by
  intro name _
  constructor
  · intro d h
    cases h
  · trivial

/-- What is read in one text is read in another one that has it ahead. -/
lemma Retraces.elsewhere {α : Type} {x : ReadM α} {k : α → Nat} {A : Text → Text → Prop} {r : Text}
    {s s' u : State} {a : α} (h : unchanged.Retraces k A x (fun _ => ⊤) s) (hruns : Runs x)
    (hx : x s = .ok a u) (htwin : unchanged.Twin s s')
    (hrest : ∀ w, s.rest = w ++ u.rest → s'.rest = w ++ r) :
    ∃ u' ls, x s' = .ok a u' ∧ u'.rest = r ∧ unchanged.Twin u u' ∧
      u.lexemes = ls ++ s.lexemes ∧ u'.lexemes = ls ++ s'.lexemes := by
  obtain ⟨ls, hls, hleads⟩ := h a u hx
  obtain ⟨ls', hls', hsplit⟩ := (hruns.run hx).spells
  -- both accounts of the reading list the same lexemes
  obtain rfl : ls = ls' := List.append_cancel_right (hls.symm.trans hls')
  rw [← text_unchanged] at hsplit
  have hleads := hleads (fun _ _ => trivial) (knows_unchanged _)
  obtain ⟨u', hu', hr', htwin', hl'⟩ := hleads.again s' r trivial htwin (hrest _ hsplit)
  rw [map_unchanged] at hl'
  exact ⟨u', ls, hu', hr', htwin', hls, hl'⟩

end Reading.Respelling

/-- The part of the text that is read. -/
def consumed (t : Text) : Text := (lexemes t).flatMap Lexeme.spelled

/-- What the text is the name of, if it is decorated. -/
def entity? (t : Text) : Option Entity :=
  match heading (.start t) with
  | .ok (.decorated e _) _ => some e
  | _ => none

/-! ### Where reading stops -/

/-- A loop that ends has met its end. -/
lemma stop_of_repeatWithin {α : Type} {stop : ReadM Bool} {step : ReadM α} {fuel : Nat}
    {s u : State} {as : List α} (h : repeatWithin stop step fuel s = .ok as u) :
    ∃ v, stop v = .ok true u := by
  induction fuel generalizing s as with
  | zero => cases h
  | succ fuel ih =>
    obtain ⟨b, v, hb, h⟩ := bind_eq_ok_iff.1 h
    cases b with
    | true =>
      cases h
      exact ⟨s, hb⟩
    | false =>
      obtain ⟨a, w, -, h⟩ := bind_eq_ok_iff.1 h
      obtain ⟨rest, x, hrest, h⟩ := bind_eq_ok_iff.1 h
      cases h
      exact ih hrest

lemma closed_of_params {α : Type} {mark : Text} {step : ReadM α} {s u : State} {as : List α}
    (h : repeatUntil (do if ← exhausted then pure true else upcoming mark) step s = .ok as u) :
    Closed mark u.rest := by
  obtain ⟨v, hv⟩ := stop_of_repeatWithin h
  rw [Respelling.paramsEnd_eq] at hv
  injection hv with hclosed hvu
  rw [← hvu]
  exact of_decide_eq_true hclosed

lemma closed_of_freeFunction {s u : State} {t : TypeTree} (h : freeFunction s = .ok t u) :
    Closed ['@'] u.rest := by
  obtain ⟨slot, s₁, -, h⟩ := bind_eq_ok_iff.1 h
  obtain ⟨c, s₂, -, h⟩ := bind_eq_ok_iff.1 h
  obtain ⟨q, s₃, -, h⟩ := bind_eq_ok_iff.1 h
  obtain ⟨resultSlot, s₄, -, h⟩ := bind_eq_ok_iff.1 h
  obtain ⟨result, s₅, -, h⟩ := bind_eq_ok_iff.1 h
  obtain ⟨params, s₆, hparams, h⟩ := bind_eq_ok_iff.1 h
  cases h
  exact closed_of_params hparams

lemma closed_of_memberFunction {s u : State} {t : TypeTree} (h : memberFunction s = .ok t u) :
    Closed ['Z'] u.rest := by
  obtain ⟨slot, s₁, -, h⟩ := bind_eq_ok_iff.1 h
  obtain ⟨cls, s₂, -, h⟩ := bind_eq_ok_iff.1 h
  obtain ⟨extra, s₃, -, h⟩ := bind_eq_ok_iff.1 h
  obtain ⟨c, s₄, -, h⟩ := bind_eq_ok_iff.1 h
  obtain ⟨q, s₅, -, h⟩ := bind_eq_ok_iff.1 h
  obtain ⟨result, s₆, -, h⟩ := bind_eq_ok_iff.1 h
  obtain ⟨params, s₇, hparams, h⟩ := bind_eq_ok_iff.1 h
  cases h
  exact closed_of_params hparams

lemma endsBefore_of_body {e : Entity} {p : Path} {s u : State} {sym : Symbol}
    (h : body (.decorated e p) s = .ok sym u) : EndsBefore e u.rest := by
  match e with
  | .variable => trivial
  | .freeFunction =>
    obtain ⟨t, v, ht, h⟩ := bind_eq_ok_iff.1 h
    cases h
    exact closed_of_freeFunction ht
  | .memberFunction =>
    obtain ⟨t, v, ht, h⟩ := bind_eq_ok_iff.1 h
    cases h
    exact closed_of_memberFunction ht

/-- A decorated name that is read is the name of something, and may end where reading stopped. -/
lemma heading_of_symbol {t : Text} {s : Symbol} {u : State} (ht : t.head? = some '?')
    (h : symbol (.start t) = .ok s u) :
    ∃ e p v, heading (.start t) = .ok (.decorated e p) v ∧ EndsBefore e u.rest := by
  obtain ⟨head, v, hhead, hbody⟩ := bind_eq_ok_iff.1 h
  obtain ⟨e, p, rfl⟩ := decorated_of_heading ht hhead
  exact ⟨e, p, v, hhead, endsBefore_of_body hbody⟩

/-! ### Other texts behind the same symbol -/

/-- **What follows is not looked at**: a decorated name is a part that is read and a rest in front
of which its symbol may end. In front of every text before which it may end, the same part is read
as the same symbol, and no more than that part. -/
theorem parse_consumed_append {t : Text} {s : Symbol} (ht : t.head? = some '?')
    (h : parse t = .ok s) :
    consumed t ++ unread t = t ∧ ∃ e, entity? t = some e ∧ EndsBefore e (unread t) ∧
      ∀ w, EndsBefore e w → parse (consumed t ++ w) = .ok s ∧ unread (consumed t ++ w) = w := by
  obtain ⟨u, hu, hsound⟩ := symbol_of_parse ht h
  obtain ⟨e, p, v, hhead, hends⟩ := heading_of_symbol ht hu
  have hd := decoder_of_ok hu
  have hunread : unread t = u.rest := by rw [unread, hd]
  have hconsumed : consumed t = Respelling.unchanged.text u.lexemes := by
    rw [consumed, lexemes, hd, text_unchanged]
  have hretraces := Respelling.retraces_symbol_of_heading (R := .unchanged) (s := .start t)
    ht hhead
  obtain ⟨ls, hls, hleads⟩ := hretraces s u hu
  obtain rfl : u.lexemes = ls := by simpa [State.start] using hls
  have hleads := hleads (fun _ _ => trivial) (by simp [Respelling.Knows, State.start])
  refine ⟨?_, e, ?_, hunread ▸ hends, fun w hw => ?_⟩
  · rw [hunread, hconsumed, text_unchanged]
    exact hsound.text
  · simp only [entity?, hhead]
  · obtain ⟨u', hu', hrest, -⟩ := hleads.again (.start (consumed t ++ w)) w (.inr ⟨hends, hw⟩)
      ⟨rfl, rfl, rfl⟩ (by rw [hconsumed]; rfl)
    have hd' := decoder_of_ok hu'
    exact ⟨by rw [parse, hd'], by rw [unread, hd', hrest]⟩

/-- A free function with its `@`, and a constructor whose text ends where its parameters would come
next: both may end with the text, or go on behind a mark. -/
theorem parse_consumed_append_functions :
    (∃ s, parse "?f@ns@@YAHPAY01H@Z".toList = .ok s ∧
      parse "?f@ns@@YAHPAY01H".toList = .ok s ∧ parse "?f@ns@@YAHPAY01H@?!".toList = .ok s) ∧
    ∃ s, parse "??0Foo@@QAE@".toList = .ok s ∧ parse "??0Foo@@QAE@Z?!".toList = .ok s := by
  have hfree : consumed "?f@ns@@YAHPAY01H@Z".toList = "?f@ns@@YAHPAY01H".toList ∧
      entity? "?f@ns@@YAHPAY01H@Z".toList = some .freeFunction := by decide +kernel
  have hmember : consumed "??0Foo@@QAE@".toList = "??0Foo@@QAE@".toList ∧
      entity? "??0Foo@@QAE@".toList = some .memberFunction := by decide +kernel
  constructor
  · obtain ⟨s, hs, -⟩ := exists_of_test (t := "?f@ns@@YAHPAY01H@Z".toList) (p := fun _ => true)
      (by decide +kernel)
    obtain ⟨-, e, he, -, hall⟩ := parse_consumed_append (by decide) hs
    rw [hfree.2] at he
    cases he
    rw [hfree.1] at hall
    exact ⟨s, hs, (hall [] (by decide)).1, (hall "@?!".toList (by decide)).1⟩
  · obtain ⟨s, hs, -⟩ := exists_of_test (t := "??0Foo@@QAE@".toList) (p := fun _ => true)
      (by decide +kernel)
    obtain ⟨-, e, he, -, hall⟩ := parse_consumed_append (by decide) hs
    rw [hmember.2] at he
    cases he
    rw [hmember.1] at hall
    exact ⟨s, hs, (hall "Z?!".toList (by decide)).1⟩

end Undecorate
