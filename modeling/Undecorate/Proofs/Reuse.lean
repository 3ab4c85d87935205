import Mathlib.Tactic.Lemma
import Undecorate.Decoder

/-!
A decoder can be used again.

A text that cannot be read leaves the decoder in the middle of it: names are remembered, the nesting
is as deep as it was, and nodes have been numbered. The next text is read from the beginning all the
same, so a session gives for every text what a fresh decoder gives, whatever came before it.
-/

namespace Undecorate

namespace Decoder

/-- The decoder that is left behind by reading the texts one after the other. -/
def after (d : Decoder) (ts : List Text) : Decoder := ts.foldl (fun d t => (d.parse t).2) d

/-- Every part of the state is set anew. -/
lemma restart_eq_start (d : Decoder) (t : Text) : d.restart t = .start t := rfl

/-- What is read, and what is left behind, depends on the text alone. -/
lemma parse_eq_of_fresh (d : Decoder) (t : Text) : d.parse t = Decoder.parse {} t := by
  simp only [Decoder.parse, restart_eq_start]

/-- A session may be cut in two, and goes on with the decoder that the first part left behind. -/
lemma parseAll_append (d : Decoder) (ts us : List Text) :
    d.parseAll (ts ++ us) = d.parseAll ts ++ (d.after ts).parseAll us := by
  induction ts generalizing d with
  | nil => rfl
  | cons t ts ih =>
    rw [List.cons_append, parseAll, parseAll, ih, List.cons_append]
    rfl

lemma parseAll_eq_map (d : Decoder) (ts : List Text) : d.parseAll ts = ts.map Undecorate.parse := by
  induction ts generalizing d with
  | nil => rfl
  | cons t ts ih =>
    rw [parseAll, ih, List.map_cons, parse_eq_of_fresh]
    rfl

end Decoder

/-- **Nothing is carried over**: after any session, from whatever state it started, a text is read
as by a fresh decoder, and leaves behind what it leaves of a fresh one. So a session gives at every
position what its text gives alone, and what follows in a session does not depend on the texts
before it. -/
theorem session_reads_afresh (d : Decoder) (ts : List Text) :
    (∀ t, (d.after ts).parse t = Decoder.parse {} t ∧ ((d.after ts).parse t).1 = parse t) ∧
    d.parseAll ts = ts.map parse ∧
    ∀ us, d.parseAll (ts ++ us) = d.parseAll ts ++ us.map parse := by
  refine ⟨fun t => ?_, d.parseAll_eq_map ts, fun us => ?_⟩
  · have hfresh := (d.after ts).parse_eq_of_fresh t
    exact ⟨hfresh, by rw [hfresh, parse]⟩
  · rw [d.parseAll_append ts us, (d.after ts).parseAll_eq_map us]

/-- What a failure leaves behind is not nothing: the decoder stands three types deep and remembers a
name, which a reference would find if the next text were read from there. -/
example :
    let left := (Decoder.parse {} "?x@@3PAPA!".toList).2.state
    left.depth = 3 ∧ left.names.resolve? 0 = some ['x'] ∧
      (parse "?0@@3H".toList).toOption.isNone = true := by
  decide +kernel

end Undecorate
