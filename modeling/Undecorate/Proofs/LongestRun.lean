import Mathlib.Data.List.SplitBy
import Mathlib.Tactic.Lemma
import Mathlib.Tactic.SplitIfs

/-!
The longest runs of elements with a property, in a list. Words are such runs of a text, and so are
the dimensions of an array on the way down a type.
-/

namespace Undecorate

variable {α : Type} {p : α → Bool}

/-- The longest runs of elements with `p`, in order. -/
def longestRuns (p : α → Bool) (l : List α) : List (List α) :=
  (l.splitBy fun a b => p a && p b).filter fun run => run.all p

/-- Where no run goes on from one list to the next, their runs follow each other. -/
lemma longestRuns_append {l m : List α}
    (h : ∀ a ∈ l.getLast?, ∀ b ∈ m.head?, (p a && p b) = false) :
    longestRuns p (l ++ m) = longestRuns p l ++ longestRuns p m := by
  unfold longestRuns
  rw [List.splitBy_append, List.filter_append]
  intro a ha b hb
  exact h a ha b hb

/-- An element in front of a run makes it longer and adds none. -/
lemma length_longestRuns_cons_cons {a b : α} {l : List α} (ha : p a = true) (hb : p b = true) :
    (longestRuns p (a :: b :: l)).length = (longestRuns p (b :: l)).length := by
  obtain ⟨g, gs, hg⟩ : ∃ g gs, (b :: l).splitBy (fun a b => p a && p b) = (b :: g) :: gs := by
    have hne : (b :: l).splitBy (fun a b => p a && p b) ≠ [] := by simp
    obtain ⟨run, gs, hrun⟩ := List.exists_cons_of_ne_nil hne
    obtain ⟨hflat, hnil, -, -⟩ := List.splitBy_eq_iff.1 hrun
    obtain ⟨x, g, rfl⟩ := List.exists_cons_of_ne_nil (l := run) (by rintro rfl; simp at hnil)
    simp only [List.flatten_cons, List.cons_append, List.cons.injEq] at hflat
    exact ⟨g, gs, by rw [hrun, hflat.1]⟩
  have hlonger : (a :: b :: l).splitBy (fun a b => p a && p b) = (a :: b :: g) :: gs := by
    obtain ⟨hflat, hnil, hruns, hcuts⟩ := List.splitBy_eq_iff.1 hg
    refine List.splitBy_eq_iff.2 ⟨by simp [hflat], ?_, ?_, ?_⟩
    · simpa using hnil
    · intro run hrun
      rcases List.mem_cons.1 hrun with rfl | hrun
      · exact List.isChain_cons_cons.2 ⟨by simp [ha, hb], hruns _ (by simp)⟩
      · exact hruns run (by simp [hrun])
    · rw [List.isChain_cons] at hcuts ⊢
      refine ⟨fun run hrun => ?_, hcuts.2⟩
      obtain ⟨_, hrun', hcut⟩ := hcuts.1 run hrun
      exact ⟨by simp, hrun', by simpa using hcut⟩
  have hall : (a :: b :: g).all p = (b :: g).all p := by
    rw [List.all_cons, ha, Bool.true_and]
  simp only [longestRuns, hg, hlonger, List.filter_cons, hall]
  split_ifs <;> simp

/-- An element with `p` adds a run, unless it stands in front of one. -/
lemma length_longestRuns_cons (a : α) (l : List α) :
    (longestRuns p (a :: l)).length =
      (longestRuns p l).length + (p a && !l.head?.any p).toNat := by
  by_cases hm : (p a && l.head?.any p) = true
  · cases l with
    | nil => simp at hm
    | cons b l =>
      obtain ⟨ha, hb⟩ : p a = true ∧ p b = true := by simpa using hm
      simp [length_longestRuns_cons_cons ha hb, hb]
  · have hsplit : longestRuns p ([a] ++ l) = longestRuns p [a] ++ longestRuns p l := by
      refine longestRuns_append fun x hx b hb => ?_
      simp only [List.getLast?_singleton, Option.mem_some_iff] at hx
      subst hx
      simpa [Option.mem_def.1 hb] using hm
    have hone : (longestRuns p [a]).length = (p a).toNat := by
      cases ha : p a <;> simp [longestRuns, List.splitBy, List.splitBy.loop, ha]
    rw [List.singleton_append] at hsplit
    rw [hsplit, List.length_append, hone]
    cases ha : p a <;> simp_all
    omega

end Undecorate
