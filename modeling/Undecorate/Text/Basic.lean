/-!
Text is a list of characters. A mark cuts a text at its first occurrence, and a character class
beyond ASCII is a list of code ranges.
-/

namespace Undecorate

abbrev Text := List Char

namespace Text

/-- What follows the mark in a text that starts with it. -/
def behind? : Text → Text → Option Text
  | [], t => some t
  | _ :: _, [] => none
  | m :: mark, c :: t => if m = c then behind? mark t else none

/-- The text before the first occurrence of the mark, and the text after it. The empty mark
occurs at the very start. -/
def cut? (mark : Text) : Text → Option (Text × Text)
  | [] => if mark = [] then some ([], []) else none
  | c :: rest =>
    match behind? mark (c :: rest) with
    | some after => some ([], after)
    | none => (cut? mark rest).map fun (before, after) => (c :: before, after)

theorem behind?_eq_some_iff {mark t after : Text} :
    behind? mark t = some after ↔ t = mark ++ after := by
  induction mark generalizing t with
  | nil => simp [behind?]
  | cons m mark ih =>
    cases t with
    | nil => simp [behind?]
    | cons c t =>
      by_cases h : m = c
      · simp [behind?, h, ih]
      · simp [behind?, h, Ne.symm h]

/-- Cutting loses nothing but the mark. -/
theorem eq_of_cut?_eq_some {mark t before after : Text} (h : cut? mark t = some (before, after)) :
    t = before ++ mark ++ after := by
  induction t generalizing before with
  | nil =>
    rw [cut?] at h
    split at h <;> simp_all
  | cons c t ih =>
    rw [cut?] at h
    split at h
    · next hm => simp_all [behind?_eq_some_iff]
    · obtain ⟨⟨b, a⟩, hb, hc⟩ := Option.map_eq_some_iff.1 h
      cases hc
      simp [ih hb]

end Text

/-- Ranges of code points, both ends included. -/
abbrev CodeRanges := List (Nat × Nat)

def CodeRanges.holds (ranges : CodeRanges) (c : Char) : Bool :=
  ranges.any fun (low, high) => low ≤ c.toNat && c.toNat ≤ high

end Undecorate
