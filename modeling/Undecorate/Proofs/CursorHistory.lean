import Undecorate.Proofs.Number

/-!
A cursor, whatever is done with it.

An operation leaves the cursor alone, or takes a character, or brings it to another place of the
same text where nothing can be put back: `Effect` says this once for every operation. So a cursor
always stands in the text it was made for, and the character that may be put back is the one right
before it, by induction over the operations. A second induction remembers where a character was
taken last: putting it back leads there.
-/

namespace Undecorate

/-- A mark ends where it first occurs: the text up to and with it has no other occurrence. -/
lemma Text.eq_nil_of_cut? {mark t before after a b : Text}
    (h : cut? mark t = some (before, after)) (hab : before ++ mark = a ++ mark ++ b) : b = [] := by
  induction t generalizing before a with
  | nil =>
    rw [cut?] at h
    split at h
    · next hmark =>
      cases h
      simp_all
    · cases h
  | cons c t ih =>
    rw [cut?] at h
    split at h
    · cases h
      have hlength := congrArg List.length hab
      simp only [List.length_append, List.length_nil] at hlength
      exact List.eq_nil_of_length_eq_zero (by omega)
    · next hnone =>
      obtain ⟨⟨p, q⟩, hcut, he⟩ := Option.map_eq_some_iff.1 h
      cases he
      cases a with
      | nil =>
        -- the mark would come next
        have hstart : c :: t = mark ++ (b ++ after) := by
          have ht := Text.eq_of_cut?_eq_some hcut
          rw [ht, ← List.append_assoc mark, ← List.nil_append mark, ← hab]
          simp
        rw [Text.behind?_eq_some_iff.2 hstart] at hnone
        cases hnone
      | cons x a =>
        simp only [List.cons_append, List.cons.injEq] at hab
        exact ih hcut hab.2

namespace Cursor

/-! ### Operations -/

/-- What can be done with a cursor. -/
inductive Operation where
  | consume (mark : Text)
  | startsWith (mark : Text)
  | take
  | putBack (t : Text)
  | readUntil (mark : Text)
  | peek
  | atEnd
  | atDigit
  | number

/-- What an operation answers. -/
inductive Reply where
  | verdict (b : Bool)
  | character (c : Option Char)
  | text (t : Option Text)
  | number (n : Option Int)
  | restored
  | refused
deriving DecidableEq

/-- The answer to an operation and the cursor behind it. One that fails leaves the cursor where it
is. -/
def perform (c : Cursor) : Operation → Reply × Cursor
  | .consume mark => (.verdict (c.consume? mark).isSome, (c.consume? mark).getD c)
  | .startsWith mark => (.verdict (c.startsWith mark), c)
  | .take => (.character c.take.1, c.take.2)
  | .putBack t =>
    match c.putBack? t with
    | some d => (.restored, d)
    | none => (.refused, c)
  | .readUntil mark =>
    match c.readUntil? mark with
    | some (value, d) => (.text (some value), d)
    | none => (.text none, c)
  | .peek => (.character c.peek?, c)
  | .atEnd => (.verdict c.atEnd, c)
  | .atDigit => (.verdict c.atDigit, c)
  | .number => (.number c.number.1, c.number.2)

/-- The cursor after all the operations. -/
def after (c : Cursor) (ops : List Operation) : Cursor := ops.foldl (fun c op => (c.perform op).2) c

/-- Where an operation takes a character, if it takes one. A number takes its digit, behind the
sign. -/
def takesAt? (c : Cursor) : Operation → Option Cursor
  | .take => some c
  | .number =>
    let unsigned := (c.consume? ['?']).getD c
    if unsigned.atDigit then some unsigned else none
  | _ => none

/-- Where a character was taken last. -/
def lastTakenAt? (c : Cursor) : List Operation → Option Cursor
  | [] => none
  | op :: ops => ((c.perform op).2.lastTakenAt? ops).or (c.takesAt? op)

/-! ### What one operation does -/

/-- The cursor stands in the text, right behind the character that may be put back. -/
structure Within (t : Text) (c : Cursor) : Prop where
  text : c.text = t
  taken : ∀ x, c.taken = some x → c.before.head? = some x

/-- What an operation makes of the cursor `c`, with the place where it takes a character. -/
inductive Effect (c : Cursor) (place : Option Cursor) (d : Cursor) : Prop
  | stays (hd : d = c) (hplace : place = none)
  | takes (e : Cursor) (x : Char) (hplace : place = some e) (htext : e.text = c.text)
      (hrest : e.rest = x :: d.rest) (hbefore : d.before = x :: e.before)
      (htaken : d.taken = some x)
  | clears (htext : d.text = c.text) (htaken : d.taken = none)

variable {t : Text} {c d : Cursor}

lemma taken_consume? {mark : Text} (h : c.consume? mark = some d) : d.taken = none := by
  obtain ⟨-, r, -, rfl⟩ := consume?_eq_some_iff.1 h
  rfl

lemma effect_consume (c : Cursor) (mark : Text) :
    Effect c none ((c.consume? mark).getD c) := by
  cases h : c.consume? mark with
  | none => exact .stays rfl rfl
  | some d => exact .clears (text_consume? h) (taken_consume? h)

lemma effect_take (c : Cursor) : Effect c (some c) c.take.2 := by
  cases hr : c.rest with
  | nil =>
    have htake : c.take.2 = { c with taken := none } := by simp [take, hr]
    rw [htake]
    exact .clears rfl rfl
  | cons x r =>
    have htake : c.take.2 = { before := x :: c.before, rest := r, taken := some x } := by
      simp [take, hr]
    rw [htake]
    exact .takes c x rfl rfl hr rfl rfl

/-- What is put back is the character that was taken last. -/
lemma putBack?_eq_some {w : Text} (h : c.putBack? w = some d) :
    w = [] ∧ d = c ∨
    ∃ x, w = [x] ∧ c.taken = some x ∧ d = { before := c.before.tail, rest := x :: c.rest } := by
  match w with
  | [] => exact .inl ⟨rfl, (Option.some.inj h).symm⟩
  | [x] =>
    simp only [putBack?] at h
    split at h
    · next htaken =>
      cases h
      exact .inr ⟨x, rfl, htaken, rfl⟩
    · cases h
  | _ :: _ :: _ => cases h

lemma effect_putBack (hc : Within t c) (w : Text) : Effect c none (c.perform (.putBack w)).2 := by
  simp only [perform]
  cases h : c.putBack? w with
  | none => exact .stays rfl rfl
  | some d =>
    rcases putBack?_eq_some h with ⟨-, rfl⟩ | ⟨x, -, htaken, rfl⟩
    · exact .stays rfl rfl
    · obtain ⟨before, hbefore⟩ := List.head?_eq_some_iff.1 (hc.taken x htaken)
      exact .clears (by simp [Cursor.text, hbefore]) rfl

lemma effect_readUntil (c : Cursor) (mark : Text) :
    Effect c none (c.perform (.readUntil mark)).2 := by
  simp only [perform]
  cases h : c.readUntil? mark with
  | none => exact .stays rfl rfl
  | some p =>
    obtain ⟨value, d⟩ := p
    obtain ⟨⟨v, r⟩, -, he⟩ := Option.map_eq_some_iff.1 h
    refine .clears (text_readUntil? h) ?_
    cases he
    rfl

/-- Behind the sign a number takes its digit, or passes its run, or stays where it is. -/
lemma effect_number (c : Cursor) : Effect c (c.takesAt? .number) c.number.2 := by
  have hsign := effect_consume c ['?']
  generalize hu : (c.consume? ['?']).getD c = u at hsign
  have htext : u.text = c.text := by
    cases hsign with
    | stays hd => rw [hd]
    | takes e x hplace => cases hplace
    | clears htext => exact htext
  have hplace : c.takesAt? .number = if u.atDigit then some u else none := by
    simp only [takesAt?, hu]
  have hnumber : ∀ n after, u.magnitude? = some (n, after) → c.number.2 = after := by
    intro n after hm
    simp only [number, hu, hm]
  rcases digit?_cases u with ⟨x, r, -, hr, hdigit, hsome⟩ | ⟨hdigit, hnone⟩
  · rw [hplace, hdigit, if_pos rfl, hnumber _ _ (by rw [magnitude?, hsome])]
    exact .takes u x rfl htext hr rfl rfl
  · rw [hplace, hdigit, if_neg Bool.false_ne_true]
    cases hrun : u.letterRun? with
    | some p =>
      obtain ⟨n, d⟩ := p
      obtain ⟨run, r, -, -, hr, hd⟩ := letterRun?_eq_some hrun
      rw [hnumber n d (by rw [magnitude?, hnone, hrun])]
      refine .clears ?_ (by rw [hd])
      rw [← htext, hd]
      simp [Cursor.text, hr]
    | none =>
      have hstay : c.number.2 = u := by
        simp only [number, hu, magnitude?, hnone, hrun]
      rw [hstay]
      exact hsign

/-- Every operation stays, takes a character, or comes to where nothing can be put back. -/
lemma effect_perform (hc : Within t c) (op : Operation) :
    Effect c (c.takesAt? op) (c.perform op).2 := by
  cases op with
  | consume mark => exact effect_consume c mark
  | take => exact effect_take c
  | putBack w => exact effect_putBack hc w
  | readUntil mark => exact effect_readUntil c mark
  | number => exact effect_number c
  | _ => exact .stays rfl rfl

lemma Effect.within {place : Option Cursor} (h : Effect c place d) (hc : Within t c) :
    Within t d := by
  cases h with
  | stays hd => rwa [hd]
  | takes e x _ htext hrest hbefore htaken =>
    refine ⟨?_, fun y hy => ?_⟩
    · rw [← hc.text, ← htext]
      simp [Cursor.text, hrest, hbefore]
    · rw [htaken] at hy
      rw [hbefore, List.head?_cons, hy]
  | clears htext htaken =>
    refine ⟨htext.trans hc.text, fun y hy => ?_⟩
    rw [htaken] at hy
    cases hy

/-! ### What any operations do -/

lemma within_ofText (t : Text) : Within t (ofText t) := ⟨rfl, fun _ h => by cases h⟩

lemma within_after (hc : Within t c) (ops : List Operation) : Within t (c.after ops) := by
  induction ops generalizing c with
  | nil => exact hc
  | cons op ops ih => exact ih ((effect_perform hc op).within hc)

/-- A character that may be put back was taken last, or nothing has been done since it could be put
back before. -/
lemma taken_of_after (hc : Within t c) {ops : List Operation} {x : Char}
    (h : (c.after ops).taken = some x) :
    (∃ e, c.lastTakenAt? ops = some e ∧ e.rest = x :: (c.after ops).rest ∧
      (c.after ops).before = x :: e.before) ∨
    c.lastTakenAt? ops = none ∧ c.after ops = c := by
  induction ops generalizing c with
  | nil => exact .inr ⟨rfl, rfl⟩
  | cons op ops ih =>
    have heffect := effect_perform hc op
    have hafter : c.after (op :: ops) = (c.perform op).2.after ops := rfl
    rw [hafter] at h ⊢
    simp only [lastTakenAt?]
    rcases ih (heffect.within hc) h with ⟨e, he, hrest⟩ | ⟨hnone, hsame⟩
    · exact .inl ⟨e, by rw [he, Option.some_or], hrest⟩
    · rw [hnone, Option.none_or, hsame]
      rw [hsame] at h
      cases heffect with
      | stays hd hplace => exact .inr ⟨hplace, hd⟩
      | takes e y hplace _ hrest hbefore htaken =>
        obtain rfl : y = x := Option.some.inj (htaken.symm.trans h)
        exact .inl ⟨e, hplace, hrest, hbefore⟩
      | clears _ htaken =>
        rw [htaken] at h
        cases h

lemma Within.rest_eq (h : Within t c) : c.position ≤ t.length ∧ c.rest = t.drop c.position := by
  have hlength : c.before.reverse.length = c.position := List.length_reverse
  constructor
  · rw [← h.text, Cursor.text, List.length_append, hlength]
    omega
  · rw [← h.text, Cursor.text, List.drop_left' hlength]

lemma Within.getElem?_position (h : Within t c) {x : Char} (hx : c.taken = some x) :
    1 ≤ c.position ∧ t[c.position - 1]? = some x := by
  obtain ⟨before, hbefore⟩ := List.head?_eq_some_iff.1 (h.taken x hx)
  have hposition : c.position = before.length + 1 := by simp [position, hbefore]
  refine ⟨by omega, ?_⟩
  rw [hposition, Nat.add_sub_cancel, ← h.text, Cursor.text, hbefore, List.reverse_cons,
    List.append_assoc, List.getElem?_append_right (by simp)]
  simp

/-! ### What is passed -/

lemma passed_consume {mark : Text} (h : c.perform (.consume mark) = (.verdict true, d)) :
    Passed c d mark := by
  simp only [perform, Prod.mk.injEq, Reply.verdict.injEq] at h
  obtain ⟨hsome, hd⟩ := h
  obtain ⟨e, he⟩ := Option.isSome_iff_exists.1 hsome
  obtain ⟨-, r, hr, rfl⟩ := consume?_eq_some_iff.1 he
  rw [he, Option.getD_some] at hd
  rw [← hd]
  exact ⟨hr, rfl⟩

lemma passed_readUntil {mark value : Text}
    (h : c.perform (.readUntil mark) = (.text (some value), d)) :
    Passed c d (value ++ mark) ∧ ∀ a b, value ++ mark = a ++ mark ++ b → b = [] := by
  simp only [perform, readUntil?] at h
  cases hcut : Text.cut? mark c.rest with
  | none => simp [hcut] at h
  | some p =>
    obtain ⟨v, r⟩ := p
    simp only [hcut, Option.map_some, Prod.mk.injEq, Reply.text.injEq, Option.some.injEq] at h
    obtain ⟨rfl, rfl⟩ := h
    exact ⟨⟨Text.eq_of_cut?_eq_some hcut, rfl⟩, fun a b hab => Text.eq_nil_of_cut? hcut hab⟩

/-- An operation that finds nothing, or that is refused, changes nothing. -/
lemma perform_of_failure (c : Cursor) (op : Operation)
    (h : (c.perform op).1 ∈ [.verdict false, .text none, .refused]) : (c.perform op).2 = c := by
  cases op with
  | consume mark =>
    cases hc : c.consume? mark with
    | none => simp [perform, hc]
    | some d => simp [perform, hc] at h
  | take => simp [perform] at h
  | putBack w =>
    cases hc : c.putBack? w with
    | none => simp [perform, hc]
    | some d => simp [perform, hc] at h
  | readUntil mark =>
    cases hc : c.readUntil? mark with
    | none => simp [perform, hc]
    | some p => simp [perform, hc] at h
  | number => simp [perform] at h
  | _ => rfl

/-- What is put back leads to the place where a character was taken last. -/
lemma restored_of_after {ops : List Operation} {w : Text}
    (h : ((ofText t).after ops).perform (.putBack w) = (.restored, d)) :
    w = [] ∧ d = (ofText t).after ops ∨
    ∃ e, (ofText t).lastTakenAt? ops = some e ∧ d.rest = e.rest ∧ d.position = e.position := by
  have hback : ((ofText t).after ops).putBack? w = some d := by
    simp only [perform] at h
    split at h
    · next hd =>
      cases h
      exact hd
    · cases h
  rcases putBack?_eq_some hback with hempty | ⟨x, -, htaken, rfl⟩
  · exact .inl hempty
  · rcases taken_of_after (within_ofText t) htaken with ⟨e, he, hrest, hbefore⟩ | ⟨-, hfresh⟩
    · exact .inr ⟨e, he, hrest.symm, by simp [position, hbefore]⟩
    · rw [hfresh] at htaken
      cases htaken

/-- **A cursor keeps its place**: after any operations on a text, the cursor stands in the text, the
rest is what follows it there, and a character that may be put back stands right before it. What is
put back leads to where a character was taken last, and the empty text leads nowhere. Just the mark
is passed where one is found, and the text up to the first occurrence of a mark where it is looked
for. What fails changes nothing. -/
theorem after_keeps_place (t : Text) (ops : List Operation) :
    let c := (ofText t).after ops
    (c.position ≤ t.length ∧ c.rest = t.drop c.position ∧
      ∀ x, c.taken = some x → 1 ≤ c.position ∧ t[c.position - 1]? = some x) ∧
    (∀ w d, c.perform (.putBack w) = (.restored, d) → w = [] ∧ d = c ∨
      ∃ e, (ofText t).lastTakenAt? ops = some e ∧ d.rest = e.rest ∧ d.position = e.position) ∧
    (∀ mark d, c.perform (.consume mark) = (.verdict true, d) → Passed c d mark) ∧
    (∀ mark value d, c.perform (.readUntil mark) = (.text (some value), d) →
      Passed c d (value ++ mark) ∧ ∀ a b, value ++ mark = a ++ mark ++ b → b = []) ∧
    ∀ op, (c.perform op).1 ∈ [.verdict false, .text none, .refused] → (c.perform op).2 = c := by
  intro c
  have hwithin : Within t c := within_after (within_ofText t) ops
  obtain ⟨hposition, hrest⟩ := hwithin.rest_eq
  refine ⟨⟨hposition, hrest, fun x => hwithin.getElem?_position⟩, ?_, ?_, ?_, ?_⟩
  · exact fun w d => restored_of_after
  · exact fun mark d => passed_consume
  · exact fun mark value d => passed_readUntil
  · exact c.perform_of_failure

/-- The digit of a number is taken behind its sign, and that is where it is put back; a look at what
comes next does not change this, and a failure neither. -/
example :
    let c := (ofText "?5x".toList).after [.number, .peek, .consume ['y'], .putBack ['x']]
    c.taken = some '5' ∧ c.position = 2 ∧ (c.after [.putBack ['5']]).rest = "5x".toList := by
  decide +kernel

end Cursor

end Undecorate
