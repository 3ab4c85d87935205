import Undecorate.Proofs.Reading.Blame
import Undecorate.Proofs.Reading.Step

/-!
What reading keeps from step to step, and how it can end.

`Sound t s` holds of every state in which the text `t` is being read: what was read and what is
left make up `t`, no remembered name contains `@`, and no number of dimensions was too long.
`Reads t k x P` says of `x` that it keeps this, that it moves past `k` characters at least before it
gives a value with `P`, and that it fails only for malformed text, which it blames, or for a number
of dimensions that is too long. Both loops of the reader keep what their steps keep, and end.
-/

namespace Undecorate.Reading

variable {α β : Type} {t : Text}

/-! ### Sound states -/

/-- A negative number with more digits than can be written. -/
def Overlong (n : Int) : Prop := n < 0 ∧ digitLimit < (Nat.toDigits 10 n.natAbs).length

/-- The lexeme is not a number of dimensions that is too long. -/
def Lexeme.Fits : Lexeme → Prop
  | dimension _ n => ¬ Overlong n
  | _ => True

/-- What has been read, as it was spelled. -/
def State.spelled (s : State) : Text := s.lexemes.reverse.flatMap Lexeme.spelled

structure Sound (t : Text) (s : State) : Prop where
  text : s.spelled ++ s.rest = t
  names : ∀ name ∈ s.names.names, '@' ∉ name
  fits : ∀ l ∈ s.lexemes, l.Fits

/-- The failures that can be, with the state that each of them leaves behind. -/
def Fails (t : Text) : Failure → State → Prop
  | .malformed why, u => (∀ l ∈ u.lexemes, l.Fits) ∧ why.Blames t u.spelled
  | .numberTooLong, u =>
    u.spelled ++ u.rest = t ∧ ∃ w n ls, u.lexemes = .dimension w n :: ls ∧
      (Cursor.ofText (w ++ u.rest)).number.1 = some n ∧ Overlong n
  | _, _ => False

/-- The ways in which reading from `s` can end. -/
def Ends (t : Text) (k : Nat) (P : α → Prop) (s : State) :
    EStateM.Result Failure State α → Prop
  | .ok a u => P a ∧ Sound t u ∧ u.rest.length + k ≤ s.rest.length
  | .error f u => Fails t f u

/-- From every sound state `x` ends in one of these ways. -/
def Reads (t : Text) (k : Nat) (x : ReadM α) (P : α → Prop) : Prop :=
  ∀ s, Sound t s → Ends t k P s (x s)

lemma sound_start (t : Text) : Sound t (.start t) where
  text := rfl
  names := by simp [State.start]
  fits := by simp [State.start]

lemma State.spelled_pass (s : State) (l : Lexeme) (c : Cursor) :
    (s.pass l c).spelled = s.spelled ++ l.spelled := by
  simp [State.spelled, State.pass]

lemma Sound.fits_pass {s : State} (hs : Sound t s) (l : Lexeme) (c : Cursor) (hl : l.Fits) :
    ∀ l' ∈ (s.pass l c).lexemes, l'.Fits := by
  intro l' hl'
  rcases List.mem_cons.1 hl' with rfl | hl'
  · exact hl
  · exact hs.fits l' hl'

lemma Sound.text_pass {s : State} {l : Lexeme} {c : Cursor} (hs : Sound t s)
    (hc : s.rest = l.spelled ++ c.rest) : (s.pass l c).spelled ++ (s.pass l c).rest = t := by
  rw [State.spelled_pass, List.append_assoc]
  change s.spelled ++ (l.spelled ++ c.rest) = t
  rw [← hc, hs.text]

lemma Sound.pass {s : State} {l : Lexeme} {c : Cursor} (hs : Sound t s)
    (hc : s.rest = l.spelled ++ c.rest) (hl : l.Fits) : Sound t (s.pass l c) where
  text := hs.text_pass hc
  names := hs.names
  fits := hs.fits_pass l c hl

lemma Sound.spelled_eq {u v : State} (hu : Sound t u) (hv : Sound t v) (h : u.rest = v.rest) :
    u.spelled = v.spelled := by
  have htext : u.spelled ++ u.rest = v.spelled ++ v.rest := by rw [hu.text, hv.text]
  rw [h] at htext
  exact List.append_cancel_right htext

/-! ### Rules -/

lemma Reads.pure {P : α → Prop} {a : α} (h : P a) : Reads t 0 (pure a) P :=
  fun _ hs => ⟨h, hs, Nat.le_refl _⟩

/-- The same end, seen from an earlier state. -/
lemma Ends.from {P : α → Prop} {s s' : State} {r : EStateM.Result Failure State α} {k l : Nat}
    (h : Ends t k P s r) (hl : s.rest.length + l ≤ s'.rest.length + k) : Ends t l P s' r := by
  cases r with
  | error e u => exact h
  | ok a u =>
    obtain ⟨ha, hu, hk⟩ := h
    exact ⟨ha, hu, by omega⟩

lemma Ends.bind {P : α → Prop} {Q : β → Prop} {x : ReadM α} {f : α → ReadM β} {k l : Nat}
    {s : State} (hx : Ends t k P s (x s))
    (hf : ∀ a u, P a → Sound t u → u.rest.length + k ≤ s.rest.length → Ends t l Q u (f a u)) :
    Ends t (k + l) Q s ((x >>= f) s) := by
  change Ends t (k + l) Q s (EStateM.bind x f s)
  unfold EStateM.bind
  revert hx
  cases x s with
  | error e u => exact id
  | ok a u =>
    rintro ⟨ha, hu, hk⟩
    exact (hf a u ha hu hk).from (by omega)

/-- What the first of two steps moves past is not counted. -/
lemma Ends.andThen {P : α → Prop} {Q : β → Prop} {x : ReadM α} {f : α → ReadM β} {k l : Nat}
    {s : State} (hx : Ends t k P s (x s))
    (hf : ∀ a u, P a → Sound t u → u.rest.length + k ≤ s.rest.length → Ends t l Q u (f a u)) :
    Ends t l Q s ((x >>= f) s) :=
  (hx.bind hf).from (by omega)

/-- The first of two steps moves the cursor. -/
lemma Reads.bind {P : α → Prop} {Q : β → Prop} {x : ReadM α} {f : α → ReadM β} {k : Nat}
    (hx : Reads t k x P) (hf : ∀ a, P a → Reads t 0 (f a) Q) : Reads t k (x >>= f) Q :=
  fun s hs => (hx s hs).bind fun a u ha hu _ => hf a ha u hu

/-- The second of two steps moves the cursor. -/
lemma Reads.andThen {P : α → Prop} {Q : β → Prop} {x : ReadM α} {f : α → ReadM β} {k l : Nat}
    (hx : Reads t k x P) (hf : ∀ a, P a → Reads t l (f a) Q) : Reads t l (x >>= f) Q :=
  fun s hs => (hx s hs).andThen fun a u ha hu _ => hf a ha u hu

lemma reads_throw {P : α → Prop} {k : Nat} {why : Malformed} (h : why.shown? = none) :
    Reads t k (throw (.malformed why) : ReadM α) P :=
  fun _ hs => ⟨hs.fits, Malformed.blames_of_silent h⟩

/-- Where the text cannot be read on, the text that comes next is to blame. -/
lemma Sound.fails {u : State} {why : Malformed} {label : Text} (hu : Sound t u)
    (hshown : why.shown? = some (label, u.rest)) (h : why.Unreadable u.spelled) :
    Fails t (.malformed why) u := by
  refine ⟨hu.fits, ?_, h⟩
  rw [hshown]
  intro shown hm
  obtain rfl := Option.mem_some_iff.1 hm
  exact hu.text

/-- A step that reads something with `P`, and that reads nothing only where the text that comes next
has `N`. -/
def Tries (t : Text) (x : ReadM (Option α)) (P : α → Prop) (N : Text → Prop) : Prop :=
  ∀ s, Sound t s →
    (∃ a u, x s = .ok (some a) u ∧ P a ∧ Sound t u ∧ u.rest.length < s.rest.length) ∨
    ∃ u, x s = .ok none u ∧ Sound t u ∧ u.rest = s.rest ∧ N u.rest

variable {N : Text → Prop}

lemma Tries.reads {P : α → Prop} {x : ReadM (Option α)} (h : Tries t x P N) :
    Reads t 0 x fun o => ∀ a ∈ o, P a := by
  intro s hs
  rcases h s hs with ⟨a, u, hx, ha, hu, hl⟩ | ⟨u, hx, hu, hr, -⟩
  · rw [hx]
    exact ⟨by simpa using ha, hu, Nat.le_of_lt hl⟩
  · rw [hx]
    exact ⟨by simp, hu, Nat.le_of_eq (by rw [hr]; rfl)⟩

/-- Where nothing was read, the next step has to move the cursor. -/
lemma Tries.bind {P : α → Prop} {Q : β → Prop} {x : ReadM (Option α)} {f : Option α → ReadM β}
    {s : State} (hx : Tries t x P N) (hs : Sound t s)
    (hsome : ∀ a, P a → Reads t 0 (f (some a)) Q)
    (hnone : ∀ u, Sound t u → u.rest = s.rest → N u.rest → Ends t 1 Q u (f none u)) :
    Ends t 1 Q s ((x >>= f) s) := by
  rcases hx s hs with ⟨a, u, hx, ha, hu, hl⟩ | ⟨u, hx, hu, hr, hN⟩
  · rw [bind_of_ok hx]
    exact (hsome a ha u hu).from (by omega)
  · rw [bind_of_ok hx]
    exact (hnone u hu hr hN).from (Nat.le_of_eq (by rw [hr]))

/-! ### Loops and nesting -/

section Loops

variable {P : α → Prop} {step : ReadM α}

/-- Every round of the loop uses up a character, so it does not run out of rounds. -/
lemma ends_repeatWithin {stop : ReadM Bool} (hstop : Reads t 0 stop fun _ => True)
    (hstep : Reads t 1 step P) :
    ∀ (fuel : Nat) (s : State), Sound t s → s.rest.length < fuel →
      Ends t 0 (fun as => ∀ a ∈ as, P a) s (repeatWithin stop step fuel s) := by
  intro fuel
  induction fuel with
  | zero =>
    intro s _ hlt
    omega
  | succ fuel ih =>
    intro s hs hlt
    refine (hstop s hs).andThen fun b u _ hu hk => ?_
    cases b with
    | true => exact Reads.pure (by simp) u hu
    | false =>
      refine (hstep u hu).andThen fun a v ha hv hk' => ?_
      refine (ih v hv (by omega)).andThen fun as w has hw _ => ?_
      exact Reads.pure (by simpa using ⟨ha, has⟩) w hw

lemma reads_repeatUntil {stop : ReadM Bool} (hstop : Reads t 0 stop fun _ => True)
    (hstep : Reads t 1 step P) : Reads t 0 (repeatUntil stop step) fun as => ∀ a ∈ as, P a :=
  fun s hs => ends_repeatWithin hstop hstep (s.rest.length + 1) s hs (Nat.lt_succ_self _)

lemma reads_repeatTimes {k : Nat} (hstep : Reads t k step P) (n : Nat) :
    Reads t 0 (repeatTimes step n) fun as => ∀ a ∈ as, P a := by
  induction n with
  | zero => exact Reads.pure (by simp)
  | succ n ih =>
    refine hstep.andThen fun a ha => ?_
    exact ih.bind fun as has => Reads.pure (by simpa using ⟨ha, has⟩)

lemma reads_nested {k : Nat} (h : Reads t k step P) : Reads t k (nested step) P := by
  intro s hs
  rw [nested_eq]
  split
  · exact ⟨hs.fits, Malformed.blames_of_silent rfl⟩
  · have := h { s with depth := s.depth + 1 } ⟨hs.text, hs.names, hs.fits⟩
    revert this
    cases step { s with depth := s.depth + 1 } with
    | error f u => exact id
    | ok a u =>
      rintro ⟨ha, hu, hk⟩
      exact ⟨ha, ⟨hu.text, hu.names, hu.fits⟩, hk⟩

end Loops

end Undecorate.Reading
