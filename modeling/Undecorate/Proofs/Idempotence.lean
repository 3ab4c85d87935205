import Undecorate.Proofs.Agreement

/-!
Undecorating a text twice is the same as undecorating it once.

A declaration contains no `@`, since the names in it do not and the writer has none of its own. So
a declaration that starts with `?` cannot be read as a decorated name again, and any other one is
read as an identifier. Only a declaration that is too deep is not given out at all.
-/

namespace Undecorate

open Reading

/-! ### Texts without `@` -/

lemma namePart_of_not_mem {s : State} (hn : s.names = {}) (h : '@' ∉ s.rest) :
    ∃ why u, namePart s = .error (.malformed why) u := by
  rcases namePart_cases s with ⟨name, c, -, -, hr, -⟩ | ⟨d, c, name, -, hname, -⟩ |
    ⟨why, u, -, hc⟩
  · -- the part would have to be closed
    exact absurd (by simp [hr]) h
  · -- the reference has nothing to refer to
    simp [hn, NameTable.resolve?] at hname
  · exact ⟨why, u, hc⟩

/-- A decorated name has at least the `@` that closes its path. -/
lemma parse_of_not_mem {t : Text} (ht : t.head? = some '?') (h : '@' ∉ t) :
    ∃ why, parse t = .error (.malformed why) := by
  obtain ⟨w, rfl⟩ := List.head?_eq_some_iff.1 ht
  have hw : '@' ∉ w := fun hm => h (by simp [hm])
  let s : State := State.pass (.start ('?' :: w)) (.code ['?']) { before := ['?'], rest := w }
  have hmark : accept ['?'] (.start ('?' :: w)) = .ok true s :=
    accept_eq (List.cons_ne_nil _ _) rfl
  have hno : accept ['@'] s = .ok false s := by
    refine accept_of_no_mark ?_
    rintro ⟨r, hr⟩
    exact hw (by rw [← show s.rest = w from rfl, ← hr]; simp)
  obtain ⟨why, u, hpart⟩ := namePart_of_not_mem (s := s) rfl hw
  have hpath : path s = .error (.malformed why) u := by
    change repeatWithin (accept ['@']) namePart (w.length + 1) s = _
    rw [repeatWithin, bind_of_ok hno]
    exact bind_of_error hpart
  have hheading : heading (.start ('?' :: w)) = .error (.malformed why) u := by
    rw [heading, bind_of_ok hmark]
    exact bind_of_error hpath
  refine ⟨why, ?_⟩
  rw [parse, decoder_of_error (bind_of_error hheading)]

/-! ### Identifiers and declarations -/

lemma render_of_identifier {t : Text} (h : t.head? ≠ some '?') :
    Symbol.render { path := [t], type := .leaf {} } = .ok t := by
  have hbase : baseName t = t := by
    unfold baseName
    split
    · simp at h
    · simp at h
    · rfl
  simp [Symbol.render, TypeTree.declare, TypeTree.leaf, TypeTree.left, TypeTree.right, constMark,
    qualified, Script.render, layout, hbase, pure, Except.pure]

lemma undecorate_of_identifier {t : Text} (h : t.head? ≠ some '?') : undecorate t = .ok t := by
  have hdisplay : Symbol.display { path := [t], type := .leaf {} } = .ok t := by
    rw [Symbol.display, displayWithin_of_le (callDepth_identifier t ▸ by decide),
      render_of_identifier h]
  simp only [undecorate, parse_of_identifier h, hdisplay]
  rfl

/-- The declaration of a decorated name contains no `@`. -/
lemma not_mem_of_render {t d : Text} {s : Symbol} (ht : t.head? = some '?') (h : parse t = .ok s)
    (hd : s.render = .ok d) : '@' ∉ d := by
  have hkeeps := keeps_declare (P := fun _ => True) (formed_of_parse ht h) fun _ _ _ => trivial
  exact fun hm => hkeeps.of_render_eq_ok (by decide) hd '@' hm rfl

/-- A text in which no `@` follows a leading `?` is left as it is. -/
lemma undecorate_of_free {d : Text} (h : '@' ∉ d) : undecorate d = .ok d := by
  by_cases hd : d.head? = some '?'
  · obtain ⟨why, hp⟩ := parse_of_not_mem hd h
    rw [undecorate_eq (not_tooDeep_of_unread hp), declaration?_of_unread hp]
    rfl
  · exact undecorate_of_identifier hd

/-- What a text is turned into stands for itself. -/
lemma undecorate_again {t : Text} (h : ¬ TooDeep t) :
    undecorate ((declaration? t).getD t) = .ok ((declaration? t).getD t) := by
  have hself := undecorate_eq h
  by_cases ht : t.head? = some '?'
  · rcases declaration_cases t with ⟨s, d, hs, hd, -⟩ | ⟨s, hs, hd, -⟩ | ⟨s, -, -, hyes⟩ |
      ⟨why, hs, -⟩ | ⟨hs, -⟩
    · rw [declaration?_eq_some hs hd]
      exact undecorate_of_free (not_mem_of_render ht hs (render_of_display hd))
    · rwa [declaration?_of_unwritable hs hd] at hself ⊢
    · exact absurd hyes h
    · rwa [declaration?_of_unread hs] at hself ⊢
    · rwa [declaration?_of_unread hs] at hself ⊢
  · rw [undecorate_of_identifier ht] at hself
    rw [← Except.ok.inj hself, undecorate_of_identifier ht]

/-- **Undecorating is idempotent**: every text has a declaration or stands for itself, and what it
is turned into stands for itself, unless the declaration is too deep and nothing is given out. The
declaration of a decorated name contains no `@`, and where it starts with `?` it is malformed. -/
theorem undecorate_idempotent (t : Text) :
    ((∃ u, undecorate t = .ok u ∧ undecorate u = .ok u) ∨
      TooDeep t ∧ undecorate t = .error (.writing .tooDeep)) ∧
    ∀ s d, t.head? = some '?' → parse t = .ok s → s.render = .ok d →
      '@' ∉ d ∧ (d.head? = some '?' → (∃ why, parse d = .error (.malformed why)) ∧
        undecorate d = .ok d) := by
  refine ⟨?_, fun s d ht h hr => ?_⟩
  · by_cases hdeep : TooDeep t
    · exact .inr ⟨hdeep, undecorate_of_tooDeep hdeep⟩
    · exact .inl ⟨_, undecorate_eq hdeep, undecorate_again hdeep⟩
  · have hfree := not_mem_of_render ht h hr
    exact ⟨hfree, fun hd => ⟨parse_of_not_mem hd hfree, undecorate_of_free hfree⟩⟩

theorem undecorate_idempotent_deleting :
    ∃ s, parse "??_GFoo@@UAE@XZ".toList = .ok s ∧ s.render = .ok "?_GFoo(void)".toList ∧
      undecorate "?_GFoo(void)".toList = .ok "?_GFoo(void)".toList := by
  obtain ⟨s, hs, htest⟩ := exists_of_test (t := "??_GFoo@@UAE@XZ".toList)
    (p := fun s => s.render.toOption = some "?_GFoo(void)".toList) (by decide +kernel)
  have hr := render_of_toOption (of_decide_eq_true htest)
  have hno := (undecorate_idempotent "??_GFoo@@UAE@XZ".toList).2 s _ (by decide) hs hr
  exact ⟨s, hs, hr, (hno.2 (by decide)).2⟩

end Undecorate
