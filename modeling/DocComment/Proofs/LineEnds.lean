import DocComment.Proofs.Collapse
import DocComment.Text.Lines

/-!
# Texts whose line ends are written as line feeds

Texts put together have the line ends of their parts, unless a carriage return and a line feed meet
(`unixLines_append`). How line ends are written makes no difference for words (`collapse_unixLines`).
-/

namespace DocComment.Text

variable {c : Char} {s t mark : List Char}

theorem unixLines_cons (h : c ≠ '\r') : unixLines (c :: s) = c :: unixLines s := by
  rw [unixLines]
  · rintro _ rfl
    exact absurd rfl h
  · exact h

theorem unixLines_append_of_not_mem (h : '\r' ∉ s) (t : List Char) :
    unixLines (s ++ t) = s ++ unixLines t := by
  induction s with
  | nil => rfl
  | cons c s ih =>
    obtain ⟨hc, hs⟩ := not_or.1 (mt List.mem_cons.2 h)
    rw [List.cons_append, unixLines_cons (Ne.symm hc), ih hs, List.cons_append]

theorem unixLines_of_not_mem (h : '\r' ∉ s) : unixLines s = s := by
  simpa [unixLines] using unixLines_append_of_not_mem h []

/-- A character other than a line feed starts no line end that has begun before it. -/
theorem unixLines_append (h : c ≠ '\n') (s t : List Char) :
    unixLines (s ++ c :: t) = unixLines s ++ unixLines (c :: t) := by
  fun_induction unixLines s with
  | case1 => rfl
  | case2 rest ih => rw [List.cons_append, List.cons_append, unixLines, ih, List.cons_append]
  | case3 rest hrest ih =>
    have hnext : ∀ more, rest ++ c :: t ≠ '\n' :: more := by
      intro more heq
      cases rest with
      | nil => exact h (List.cons.inj heq).1
      | cons d rest => exact hrest rest (by rw [(List.cons.inj heq).1])
    rw [List.cons_append, unixLines, ih, List.cons_append]
    exact hnext
  | case4 d rest _ hd ih => rw [List.cons_append, unixLines_cons hd, ih, List.cons_append]

theorem mem_unixLines (h : c ∈ unixLines s) : c = '\n' ∨ c ∈ s := by
  fun_induction unixLines s with
  | case1 => cases h
  | case2 rest ih =>
    rcases List.mem_cons.1 h with h | h
    · exact .inl h
    · exact (ih h).imp_right fun h => List.mem_cons_of_mem _ (List.mem_cons_of_mem _ h)
  | case3 rest _ ih =>
    rcases List.mem_cons.1 h with h | h
    · exact .inl h
    · exact (ih h).imp_right (List.mem_cons_of_mem _)
  | case4 d rest _ _ ih =>
    rcases List.mem_cons.1 h with h | h
    · exact .inr (h ▸ List.mem_cons_self ..)
    · exact (ih h).imp_right (List.mem_cons_of_mem _)

/-- A text that stands at the start of one with line feeds, and has none in it, stands there however
line ends are written. -/
theorem prefix_of_prefix_unixLines (hmark : '\n' ∉ mark) (h : mark <+: unixLines s) :
    mark <+: s := by
  have hnil {mark rest : List Char} (hmark : '\n' ∉ mark) (h : mark <+: '\n' :: rest) :
      mark = [] := by
    rcases List.prefix_cons_iff.1 h with rfl | ⟨t, rfl, -⟩
    · rfl
    · exact absurd (List.mem_cons_self ..) hmark
  fun_induction unixLines s generalizing mark with
  | case1 => exact h
  | case2 => exact hnil hmark h ▸ List.nil_prefix
  | case3 => exact hnil hmark h ▸ List.nil_prefix
  | case4 c rest _ _ ih =>
    rcases List.prefix_cons_iff.1 h with rfl | ⟨t, rfl, ht⟩
    · exact List.nil_prefix
    · obtain ⟨-, hmark⟩ := not_or.1 (mt List.mem_cons.2 hmark)
      exact List.cons_prefix_cons.2 ⟨rfl, ih hmark ht⟩

theorem infix_of_infix_unixLines (hmark : '\n' ∉ mark) (h : mark <:+: unixLines s) :
    mark <:+: s := by
  fun_induction unixLines s with
  | case1 => exact h
  | case2 rest ih =>
    rcases List.infix_cons_iff.1 h with h | h
    · exact (prefix_of_prefix_unixLines (s := '\r' :: '\n' :: rest) hmark h).isInfix
    · exact List.infix_cons (List.infix_cons (ih h))
  | case3 rest hrest ih =>
    rcases List.infix_cons_iff.1 h with h | h
    · refine (prefix_of_prefix_unixLines (s := '\r' :: rest) hmark ?_).isInfix
      rwa [unixLines]
      exact hrest
    · exact List.infix_cons (ih h)
  | case4 c rest _ hc ih =>
    rcases List.infix_cons_iff.1 h with h | h
    · refine (prefix_of_prefix_unixLines (s := c :: rest) hmark ?_).isInfix
      rwa [unixLines_cons hc]
    · exact List.infix_cons (ih h)

/-! ### Words -/

@[simp] theorem startsBlank_unixLines (s : List Char) : startsBlank (unixLines s) = startsBlank s := by
  fun_cases unixLines s with
  | case1 => rfl
  | case2 rest => rfl
  | case3 rest hrest => rfl
  | case4 c rest hc => rfl

@[simp] theorem hasWord_unixLines (s : List Char) : hasWord (unixLines s) = hasWord s := by
  fun_induction unixLines s with
  | case1 => rfl
  | case2 rest ih => exact ih
  | case3 rest _ ih => exact ih
  | case4 c rest _ _ ih => rw [hasWord_cons, hasWord_cons, ih]

theorem collapse_unixLines (s : List Char) : collapse (unixLines s) = collapse s := by
  fun_induction unixLines s with
  | case1 => rfl
  | case2 rest ih =>
    rw [collapse_cons_of_isBlank rfl, ih, collapse_cons_of_isBlank rfl, collapse_cons_of_isBlank rfl]
  | case3 rest _ ih => rw [collapse_cons_of_isBlank rfl, ih, collapse_cons_of_isBlank rfl]
  | case4 c rest _ _ ih =>
    cases hc : isBlank c with
    | true => rw [collapse_cons_of_isBlank hc, ih, collapse_cons_of_isBlank hc]
    | false =>
      rw [collapse_cons hc, collapse_cons hc, ih, seam, seam, startsBlank_unixLines,
        hasWord_unixLines]

end DocComment.Text
