import DocComment.Symbol.Arity

/-!
# Names with an arity

Stripping takes an arity off the name that it is written behind (`strip_append`), and nothing off a
name without marks (`strip_eq_self`).
-/

namespace DocComment.Arity

/-- An arity as it is written: one mark, or two for a method, and digits. -/
structure Written where
  double : Bool := false
  digits : List Char
  digits_ne_nil : digits ≠ [] := by decide
  isDigit : ∀ c ∈ digits, Text.isDigit c = true := by decide

def Written.text (a : Written) : List Char :=
  (if a.double then [mark, mark] else [mark]) ++ a.digits

variable {s : List Char}

theorem Written.mem_text (a : Written) {c : Char} (hc : c ∈ a.text) :
    c = mark ∨ Text.isDigit c = true := by
  rw [text, List.mem_append] at hc
  rcases hc with hc | hc
  · split at hc
    · simp only [List.mem_cons, List.not_mem_nil, or_false, or_self] at hc
      exact .inl hc
    · exact .inl (List.mem_singleton.1 hc)
  · exact .inr (a.isDigit c hc)

theorem isDigit_mark : Text.isDigit mark = false := by decide

theorem stripReversed_eq_self (h : mark ∉ s) : stripReversed s = s := by
  unfold stripReversed
  split
  · next c rest _ hdrop =>
    have hc : c ≠ mark := by
      rintro rfl
      have hmem : mark ∈ s.dropWhile Text.isDigit := hdrop ▸ List.mem_cons_self ..
      exact h ((List.dropWhile_suffix Text.isDigit).subset hmem)
    exact if_neg hc
  · rfl

theorem strip_eq_self (h : mark ∉ s) : strip s = s := by
  have hreverse : mark ∉ s.reverse := by simpa using h
  unfold strip
  split
  · next rest hs =>
    rw [hs] at hreverse
    rw [stripReversed_eq_self fun hmem => hreverse (List.mem_cons_of_mem _ hmem),
      ← List.reverse_cons, ← hs, List.reverse_reverse]
  · rw [stripReversed_eq_self hreverse, List.reverse_reverse]

theorem stripReversed_append (a : Written) (rest : List Char) :
    stripReversed (a.digits.reverse ++ mark :: rest) =
      match rest with
      | d :: rest' => if d = mark then rest' else rest
      | [] => [] := by
  have hdigits : ∀ c ∈ a.digits.reverse, Text.isDigit c = true :=
    fun c hc => a.isDigit c (List.mem_reverse.1 hc)
  have htake : (a.digits.reverse ++ mark :: rest).takeWhile Text.isDigit = a.digits.reverse := by
    rw [List.takeWhile_append_of_pos hdigits, List.takeWhile_cons_of_neg (by simp [isDigit_mark]),
      List.append_nil]
  have hdrop : (a.digits.reverse ++ mark :: rest).dropWhile Text.isDigit = mark :: rest := by
    rw [List.dropWhile_append_of_pos hdigits, List.dropWhile_cons_of_neg (by simp [isDigit_mark])]
  obtain ⟨d, ds, hd⟩ := List.exists_cons_of_ne_nil (List.reverse_ne_nil_iff.2 a.digits_ne_nil)
  unfold stripReversed
  rw [htake, hdrop, hd]
  exact if_pos rfl

theorem strip_append (h : mark ∉ s) (a : Written) : strip (s ++ a.text) = s := by
  have hlast : ∀ rest, (s ++ a.text).reverse ≠ '\n' :: rest := by
    intro rest hrest
    obtain ⟨d, ds, hd⟩ := List.exists_cons_of_ne_nil (List.reverse_ne_nil_iff.2 a.digits_ne_nil)
    have hdigit : Text.isDigit d = true :=
      a.isDigit d (List.mem_reverse.1 (hd ▸ List.mem_cons_self ..))
    rw [Written.text, List.reverse_append, List.reverse_append, hd] at hrest
    obtain rfl := (List.cons.inj hrest).1
    revert hdigit
    decide
  have hstrip : strip (s ++ a.text) = (stripReversed (s ++ a.text).reverse).reverse := by
    unfold strip
    split
    · next rest hrest => exact absurd hrest (hlast rest)
    · rfl
  have hmark : ∀ d rest, s.reverse = d :: rest → d ≠ mark := by
    rintro d rest hs rfl
    exact h (List.mem_reverse.1 (hs ▸ List.mem_cons_self ..))
  rw [hstrip, Written.text]
  cases a.double with
  | true =>
    have hreverse : (s ++ ([mark, mark] ++ a.digits)).reverse =
        a.digits.reverse ++ mark :: mark :: s.reverse := by simp
    rw [if_pos rfl, hreverse, stripReversed_append]
    exact (congrArg List.reverse (if_pos rfl)).trans (List.reverse_reverse s)
  | false =>
    have hreverse : (s ++ ([mark] ++ a.digits)).reverse = a.digits.reverse ++ mark :: s.reverse := by
      simp
    rw [if_neg Bool.false_ne_true, hreverse, stripReversed_append]
    cases hs : s.reverse with
    | nil => exact (List.reverse_eq_nil_iff.1 hs).symm
    | cons d rest =>
      dsimp only
      rw [if_neg (hmark d rest hs), ← hs, List.reverse_reverse]

theorem strip_append_getD (h : mark ∉ s) (a : Option Written) :
    strip (s ++ (a.map Written.text).getD []) = s := by
  cases a with
  | none =>
    rw [Option.map_none, Option.getD_none, List.append_nil]
    exact strip_eq_self h
  | some a => exact strip_append h a

theorem stripped_eq_self {name : String} (h : mark ∉ name.toList) : stripped name = name := by
  rw [stripped, strip_eq_self h, String.ofList_toList]

end DocComment.Arity
