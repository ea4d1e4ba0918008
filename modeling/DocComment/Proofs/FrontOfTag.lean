import Mathlib.Data.List.TakeWhile
import DocComment.Proofs.WrittenMarkup

/-!
# Markup in front of a tag

What stands in front of a tag is read as if nothing stood behind it: no reader takes the `<` of the
tag into what it reads, one lemma per reader. So the tokens of the whole are those of the part in
front and those of the tag and what follows it (`tokens?_append`). The tag must hold no character
that could end something that begins in front of it (`IsQuiet`).
-/

namespace DocComment.Xml

variable {α β : Type} {s u w mark : List Char} {c : Char}

/-- There are no quotes, and none of the marks that comments, instructions, literal sections and
references end with, before their `>`. -/
def IsQuiet (u : List Char) : Prop :=
  ∀ c ∈ u, c ∉ ['"', '\'', '-', '?', ']', ';']

instance : DecidablePred IsQuiet := fun u => by
  unfold IsQuiet
  infer_instance

/-- What has been read, with more text behind the rest. -/
def before (w : List Char) (read : α × List Char) : α × List Char :=
  (read.1, read.2 ++ w)

/-- One reader after another: if neither is changed by more text behind the rest, both together are
not. -/
theorem bind_before {x : Option (α × List Char)} {f g : α × List Char → Option (β × List Char)}
    (h : ∀ a rest, f (a, rest ++ w) = (g (a, rest)).map (before w)) :
    (x.map (before w)).bind f = (x.bind g).map (before w) := by
  cases x with
  | none => rfl
  | some read => exact h read.1 read.2

theorem bind_append {x : Option (List Char)} {f g : List Char → Option (β × List Char)}
    (h : ∀ rest, f (rest ++ w) = (g rest).map (before w)) :
    (x.map (· ++ w)).bind f = (x.bind g).map (before w) := by
  cases x with
  | none => rfl
  | some rest => exact h rest

theorem bind_guard {p : Prop} [Decidable p] {f g : Unit → Option (β × List Char)}
    (h : f () = (g ()).map (before w)) :
    (guard p : Option Unit).bind f = ((guard p : Option Unit).bind g).map (before w) := by
  cases hp : (guard p : Option Unit) with
  | none => rfl
  | some _ => exact h

/-! ### Parts of tokens -/

theorem dropWhile_append_tag (p : Char → Bool) (h : p '<' = false) :
    (s ++ '<' :: u).dropWhile p = s.dropWhile p ++ '<' :: u := by
  rw [List.dropWhile_append]
  split
  · next hs => rw [List.isEmpty_iff.1 hs, List.dropWhile_cons_of_neg (by simp [h]), List.nil_append]
  · rfl

theorem takeWhile_append_tag (p : Char → Bool) (h : p '<' = false) :
    (s ++ '<' :: u).takeWhile p = s.takeWhile p := by
  induction s with
  | nil => exact List.takeWhile_cons_of_neg (by simp [h])
  | cons c s ih => rw [List.cons_append, List.takeWhile_cons, List.takeWhile_cons, ih]

theorem skipSpace_append : skipSpace (s ++ '<' :: u) = skipSpace s ++ '<' :: u :=
  dropWhile_append_tag isSpace rfl

theorem takeChar?_append (hc : c ≠ '<') :
    takeChar? c (s ++ '<' :: u) = (takeChar? c s).map (· ++ '<' :: u) := by
  cases s with
  | nil => exact if_neg (Ne.symm hc)
  | cons d s =>
    rw [List.cons_append, takeChar?, takeChar?]
    split <;> rfl

theorem takeName?_append_tag :
    takeName? (s ++ '<' :: u) = (takeName? s).map (before ('<' :: u)) := by
  cases s with
  | nil => rfl
  | cons c s =>
    rw [List.cons_append, takeName?, takeName?, takeWhile_append_tag isNameChar rfl,
      dropWhile_append_tag isNameChar rfl]
    split <;> rfl

theorem prefix_append_tag_iff (h : '<' ∉ mark) : mark <+: s ++ '<' :: u ↔ mark <+: s := by
  induction mark generalizing s with
  | nil => simp
  | cons m mark ih =>
    obtain ⟨hm, hmark⟩ := not_or.1 (mt List.mem_cons.2 h)
    cases s with
    | nil => simpa using fun heq => absurd heq.symm hm
    | cons c s => rw [List.cons_append, List.cons_prefix_cons, List.cons_prefix_cons, ih hmark]

theorem isPrefixOf_append_tag (h : '<' ∉ mark) :
    mark.isPrefixOf (s ++ '<' :: u) = mark.isPrefixOf s := by
  rw [Bool.eq_iff_iff, List.isPrefixOf_iff_prefix, List.isPrefixOf_iff_prefix,
    prefix_append_tag_iff h]

theorem takeThrough?_of_not_mem {m : Char} (h : m ∉ s) : takeThrough? (m :: mark) s = none := by
  induction s with
  | nil => rfl
  | cons c s ih =>
    obtain ⟨hc, hs⟩ := not_or.1 (mt List.mem_cons.2 h)
    rw [takeThrough?, ih hs, if_neg (by simp [hc])]
    rfl

theorem takeThrough?_append {m : Char} (h : '<' ∉ m :: mark) (hm : m ∉ u) :
    takeThrough? (m :: mark) (s ++ '<' :: u) =
      (takeThrough? (m :: mark) s).map (before ('<' :: u)) := by
  induction s with
  | nil =>
    have hne : m ≠ '<' := fun heq => h (heq ▸ List.mem_cons_self ..)
    exact takeThrough?_of_not_mem (List.not_mem_cons_of_ne_of_not_mem hne hm)
  | cons c s ih =>
    have hprefix : (m :: mark).isPrefixOf (c :: (s ++ '<' :: u)) = (m :: mark).isPrefixOf (c :: s) :=
      isPrefixOf_append_tag (s := c :: s) h
    rw [List.cons_append, takeThrough?, takeThrough?, hprefix, ih]
    split
    · next hmark =>
      have hlength := (List.isPrefixOf_iff_prefix.1 hmark).length_le
      rw [← List.cons_append, List.drop_append_of_le_length hlength]
      rfl
    · cases takeThrough? (m :: mark) s <;> rfl

/-- The first `c` is in front of the tag, if there is one. -/
theorem dropWhile_ne_append (hc : c ≠ '<') (hu : c ∉ u) :
    (s ++ '<' :: u).dropWhile (· ≠ c) = [] ∧ s.dropWhile (· ≠ c) = [] ∨
      ∃ rest, s.dropWhile (· ≠ c) = c :: rest ∧
        (s ++ '<' :: u).dropWhile (· ≠ c) = c :: (rest ++ '<' :: u) ∧
        (s ++ '<' :: u).takeWhile (· ≠ c) = s.takeWhile (· ≠ c) := by
  induction s with
  | nil =>
    refine .inl ⟨List.dropWhile_eq_nil_iff.2 fun d hd => ?_, rfl⟩
    rcases List.mem_cons.1 hd with rfl | hd
    · simpa using Ne.symm hc
    · simpa using fun (heq : d = c) => hu (heq ▸ hd)
  | cons d s ih =>
    by_cases hd : d = c
    · refine .inr ⟨s, ?_, ?_, ?_⟩ <;> simp [hd]
    · rcases ih with ⟨hw, hs⟩ | ⟨rest, hs, hw, htake⟩
      · exact .inl ⟨by simpa [hd] using hw, by simpa [hd] using hs⟩
      · exact .inr ⟨rest, by simpa [hd] using hs, by simpa [hd] using hw, by simpa [hd] using htake⟩

theorem takeValue?_append (hu : IsQuiet u) :
    takeValue? (s ++ '<' :: u) = (takeValue? s).map (before ('<' :: u)) := by
  cases s with
  | nil => rfl
  | cons quote s =>
    rw [List.cons_append, takeValue?, takeValue?]
    split
    · next hquote =>
      have hne : quote ≠ '<' := by rcases hquote with rfl | rfl <;> decide
      have hmem : quote ∉ u := fun h => hu quote h (by rcases hquote with rfl | rfl <;> decide)
      rcases dropWhile_ne_append hne hmem with ⟨hw, hs⟩ | ⟨rest, hs, hw, htake⟩
      · rw [hw, hs]
        rfl
      · rw [hw, hs, htake]
        cases attributeValue? none (s.takeWhile (· ≠ quote)) <;> rfl
    · rfl

theorem takeReference?_append (hu : IsQuiet u) :
    takeReference? (s ++ '<' :: u) = (takeReference? s).map (before ('<' :: u)) := by
  have hmem : ';' ∉ u := fun h => hu ';' h (by decide)
  rw [takeReference?, takeReference?]
  rcases dropWhile_ne_append (by decide) hmem with ⟨hw, hs⟩ | ⟨rest, hs, hw, htake⟩
  · rw [hw, hs]
    rfl
  · rw [hw, hs, htake]
    cases entity? (s.takeWhile (· ≠ ';')) <;> rfl

theorem takeAttribute?_append (hu : IsQuiet u) :
    takeAttribute? (s ++ '<' :: u) = (takeAttribute? s).map (before ('<' :: u)) := by
  unfold takeAttribute?
  rw [takeName?_append_tag]
  refine bind_before fun name s => ?_
  dsimp only
  rw [skipSpace_append, takeChar?_append (by decide)]
  refine bind_append fun s => ?_
  rw [skipSpace_append, takeValue?_append hu]
  exact bind_before fun value s => rfl

theorem skipSpace_append_ne (hc : c ≠ '<') (h : ∀ rest, skipSpace s ≠ c :: rest)
    (rest : List Char) : skipSpace (s ++ '<' :: u) ≠ c :: rest := by
  rw [skipSpace_append]
  cases hs : skipSpace s with
  | nil => exact fun heq => hc (List.cons.inj heq).1.symm
  | cons d t => exact fun heq => h t (by rw [hs, (List.cons.inj heq).1])

theorem any_head?_append_tag (p : Char → Bool) (h : p '<' = false) :
    (s ++ '<' :: u).head?.any p = s.head?.any p := by
  cases s with
  | nil => exact h
  | cons c s => rfl

/-- Where the tag does not end, an attribute follows. -/
theorem takeAttributes?_eq (hgt : ∀ rest, skipSpace s ≠ '>' :: rest)
    (hslash : ∀ rest, skipSpace s ≠ '/' :: rest) :
    takeAttributes? s =
      if s.head?.any isSpace then
        (takeAttribute? (skipSpace s)).bind fun read =>
          (takeAttributes? read.2).map fun reads => (read.1 :: reads.1, reads.2)
      else none := by
  rw [takeAttributes?]
  split
  · next heq => exact absurd heq (hgt _)
  · next heq => exact absurd heq (hslash _)
  · split
    · split
      · next hnone => rw [hnone]; rfl
      · next hsome => rw [hsome]; rfl
    · rfl

theorem takeAttributes?_append (hu : IsQuiet u) :
    takeAttributes? (s ++ '<' :: u) = (takeAttributes? s).map (before ('<' :: u)) := by
  fun_induction takeAttributes? s with
  | case1 s rest hs =>
    rw [takeAttributes?, skipSpace_append, hs]
    rfl
  | case2 s rest hs =>
    rw [takeAttributes?, skipSpace_append, hs]
    rfl
  | case3 s hspace hnone hgt hslash =>
    rw [takeAttributes?_eq (skipSpace_append_ne (by decide) hgt)
      (skipSpace_append_ne (by decide) hslash), any_head?_append_tag isSpace rfl, if_pos hspace,
      skipSpace_append, takeAttribute?_append hu, hnone]
    rfl
  | case4 s hspace a rest ha hgt hslash ih =>
    rw [takeAttributes?_eq (skipSpace_append_ne (by decide) hgt)
      (skipSpace_append_ne (by decide) hslash), any_head?_append_tag isSpace rfl, if_pos hspace,
      skipSpace_append, takeAttribute?_append hu, ha]
    show (takeAttributes? (rest ++ '<' :: u)).map _ = _
    rw [ih]
    cases takeAttributes? rest <;> rfl
  | case5 s hspace hgt hslash =>
    rw [takeAttributes?_eq (skipSpace_append_ne (by decide) hgt)
      (skipSpace_append_ne (by decide) hslash), any_head?_append_tag isSpace rfl, if_neg hspace]
    rfl

/-! ### Tokens -/

theorem takeComment?_append (hu : IsQuiet u) :
    takeComment? (s ++ '<' :: u) = (takeComment? s).map (before ('<' :: u)) := by
  have hmark : '-' ∉ u := fun h => hu '-' h (by decide)
  unfold takeComment?
  rw [takeThrough?_append (by decide) hmark]
  refine bind_before fun content s => ?_
  dsimp only
  rw [takeChar?_append (by decide)]
  exact bind_append fun s => rfl

theorem takeLiteral?_append (hu : IsQuiet u) :
    takeLiteral? (s ++ '<' :: u) = (takeLiteral? s).map (before ('<' :: u)) := by
  have hmark : ']' ∉ u := fun h => hu ']' h (by decide)
  unfold takeLiteral?
  rw [takeThrough?_append (by decide) hmark]
  exact bind_before fun content s => rfl

theorem takeInstruction?_append (hu : IsQuiet u) :
    takeInstruction? (s ++ '<' :: u) = (takeInstruction? s).map (before ('<' :: u)) := by
  have hmark : '?' ∉ u := fun h => hu '?' h (by decide)
  unfold takeInstruction?
  rw [takeName?_append_tag]
  refine bind_before fun target s => bind_guard ?_
  dsimp only
  rw [takeThrough?_append (by decide) hmark]
  exact bind_before fun data s => bind_guard rfl

theorem takeEndTag?_append : takeEndTag? (s ++ '<' :: u) = (takeEndTag? s).map (before ('<' :: u)) := by
  unfold takeEndTag?
  rw [takeName?_append_tag]
  refine bind_before fun name s => ?_
  dsimp only
  rw [skipSpace_append, takeChar?_append (by decide)]
  exact bind_append fun s => rfl

theorem takeTag?_append (hu : IsQuiet u) :
    takeTag? (s ++ '<' :: u) = (takeTag? s).map (before ('<' :: u)) := by
  unfold takeTag?
  rw [takeName?_append_tag]
  refine bind_before fun name s => ?_
  dsimp only
  rw [takeAttributes?_append hu]
  refine bind_before fun attributes s => ?_
  cases s with
  | nil => rfl
  | cons c s =>
    by_cases hgt : c = '>'
    · subst hgt
      rfl
    · by_cases hslash : c = '/'
      · subst hslash
        cases s with
        | nil => rfl
        | cons d s =>
          by_cases hd : d = '>'
          · subst hd
            rfl
          · simp [hd]
      · simp [hgt, hslash]

theorem takeMarkup?_append (hu : IsQuiet u) :
    takeMarkup? (s ++ '<' :: u) = (takeMarkup? s).map (before ('<' :: u)) := by
  generalize hw : s ++ '<' :: u = w
  have hprefix (mark : List Char) (h : '<' ∉ mark) {rest : List Char} (hrest : w = mark ++ rest) :
      ∃ t, s = mark ++ t ∧ rest = t ++ '<' :: u := by
    obtain ⟨t, rfl⟩ := (prefix_append_tag_iff h).1 ⟨rest, hrest.symm.trans hw.symm⟩
    rw [List.append_assoc, hrest] at hw
    exact ⟨t, rfl, (List.append_cancel_left hw).symm⟩
  fun_cases takeMarkup? w with
  | case1 rest =>
    obtain ⟨t, rfl, rfl⟩ := hprefix ['!', '-', '-'] (by decide) rfl
    exact takeComment?_append hu
  | case2 rest =>
    obtain ⟨t, rfl, rfl⟩ := hprefix ['!', '[', 'C', 'D', 'A', 'T', 'A', '['] (by decide) rfl
    exact takeLiteral?_append hu
  | case3 rest =>
    obtain ⟨t, rfl, rfl⟩ := hprefix ['?'] (by decide) rfl
    exact takeInstruction?_append hu
  | case4 rest =>
    obtain ⟨t, rfl, rfl⟩ := hprefix ['/'] (by decide) rfl
    exact takeEndTag?_append
  | case5 _ hcomment hliteral hinstruction hend =>
    subst hw
    have hmarkup : takeMarkup? s = takeTag? s := by
      unfold takeMarkup?
      split
      · exact absurd rfl (hcomment _)
      · exact absurd rfl (hliteral _)
      · exact absurd rfl (hinstruction _)
      · exact absurd rfl (hend _)
      · rfl
    rw [hmarkup]
    exact takeTag?_append hu

theorem next?_append (hu : IsQuiet u) (hs : s ≠ []) :
    next? (s ++ '<' :: u) = (next? s).map (before ('<' :: u)) := by
  obtain ⟨c, s, rfl⟩ := List.exists_cons_of_ne_nil hs
  by_cases hlt : c = '<'
  · subst hlt
    exact takeMarkup?_append hu
  by_cases hamp : c = '&'
  · subst hamp
    show (takeReference? (s ++ '<' :: u)).map _ = ((takeReference? s).map _).map _
    rw [takeReference?_append hu]
    cases takeReference? s <;> rfl
  · have hend : [']', ']', '>'].isPrefixOf (c :: s ++ '<' :: u) = [']', ']', '>'].isPrefixOf (c :: s) :=
      isPrefixOf_append_tag (by decide)
    rw [List.cons_append, next?_of_ne hlt hamp, next?_of_ne hlt hamp, ← List.cons_append, hend]
    split <;> rfl

/-- The tokens of what stands in front of a tag are read as if nothing followed. -/
theorem tokens?_append (hu : IsQuiet u) (s : List Char) :
    tokens? (s ++ '<' :: u) =
      (tokens? s).bind fun ts => (tokens? ('<' :: u)).map (ts ++ ·) := by
  fun_induction tokens? s with
  | case1 => cases h : tokens? ('<' :: u) <;> simp [h]
  | case2 s hs hnone =>
    have hnext := next?_append hu hs
    rw [hnone] at hnext
    exact tokens?_of_next?_eq_none (by simp) hnext
  | case3 s hs t rest hnext ih =>
    have hnext' := next?_append hu hs
    rw [hnext] at hnext'
    rw [tokens?_of_next? hnext', ih]
    cases tokens? rest with
    | none => rfl
    | some ts => cases tokens? ('<' :: u) <;> rfl

end DocComment.Xml
