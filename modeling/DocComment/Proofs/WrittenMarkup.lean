import DocComment.Xml.Token

/-!
# Markup in writing

What tags and texts look like in markup, and how they are read back: a tag as one token
(`next?_startTag`, `next?_endTag`), and a text in front of a tag as one token for each of its
characters (`tokens?_escaped`).
-/

namespace DocComment.Xml

variable {name : String} {c d : Char} {s rest : List Char} {t : Token} {ts : List Token}

/-! ### Tags -/

/-- A name without a colon, and not too long. -/
structure IsName (name : String) : Prop where
  start : name.toList.head?.any isNameStart = true
  chars : ∀ c ∈ name.toList, isNameChar c = true ∧ c ≠ ':'
  short : name.utf8ByteSize ≤ maxNameSize

/-- The start tag of a name, without attributes. -/
def startTag (name : String) : List Char :=
  '<' :: name.toList ++ ['>']

def endTag (name : String) : List Char :=
  '<' :: '/' :: name.toList ++ ['>']

theorem exists_cons_of_start (h : name.toList.head?.any isNameStart = true) :
    ∃ c s, name.toList = c :: s ∧ isNameStart c = true := by
  cases hname : name.toList with
  | nil => rw [hname] at h; cases h
  | cons c s =>
    rw [hname] at h
    exact ⟨c, s, rfl, by simpa using h⟩

namespace IsName

theorem exists_cons (h : IsName name) : ∃ c s, name.toList = c :: s ∧ isNameStart c = true :=
  exists_cons_of_start h.start

theorem separated_eq (h : IsName name) : Text.separated ':' name.toList = [name.toList] :=
  Text.separated_of_not_mem fun hmem => (h.chars ':' hmem).2 rfl

theorem isShort (h : IsName name) : isShort name.toList = true := by
  rw [Xml.isShort, h.separated_eq]
  simpa using h.short

end IsName

/-- A name is read up to the first character that no name has, unless it is too long. -/
theorem takeName?_append_eq (hstart : name.toList.head?.any isNameStart = true)
    (hchars : ∀ c ∈ name.toList, isNameChar c = true) (hd : isNameChar d = false) :
    takeName? (name.toList ++ d :: rest) =
      if isShort name.toList then some (name, d :: rest) else none := by
  obtain ⟨c, s, hname, hc⟩ := exists_cons_of_start hstart
  rw [hname] at hchars
  have hs : ∀ d ∈ s, isNameChar d = true := fun d hmem => hchars d (List.mem_cons_of_mem c hmem)
  have htake : (s ++ d :: rest).takeWhile isNameChar = s := by
    rw [List.takeWhile_append_of_pos hs, List.takeWhile_cons_of_neg (by simp [hd]), List.append_nil]
  have hdrop : (s ++ d :: rest).dropWhile isNameChar = d :: rest := by
    rw [List.dropWhile_append_of_pos hs, List.dropWhile_cons_of_neg (by simp [hd])]
  rw [hname, List.cons_append, takeName?, htake, hdrop, hc, Bool.true_and, ← hname,
    String.ofList_toList]

theorem takeName?_append (h : IsName name) (hd : isNameChar d = false) :
    takeName? (name.toList ++ d :: rest) = some (name, d :: rest) := by
  rw [takeName?_append_eq h.start (fun c hc => (h.chars c hc).1) hd, if_pos h.isShort]

theorem takeMarkup?_of_isNameStart (h : isNameStart c = true) :
    takeMarkup? (c :: s) = takeTag? (c :: s) := by
  have hne (d : Char) (hd : isNameStart d = false) : c ≠ d := by
    rintro rfl
    exact Bool.false_ne_true (hd.symm.trans h)
  unfold takeMarkup?
  split
  · next heq => exact absurd (List.cons.inj heq).1 (hne '!' (by decide))
  · next heq => exact absurd (List.cons.inj heq).1 (hne '!' (by decide))
  · next heq => exact absurd (List.cons.inj heq).1 (hne '?' (by decide))
  · next heq => exact absurd (List.cons.inj heq).1 (hne '/' (by decide))
  · rfl

theorem next?_startTag (h : IsName name) :
    next? (startTag name ++ rest) = some (.startTag name [], rest) := by
  obtain ⟨c, s, hname, hc⟩ := h.exists_cons
  have hread : takeName? (name.toList ++ '>' :: rest) = some (name, '>' :: rest) :=
    takeName?_append h (by decide)
  have hnone : takeAttributes? ('>' :: rest) = some ([], '>' :: rest) := by
    rw [takeAttributes?]
    rfl
  have htag : takeTag? (name.toList ++ '>' :: rest) = some (.startTag name [], rest) := by
    unfold takeTag?
    rw [hread]
    show (takeAttributes? ('>' :: rest)).bind _ = _
    rw [hnone]
    rfl
  show takeMarkup? (name.toList ++ ['>'] ++ rest) = _
  rw [List.append_assoc, List.singleton_append, hname, List.cons_append,
    takeMarkup?_of_isNameStart hc, ← List.cons_append, ← hname, htag]

theorem next?_endTag (h : IsName name) :
    next? (endTag name ++ rest) = some (.endTag name, rest) := by
  have hread : takeName? (name.toList ++ '>' :: rest) = some (name, '>' :: rest) :=
    takeName?_append h (by decide)
  show takeEndTag? (name.toList ++ ['>'] ++ rest) = _
  rw [List.append_assoc, List.singleton_append, takeEndTag?, hread]
  rfl

/-- A character that markup gives no meaning stands for itself. -/
theorem next?_of_ne (hlt : c ≠ '<') (hamp : c ≠ '&') (rest : List Char) :
    next? (c :: rest) =
      if [']', ']', '>'].isPrefixOf (c :: rest) then none else some (.text [c], rest) := by
  unfold next?
  split
  · next heq => cases heq
  · next heq => exact absurd (List.cons.inj heq).1 hlt
  · next heq => exact absurd (List.cons.inj heq).1 hamp
  · next heq =>
    obtain ⟨rfl, rfl⟩ := List.cons.inj heq
    rfl

theorem tokens?_nil : tokens? [] = some [] := by
  rw [tokens?]
  rfl

theorem tokens?_of_next? (h : next? s = some (t, rest)) :
    tokens? s = (tokens? rest).map (t :: ·) := by
  have hne : s ≠ [] := by
    rintro rfl
    cases h
  rw [tokens?, if_neg hne]
  split
  · next hnone => cases h.symm.trans hnone
  · next hsome =>
    obtain ⟨rfl, rfl⟩ := Prod.mk.inj (Option.some.inj (h.symm.trans hsome))
    rfl

theorem tokens?_of_next?_eq_none (hs : s ≠ []) (h : next? s = none) : tokens? s = none := by
  rw [tokens?, if_neg hs]
  split
  · rfl
  · next hsome => cases h.symm.trans hsome

theorem tokens?_eq_cons (h : next? s = some (t, rest)) (hrest : tokens? rest = some ts) :
    tokens? s = some (t :: ts) := by
  rw [tokens?_of_next? h, hrest]
  rfl

theorem tokens?_endTag (h : IsName name) : tokens? (endTag name) = some [.endTag name] := by
  have hnext : next? (endTag name ++ []) = some (.endTag name, []) := next?_endTag h
  rw [List.append_nil] at hnext
  exact tokens?_eq_cons hnext tokens?_nil

/-! ### Texts -/

/-- A character in a text, as a reference if markup gives it a meaning. -/
def escapedChar : Char → List Char
  | '&' => ['&', 'a', 'm', 'p', ';']
  | '<' => ['&', 'l', 't', ';']
  | '>' => ['&', 'g', 't', ';']
  | c => [c]

/-- A text as it stands in markup. -/
def escaped (s : List Char) : List Char :=
  s.flatMap escapedChar

theorem forall_mem_escaped {p : Char → Prop} (href : ∀ c ∈ "&;ampltg".toList, p c)
    (h : ∀ c ∈ s, c ≠ '>' → p c) : ∀ c ∈ escaped s, p c := by
  intro d hd
  obtain ⟨c, hc, hd⟩ := List.mem_flatMap.1 hd
  have hamp : ['&', 'a', 'm', 'p', ';'] ⊆ "&;ampltg".toList := by decide
  have hlt : ['&', 'l', 't', ';'] ⊆ "&;ampltg".toList := by decide
  have hgt : ['&', 'g', 't', ';'] ⊆ "&;ampltg".toList := by decide
  unfold escapedChar at hd
  split at hd
  · exact href d (hamp hd)
  · exact href d (hlt hd)
  · exact href d (hgt hd)
  · next hgt =>
    obtain rfl := List.mem_singleton.1 hd
    exact h d hc hgt

theorem not_mem_escaped : '>' ∉ escaped s := fun h =>
  forall_mem_escaped (p := (· ≠ '>')) (by decide) (fun _ _ hne => hne) '>' h rfl

/-- Escaped text in front of a tag does not hold the end of a literal section. -/
theorem isPrefixOf_escaped (h : '>' ∉ s) :
    [']', ']', '>'].isPrefixOf (s ++ '<' :: rest) = false := by
  match s with
  | [] => rfl
  | [c] => simp [List.isPrefixOf]
  | [c, d] => simp [List.isPrefixOf]
  | c :: d :: e :: s =>
    have he : '>' ≠ e := by
      rintro rfl
      exact h (by simp)
    simp [List.isPrefixOf, he]

theorem next?_escapedChar (c : Char) (s : List Char) :
    next? (escapedChar c ++ (escaped s ++ '<' :: rest)) =
      some (.text [c], escaped s ++ '<' :: rest) := by
  unfold escapedChar
  split
  · rfl
  · rfl
  · rfl
  · next hamp hlt hgt =>
    have hend : [']', ']', '>'].isPrefixOf (c :: escaped s ++ '<' :: rest) = false :=
      isPrefixOf_escaped (List.not_mem_cons_of_ne_of_not_mem (Ne.symm hgt) not_mem_escaped)
    rw [List.singleton_append, next?_of_ne hlt hamp, ← List.cons_append, hend]
    rfl

/-- A text in front of a tag is read as it was, character by character. -/
theorem tokens?_escaped (s : List Char) (h : tokens? ('<' :: rest) = some ts) :
    tokens? (escaped s ++ '<' :: rest) = some (s.map (fun c => .text [c]) ++ ts) := by
  induction s with
  | nil => exact h
  | cons c s ih =>
    have hescaped : escaped (c :: s) ++ '<' :: rest =
        escapedChar c ++ (escaped s ++ '<' :: rest) := by
      rw [escaped, List.flatMap_cons, List.append_assoc]
      rfl
    rw [hescaped]
    exact tokens?_eq_cons (next?_escapedChar c s) ih

end DocComment.Xml
