import DocComment.Proofs.TypeExpression

/-!
# Names in any script

The segments of a name are words, and words are written in all scripts. But a segment is only read
as one where it starts with a letter from `A` to `Z`, in either case, or with a low line. Any other
character at its start is a token by itself, and a dot in front of it is another one.
`runs_eq_singleton_iff`: so a name is shown by its last segment alone exactly if each segment starts
in such a way, or the whole name is one character.
-/

namespace DocComment

/-- A segment of the name of a type: a word of some script, perhaps with an arity. -/
structure WordSegment where
  first : Char
  rest : List Char := []
  arity : Option Arity.Written := none
  isWord_first : Text.isWord first = true := by decide
  isWord : ∀ c ∈ rest, Text.isWord c = true := by decide

namespace WordSegment

def identifier (g : WordSegment) : List Char :=
  g.first :: g.rest

def written (g : WordSegment) : List Char :=
  g.identifier ++ (g.arity.map Arity.Written.text).getD []

/-- Whether the segment starts like the segments that are read as one. -/
def StartsName (g : WordSegment) : Prop :=
  TypeName.isNameStart g.first = true

end WordSegment

/-- A dotted name of words. -/
structure WordName where
  outer : List WordSegment := []
  last : WordSegment

namespace WordName

def segments (n : WordName) : List WordSegment :=
  n.outer ++ [n.last]

def written (n : WordName) : List Char :=
  ['.'].intercalate (n.segments.map WordSegment.written)

end WordName

/-! ### Tokens and their runs -/

namespace TypeName

variable {c d : Char} {s t : List Char}

theorem Token.runs_ne_nil (t : Token) : t.runs ≠ [] := by
  unfold Token.runs
  split
  · exact List.cons_ne_nil _ _
  · exact List.cons_ne_nil _ _
  · exact List.cons_ne_nil _ _
  · split <;> exact List.cons_ne_nil _ _
  · split_ifs <;> exact List.cons_ne_nil _ _

/-- There are no fewer runs than tokens. -/
theorem length_tokens_le (s : List Char) : (tokens s).length ≤ (shownRuns s).length := by
  rw [shownRuns]
  induction tokens s with
  | nil => exact Nat.le_refl 0
  | cons t ts ih =>
    have hpos := List.length_pos_iff.2 t.runs_ne_nil
    rw [List.flatMap_cons, List.length_append, List.length_cons]
    omega

theorem tokens_cons (h : Text.isBlank c = false) (s : List Char) :
    tokens (c :: s) = (takeToken c s).1 :: tokens (takeToken c s).2 := by
  rw [tokens, h, if_neg Bool.false_ne_true]

/-- What follows a token is read on, so there is another token. -/
theorem one_lt_length_tokens (hc : Text.isBlank c = false) (hne : (takeToken c s).2 ≠ [])
    (hs : ∀ d ∈ (takeToken c s).2, Text.isBlank d = false) : 1 < (tokens (c :: s)).length := by
  obtain ⟨d, rest, hd⟩ := List.exists_cons_of_ne_nil hne
  rw [tokens_cons hc, hd, tokens_cons (hs d (hd ▸ List.mem_cons_self ..))]
  simp

/-- All of a text is read as one name only if every dot in it has the start of a segment behind
it. -/
theorem isNameStart_of_takeName_eq_nil (h : (takeName s).2 = []) {front back : List Char}
    (hs : s = front ++ '.' :: c :: back) : isNameStart c = true := by
  fun_induction takeName s generalizing front with
  | case1 => simp at hs
  | case2 d hd =>
    have hlength := congrArg List.length hs
    simp only [List.length_append, List.length_cons, List.length_nil] at hlength
    omega
  | case3 d hd => cases h
  | case4 d e rest hd ih =>
    cases front with
    | nil =>
      obtain rfl := (List.cons.inj hs).1
      exact absurd hd (by decide)
    | cons d' front => exact ih h (List.cons.inj hs).2
  | case5 d e rest hd he ih =>
    cases front with
    | nil =>
      obtain ⟨-, hrest⟩ := List.cons.inj hs
      exact (List.cons.inj hrest).1 ▸ he.2
    | cons d' front =>
      obtain ⟨-, hrest⟩ := List.cons.inj hs
      cases front with
      | nil =>
        obtain rfl := (List.cons.inj hrest).1
        exact absurd he.2 (by decide)
      | cons e' front => exact ih h (List.cons.inj hrest).2
  | case6 d e rest hd he => cases h

theorem suffix_takeName (s : List Char) : (takeName s).2 <:+ s := by
  fun_induction takeName s with
  | case1 => exact List.suffix_refl _
  | case2 c hc => exact List.nil_suffix
  | case3 c hc => exact List.suffix_refl _
  | case4 c d rest hc ih => exact ih.trans (List.suffix_cons ..)
  | case5 c d rest hc hd ih => exact ih.trans ((List.suffix_cons ..).trans (List.suffix_cons ..))
  | case6 c d rest hc hd => exact List.suffix_refl _

theorem isBlank_of_isNameChar (h : isNameChar c = true) : Text.isBlank c = false :=
  (isInert_iff.1 (isInert_of_isNameChar h)).1

theorem ne_of_isWord (hc : Text.isWord c = true) (hd : Text.isWord d = false) : c ≠ d := by
  rintro rfl
  exact Bool.false_ne_true (hd.symm.trans hc)

/-- A character of a word that no name starts with is a token by itself. -/
theorem takeToken_of_isWord (hword : Text.isWord c = true) (h : isNameStart c = false)
    (s : List Char) : takeToken c s = (.other c, s) := by
  have hopen : c ≠ '[' := ne_of_isWord hword (by decide)
  have hmark : c ≠ Arity.mark := ne_of_isWord hword (by decide)
  unfold takeToken
  dsimp only
  rw [if_neg fun hc => hopen hc.1, if_neg fun hc => hmark hc.1, if_neg fun hc => hmark hc.1, h,
    if_neg Bool.false_ne_true]

/-- It is shown as it is. -/
theorem runs_other_of_isWord (h : Text.isWord c = true) :
    (Token.other c).runs = [⟨.typeName, String.ofList [c]⟩] := by
  have hnot (d : Char) (hd : Text.isWord d = false) : d ∉ [c] :=
    fun hmem => ne_of_isWord h hd (List.mem_singleton.1 hmem).symm
  have hname : simpleName [c] = String.ofList [c] := by
    rw [simpleName, Text.separated_of_not_mem (hnot '.' (by decide))]
    exact congrArg String.ofList (Arity.strip_eq_self (hnot Arity.mark (by decide)))
  have hsigns : ∀ d ∈ [',', '[', '\x7b', '\x7d', '*', Arity.mark], c ≠ d :=
    fun d hd => ne_of_isWord h (by revert d; decide)
  simp only [List.mem_cons, List.not_mem_nil, or_false, forall_eq_or_imp, forall_eq] at hsigns
  obtain ⟨hcomma, hbracket, hopen, hclose, hstar, hmark⟩ := hsigns
  rw [Token.runs, if_neg hcomma, if_neg hbracket, if_neg hopen, if_neg hclose, if_neg hstar,
    if_neg hmark, hname]

end TypeName

/-! ### Names -/

namespace WordSegment

variable (g : WordSegment)

theorem isNameChar_of_mem_written {c : Char} (hc : c ∈ g.written) : TypeName.isNameChar c = true := by
  rw [written, List.mem_append, identifier, List.mem_cons] at hc
  rcases hc with (rfl | hc) | hc
  · exact TypeName.isNameChar_of_isWord g.isWord_first
  · exact TypeName.isNameChar_of_isWord (g.isWord c hc)
  · cases ha : g.arity with
    | none => rw [ha] at hc; cases hc
    | some a =>
      rw [ha] at hc
      exact TypeName.isNameChar_of_mem_text a hc

/-- A segment that starts in the right way is one of those that are read as one. -/
def toTypeSegment (h : g.StartsName) : TypeSegment where
  first := g.first
  rest := g.rest
  arity := g.arity
  isNameStart := h
  isWord := g.isWord

end WordSegment

namespace WordName
open DocComment.TypeName

/-- A segment is at the start of the name, or there is a dot in front of it. -/
theorem first_or_behind_dot {segments : List WordSegment} {g : WordSegment} (hg : g ∈ segments) :
    (∃ back, ['.'].intercalate (segments.map WordSegment.written) = g.first :: back) ∨
      ∃ front back,
        ['.'].intercalate (segments.map WordSegment.written) = front ++ '.' :: g.first :: back := by
  induction segments with
  | nil => exact absurd hg List.not_mem_nil
  | cons first segments ih =>
    cases segments with
    | nil =>
      obtain rfl := List.mem_singleton.1 hg
      exact .inl ⟨_, List.intercalate_singleton ..⟩
    | cons next segments =>
      rw [List.map_cons, List.map_cons, List.intercalate_cons_cons]
      rw [List.map_cons] at ih
      rcases List.mem_cons.1 hg with rfl | hg
      · exact .inl ⟨_, rfl⟩
      · right
        rcases ih hg with ⟨back, hback⟩ | ⟨front, back, hback⟩
        · exact ⟨first.written, back, by simp [hback]⟩
        · exact ⟨first.written ++ '.' :: front, back, by simp [hback]⟩

variable (n : WordName)

theorem exists_first : ∃ g ∈ n.segments, ∃ rest, n.written = g.first :: rest := by
  obtain ⟨g, segments, h⟩ := List.exists_cons_of_ne_nil
    (show n.segments ≠ [] from List.concat_ne_nil n.last n.outer)
  refine ⟨g, h ▸ List.mem_cons_self .., ?_⟩
  rw [written, h, List.map_cons]
  cases segments with
  | nil => exact ⟨_, List.intercalate_singleton ..⟩
  | cons next segments =>
    rw [List.map_cons, List.intercalate_cons_cons]
    exact ⟨_, rfl⟩

theorem isNameChar_of_mem_written {c : Char} (hc : c ∈ n.written) (hdot : c ≠ '.') :
    isNameChar c = true := by
  rcases Text.eq_or_mem_of_mem_intercalate hc with heq | ⟨part, hpart, hc⟩
  · exact absurd heq hdot
  · obtain ⟨g, -, rfl⟩ := List.mem_map.1 hpart
    exact g.isNameChar_of_mem_written hc

theorem isBlank_of_mem_written {c : Char} (hc : c ∈ n.written) : Text.isBlank c = false := by
  by_cases hdot : c = '.'
  · rw [hdot]
    decide
  · exact isBlank_of_isNameChar (n.isNameChar_of_mem_written hc hdot)

theorem runs_eq_shownRuns : runs (String.ofList n.written) = shownRuns n.written := by
  have hlast : n.written.getLast? ≠ some '@' := by
    intro h
    have hname := n.isNameChar_of_mem_written (List.mem_of_getLast? h) (by decide)
    revert hname
    decide
  rw [runs, String.toList_ofList, if_neg hlast]
  rfl

/-- A name whose segments all start in the right way. -/
def toQualifiedName (h : ∀ g ∈ n.segments, g.StartsName) : QualifiedName where
  outer := n.outer.pmap (fun g hg => g.toTypeSegment hg) fun g hg => h g (List.mem_append_left _ hg)
  last := n.last.toTypeSegment (h _ (List.mem_append_right _ (List.mem_singleton_self _)))

theorem written_toQualifiedName (h : ∀ g ∈ n.segments, g.StartsName) :
    (n.toQualifiedName h).written = n.written := by
  have hsegment (g : WordSegment) (hg : g.StartsName) :
      (g.toTypeSegment hg).written = g.written := rfl
  rw [QualifiedName.written, toQualifiedName, List.map_append, List.map_pmap]
  simp only [hsegment, List.pmap_eq_map]
  rw [written, segments, List.map_append]
  rfl

theorem shownRuns_of_startsName (h : ∀ g ∈ n.segments, g.StartsName)
    (hkeyword : keywords.lookup (String.ofList n.written) = none) :
    shownRuns n.written = [⟨.typeName, String.ofList n.last.identifier⟩] := by
  have hshown := (n.toQualifiedName h).shownRuns_written nameEnds_nil
  rw [List.append_nil, n.written_toQualifiedName, shownRuns_nil, QualifiedName.run,
    n.written_toQualifiedName, hkeyword] at hshown
  exact hshown

/-- A segment that starts otherwise is cut off from what is in front of it or behind it. -/
theorem one_lt_length_shownRuns {g : WordSegment} (hg : g ∈ n.segments) (hstart : ¬ g.StartsName)
    (hlength : n.written.length ≠ 1) : 1 < (shownRuns n.written).length := by
  refine Nat.lt_of_lt_of_le ?_ (length_tokens_le n.written)
  have hblank : ∀ c ∈ n.written, Text.isBlank c = false := fun c hc => n.isBlank_of_mem_written hc
  obtain ⟨first, -, rest, hrest⟩ := n.exists_first
  by_cases hfirst : isNameStart first.first = true
  · have hname : takeName n.written = (first.first :: (takeName rest).1, (takeName rest).2) := by
      rw [hrest, takeName_cons (isNameChar_of_isNameStart hfirst)]
    have hne : (takeName rest).2 ≠ [] := by
      intro hnil
      -- `g` is not the first segment, so its dot is in the name that was read
      rcases first_or_behind_dot hg with ⟨back, hback⟩ | ⟨front, back, hback⟩
      · obtain ⟨hsame, -⟩ := List.cons.inj (hrest.symm.trans hback)
        exact hstart (show isNameStart g.first = true from hsame ▸ hfirst)
      · exact hstart (isNameStart_of_takeName_eq_nil ((congrArg Prod.snd hname).trans hnil) hback)
    rw [hrest] at hblank ⊢
    have htoken := takeToken_name hfirst rest
    refine one_lt_length_tokens (hblank _ (List.mem_cons_self ..)) ?_ ?_
    · rw [htoken]
      exact hne
    · rw [htoken]
      exact fun d hd => hblank d (List.mem_cons_of_mem _ ((suffix_takeName rest).subset hd))
  · rw [Bool.not_eq_true] at hfirst
    have hne : rest ≠ [] := by
      rintro rfl
      exact hlength (by rw [hrest]; rfl)
    rw [hrest] at hblank ⊢
    have htoken := takeToken_of_isWord first.isWord_first hfirst rest
    refine one_lt_length_tokens (hblank _ (List.mem_cons_self ..)) ?_ ?_
    · rw [htoken]
      exact hne
    · rw [htoken]
      exact fun d hd => hblank d (List.mem_cons_of_mem _ hd)

/-- A name of one character has no other segment, and no arity. -/
theorem eq_singleton_of_length (h : n.written.length = 1) :
    n.segments = [n.last] ∧ n.written = [n.last.first] ∧ n.last.identifier = [n.last.first] := by
  cases houter : n.outer with
  | nil =>
    have hsegments : n.segments = [n.last] := by rw [segments, houter]; rfl
    have hwritten : n.written = n.last.first :: (n.last.rest ++
        (n.last.arity.map Arity.Written.text).getD []) := by
      rw [written, hsegments, List.map_singleton, List.intercalate_singleton]
      rfl
    rw [hwritten, List.length_cons, Nat.add_eq_right, List.length_eq_zero_iff] at h
    rw [h] at hwritten
    refine ⟨hsegments, hwritten, ?_⟩
    rw [WordSegment.identifier, (List.append_eq_nil_iff.1 h).1]
  | cons g outer =>
    -- there is a first segment, and behind it a dot
    have hdot : 1 < n.written.length := by
      obtain ⟨next, rest, hrest⟩ := List.exists_cons_of_ne_nil (List.concat_ne_nil n.last outer)
      rw [written, segments, houter, List.cons_append, hrest, List.map_cons, List.map_cons,
        List.intercalate_cons_cons, WordSegment.written, WordSegment.identifier]
      simp only [List.length_append, List.length_cons]
      omega
    omega

theorem shownRuns_of_length (h : n.written.length = 1)
    (hkeyword : keywords.lookup (String.ofList n.written) = none) :
    shownRuns n.written = [⟨.typeName, String.ofList n.last.identifier⟩] := by
  obtain ⟨hsegments, hwritten, hidentifier⟩ := n.eq_singleton_of_length h
  by_cases hstart : n.last.StartsName
  · refine n.shownRuns_of_startsName (fun g hg => ?_) hkeyword
    rw [hsegments, List.mem_singleton] at hg
    exact hg ▸ hstart
  · have hword := n.last.isWord_first
    rw [hwritten, hidentifier, shownRuns_cons (Text.isBlank_of_isWord hword),
      takeToken_of_isWord hword (Bool.not_eq_true _ ▸ hstart), shownRuns_nil,
      runs_other_of_isWord hword]
    rfl

/-- A name that is no keyword's is shown by its last segment without its arity, and nothing else,
exactly if each of its segments starts with a letter from `A` to `Z`, in either case, or a low line,
or the name is a single character. Any other name is shown by several runs. -/
theorem runs_eq_singleton_iff (h : keywords.lookup (String.ofList n.written) = none) :
    (TypeName.runs (String.ofList n.written) = [⟨.typeName, String.ofList n.last.identifier⟩] ↔
      (∀ g ∈ n.segments, g.StartsName) ∨ n.written.length = 1) ∧
    (¬ ((∀ g ∈ n.segments, g.StartsName) ∨ n.written.length = 1) →
      1 < (TypeName.runs (String.ofList n.written)).length) := by
  rw [n.runs_eq_shownRuns]
  have hseveral (hnot : ¬ ((∀ g ∈ n.segments, g.StartsName) ∨ n.written.length = 1)) :
      1 < (shownRuns n.written).length := by
    obtain ⟨hstart, hlength⟩ := not_or.1 hnot
    simp only [Classical.not_forall] at hstart
    obtain ⟨g, hg, hstart⟩ := hstart
    exact n.one_lt_length_shownRuns hg hstart hlength
  refine ⟨⟨fun hone => ?_, ?_⟩, hseveral⟩
  · by_contra hnot
    have hlength := hseveral hnot
    rw [hone] at hlength
    exact Nat.lt_irrefl 1 hlength
  · rintro (hstart | hlength)
    · exact n.shownRuns_of_startsName hstart h
    · exact n.shownRuns_of_length hlength h

theorem runs_eq_singleton_accents_inside :
    let n : WordName := {
      outer := [{ first := 'M', rest := "y".toList }]
      last := { first := 'G', rest := "röße".toList, arity := some { digits := ['1'] } } }
    keywords.lookup (String.ofList n.written) = none ∧ String.ofList n.written = "My.Größe\x601" ∧
      TypeName.runs "My.Größe\x601" = [⟨.typeName, "Größe"⟩] := by
  intro n
  have hkeyword : keywords.lookup (String.ofList n.written) = none := by decide
  have hwritten : String.ofList n.written = "My.Größe\x601" := by decide
  have hstart : ∀ g ∈ n.segments, g.StartsName := by
    unfold WordSegment.StartsName
    decide
  have hruns := (n.runs_eq_singleton_iff hkeyword).1.2 (.inl hstart)
  rw [hwritten] at hruns
  exact ⟨hkeyword, hwritten, hruns⟩

/-- Where the last segment starts with an accent, the first letter is cut off, and the dot in front
of it is shown by no character. -/
theorem runs_of_accented_start :
    let n : WordName := {
      outer := [{ first := 'M', rest := "y".toList }]
      last := { first := 'É', rest := "cran".toList } }
    keywords.lookup (String.ofList n.written) = none ∧ String.ofList n.written = "My.Écran" ∧
      String.ofList n.last.identifier = "Écran" ∧
      TypeName.runs (String.ofList n.written) =
        [⟨.typeName, "My"⟩, ⟨.typeName, ""⟩, ⟨.typeName, "É"⟩, ⟨.typeName, "cran"⟩] ∧
      TypeName.runs (String.ofList n.written) ≠ [⟨.typeName, String.ofList n.last.identifier⟩] := by
  decide +kernel

end WordName

end DocComment
