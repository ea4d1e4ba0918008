import DocComment.Proofs.FrontOfTag
import DocComment.Proofs.NormalForm
import DocComment.Proofs.Spaced

/-!
# Plain texts

A comment without markup is read as one text, whether or not its characters are escaped
(`parse?_escaped`, `parse?_of_plain`). Formatting writes its words with single spaces between them
and does nothing else (`formatToString_plain`).
-/

namespace DocComment
open Xml

/-! ### Reading plain texts -/

namespace Xml

theorem unixLines_escaped (s : List Char) :
    Text.unixLines (escaped s) = escaped (Text.unixLines s) := by
  fun_induction Text.unixLines s with
  | case1 => rfl
  | case2 rest ih =>
    show Text.unixLines ('\r' :: '\n' :: escaped rest) = '\n' :: escaped (Text.unixLines rest)
    rw [Text.unixLines, ih]
  | case3 rest hrest ih =>
    have hnext : ∀ more, escaped rest ≠ '\n' :: more := by
      intro more heq
      cases rest with
      | nil => cases heq
      | cons d rest =>
        rw [escaped, List.flatMap_cons] at heq
        unfold escapedChar at heq
        split at heq
        · cases heq
        · cases heq
        · cases heq
        · exact hrest rest (by rw [(List.cons.inj heq).1])
    show Text.unixLines ('\r' :: escaped rest) = '\n' :: escaped (Text.unixLines rest)
    rw [Text.unixLines, ih]
    exact hnext
  | case4 c rest _ hc ih =>
    have hchar : '\r' ∉ escapedChar c := by
      unfold escapedChar
      split
      · decide
      · decide
      · decide
      · exact List.not_mem_cons_of_ne_of_not_mem (Ne.symm hc) List.not_mem_nil
    rw [escaped, List.flatMap_cons, Text.unixLines_append_of_not_mem hchar, ← escaped, ih, escaped,
      escaped, List.flatMap_cons]

/-- What is read in a document depends on its characters and on its tokens only. -/
theorem document?_congr {s t : List Char} (hs : ∀ c ∈ s, isChar c) (ht : ∀ c ∈ t, isChar c)
    (h : tokens? (Text.unixLines s) = tokens? (Text.unixLines t)) : document? s = document? t := by
  rw [document?, document?, writtenDocument?, writtenDocument?, List.all_eq_true.2 hs,
    List.all_eq_true.2 ht, h]

/-- A text without markup in front of a tag is read as it is, character by character. -/
theorem tokens?_of_plain {s rest : List Char} {ts : List Token} (hlt : '<' ∉ s) (hamp : '&' ∉ s)
    (hend : ¬ [']', ']', '>'] <:+: s) (h : tokens? ('<' :: rest) = some ts) :
    tokens? (s ++ '<' :: rest) = some (s.map (fun c => .text [c]) ++ ts) := by
  induction s with
  | nil => exact h
  | cons c s ih =>
    obtain ⟨hclt, hlt⟩ := not_or.1 (mt List.mem_cons.2 hlt)
    obtain ⟨hcamp, hamp⟩ := not_or.1 (mt List.mem_cons.2 hamp)
    have hprefix : [']', ']', '>'].isPrefixOf (c :: s ++ '<' :: rest) = false := by
      rw [isPrefixOf_append_tag (by decide), ← Bool.not_eq_true, List.isPrefixOf_iff_prefix]
      exact fun h => hend h.isInfix
    refine tokens?_eq_cons ?_ (ih hlt hamp fun h => hend (List.infix_cons h))
    rw [List.cons_append, next?_of_ne (Ne.symm hclt) (Ne.symm hcamp), ← List.cons_append, hprefix]
    rfl

end Xml

/-! ### Comments that are one text -/

namespace Fragment

variable {ν : Type} {raw : String} {s : List Char}

/-- The content that is one text, or nothing where the text is empty. -/
def ofText (s : List Char) : List (Node ν) :=
  if s = [] then [] else [.text (String.ofList s)]

theorem plainContent_ofText (s : List Char) : Node.PlainContent (ofText s) := by
  unfold ofText
  split
  · trivial
  · next hs =>
    rw [Node.PlainContent, Node.Plain]
    exact ⟨fun h => hs (by simpa using congrArg String.toList h), fun _ _ h => (by cases h), trivial⟩

theorem writtenContent_ofText (s : List Char) : Node.writtenContent (ofText s) = escaped s := by
  unfold ofText
  split
  · next hs => rw [hs]; rfl
  · rw [Node.writtenContent, Node.written, Node.writtenContent, List.append_nil, String.toList_ofList]

theorem eq_of_mem_textsOfContent_ofText {t : String}
    (h : t ∈ Node.textsOfContent (ofText s : List (Node ν))) : t = String.ofList s := by
  unfold ofText at h
  split at h
  · cases h
  · exact List.mem_singleton.1 h

theorem heightOfContent_ofText (s : List Char) :
    Node.heightOfContent (ofText s : List (Node ν)) = 0 := by
  unfold ofText
  split <;> rfl

theorem plainNamedContent_ofText (s : List Char) : Node.plainNamedContent (ofText s) = ofText s := by
  unfold ofText
  split <;> rfl

/-- A comment with the tokens of an escaped text is read as the text. -/
theorem parse?_of_tokens? (hs : ∀ c ∈ s, isChar c) (hraw : ∀ c ∈ raw.toList, isChar c)
    (h : tokens? (Text.unixLines raw.toList ++ endTag rootName) =
      tokens? (escaped (Text.unixLines s) ++ endTag rootName)) :
    parse? raw = some (root (ofText (Text.unixLines s))) := by
  have hunix : ∀ c ∈ Text.unixLines s, IsUnixChar c := fun c hc =>
    ⟨isChar_of_mem_unixLines hs c hc, fun heq => Text.not_mem_unixLines s (heq ▸ hc)⟩
  have hescaped : ∀ c ∈ escaped (Text.unixLines s), isChar c :=
    forall_mem_escaped (by decide) fun c hc _ => (hunix c hc).1
  have hplain : (Node.element rootName [] (ofText (Text.unixLines s))).Plain :=
    ⟨isName_rootName, rfl, plainContent_ofText _⟩
  have hwritten : (Node.element rootName [] (ofText (Text.unixLines s))).written =
      startTag rootName ++ (escaped (Text.unixLines s) ++ endTag rootName) := by
    rw [Node.written, writtenContent_ofText]
  have hread : document? (startTag rootName ++ (escaped (Text.unixLines s) ++ endTag rootName)) =
      some (root (ofText (Text.unixLines s))) := by
    rw [← hwritten, document?_written hplain ?_ ?_, Node.plainNamed, plainNamedContent_ofText, root]
    · intro t ht
      rw [eq_of_mem_textsOfContent_ofText ht, String.toList_ofList]
      exact hunix
    · rw [Node.height, heightOfContent_ofText]
      decide
  have hname := isName_rootName
  rw [parse?, toList_wrapped, ← hread]
  refine document?_congr (hname.isChar_between_tags hraw) (hname.isChar_between_tags hescaped) ?_
  rw [hname.unixLines_between_tags, hname.unixLines_between_tags, unixLines_escaped,
    Text.unixLines_of_not_mem (Text.not_mem_unixLines s),
    tokens?_of_next? (next?_startTag hname), h,
    tokens?_of_next? (next?_startTag hname)]

theorem parse?_escaped (hs : ∀ c ∈ s, isChar c) :
    parse? (String.ofList (escaped s)) = some (root (ofText (Text.unixLines s))) := by
  refine parse?_of_tokens? hs ?_ ?_
  · rw [String.toList_ofList]
    exact forall_mem_escaped (by decide) fun c hc _ => hs c hc
  · rw [String.toList_ofList, unixLines_escaped]

theorem parse?_of_plain (hs : ∀ c ∈ s, isChar c) (hlt : '<' ∉ s) (hamp : '&' ∉ s)
    (hend : ¬ [']', ']', '>'] <:+: s) :
    parse? (String.ofList s) = some (root (ofText (Text.unixLines s))) := by
  have hnot {c : Char} (hc : c ≠ '\n') (h : c ∉ s) : c ∉ Text.unixLines s := fun hmem =>
    (Text.mem_unixLines hmem).elim hc h
  have htag := tokens?_endTag isName_rootName
  refine parse?_of_tokens? hs (by rwa [String.toList_ofList]) ?_
  rw [String.toList_ofList]
  exact (tokens?_of_plain (hnot (by decide) hlt) (hnot (by decide) hamp)
    (fun h => hend (Text.infix_of_infix_unixLines (by decide) h)) htag).trans
      (tokens?_escaped _ htag).symm

end Fragment

/-! ### Formatting plain texts -/

theorem Accumulator.textOf_appendTextNode (lineBreak content : String) :
    Run.textOf (appendTextNode { lineBreak } content).runs =
      String.ofList (Text.collapse content.toList) := by
  rw [runs_appendTextNode]
  cases hword : Text.hasWord content.toList with
  | false =>
    rw [Text.collapse_of_hasWord_eq_false hword]
    rfl
  | true =>
    have hspaced (spaced : Bool) :
        (spacedIf { lineBreak } (spaced && !atBeginning { lineBreak })).separator = [] := by
      cases spaced <;> rfl
    rw [if_pos rfl, hspaced]
    exact Run.textOf_singleton _

namespace Formatter

variable {f : Formatter} {table : Option SymbolTable} {raw : String} {s : List Char}

/-- A comment that is one text comes out as the words of the text. -/
theorem formatToString_of_parse? (h : Fragment.parse? raw = some (Fragment.root (Fragment.ofText s))) :
    f.formatToString raw table = .ok (String.ofList (Text.collapse s)) := by
  by_cases hs : s = []
  · have hcontent : Fragment.ofText s = ([] : List (Node Name)) := if_pos hs
    rw [hcontent] at h
    have hviewed : f.viewedRuns (f.view table) raw = .ok [] :=
      viewedRuns_eq_ok_iff.2 ⟨_, h, by decide, rfl⟩
    rw [formatToString, hviewed, hs]
    rfl
  · have hcontent : Fragment.ofText s = ([.text (String.ofList s)] : List (Node Name)) := if_neg hs
    rw [hcontent] at h
    have hviewed : f.viewedRuns (f.view table) raw =
        .ok (Accumulator.appendTextNode { lineBreak := f.lineBreak } (String.ofList s)).runs :=
      viewedRuns_eq_ok_iff.2 ⟨_, h, fun name hname => by
        obtain rfl := List.mem_singleton.1 hname
        decide, rfl⟩
    rw [formatToString, hviewed]
    show Except.ok (Run.textOf _) = _
    rw [Accumulator.textOf_appendTextNode, String.toList_ofList]

/-- Plain text comes out as its words with single spaces between them, whether it is escaped or
stands as it is. So formatting it again changes nothing, and only single spaces keep the words of a
text apart that does not change. -/
theorem formatToString_plain (f : Formatter) (table : Option SymbolTable) {s : String}
    (h : ∀ c ∈ s.toList, isChar c) :
    let escape (t : String) := String.ofList (escaped t.toList)
    let joined := String.ofList ([' '].intercalate ((s.toList.splitOnP Text.isBlank).filter (· ≠ [])))
    f.formatToString (escape s) table = .ok joined ∧
      ('<' ∉ s.toList → '&' ∉ s.toList → ¬ [']', ']', '>'] <:+: s.toList →
        f.formatToString s table = .ok joined) ∧
      f.formatToString (escape joined) table = .ok joined ∧
      (f.formatToString (escape s) table = .ok s ↔ Text.Spaced [[' ']] s.toList) := by
  intro escape joined
  have hjoined : joined = String.ofList (Text.collapse s.toList) :=
    congrArg (fun words => String.ofList ([' '].intercalate words))
      (Text.words_eq_filter_splitOnP s.toList).symm
  have hescaped {t : String} (ht : ∀ c ∈ t.toList, isChar c) :
      f.formatToString (escape t) table = .ok (String.ofList (Text.collapse t.toList)) := by
    rw [formatToString_of_parse? (Fragment.parse?_escaped ht), Text.collapse_unixLines]
  rw [hjoined]
  refine ⟨hescaped h, fun hlt hamp hend => ?_, ?_, ?_⟩
  · have hparse := Fragment.parse?_of_plain h hlt hamp hend
    rw [String.ofList_toList] at hparse
    rw [formatToString_of_parse? hparse, Text.collapse_unixLines]
  · have hchars : ∀ c ∈ (String.ofList (Text.collapse s.toList)).toList, isChar c := by
      rw [String.toList_ofList]
      intro c hc
      rcases Text.mem_collapse hc with rfl | ⟨hc, -⟩
      · decide
      · exact h c hc
    rw [hescaped hchars, String.toList_ofList, Text.collapse_collapse]
  · rw [hescaped h, ← Text.collapse_eq_self_iff]
    constructor
    · exact fun heq => by simpa using congrArg String.toList (Except.ok.inj heq)
    · exact fun heq => by rw [heq, String.ofList_toList]

theorem formatToString_plain_lines :
    let f : Formatter := { lineBreak := "|" }
    let s := "\u0085a \r\n b > c\u3000"
    (∀ c ∈ s.toList, isChar c) ∧
      f.formatToString "\u0085a \r\n b &gt; c\u3000" none = .ok "a b > c" ∧
      f.formatToString s none = .ok "a b > c" ∧
      f.formatToString "a b &gt; c" none = .ok "a b > c" ∧ ¬ Text.Spaced [[' ']] s.toList := by
  intro f s
  have hchars : ∀ c ∈ s.toList, isChar c := by decide
  obtain ⟨hescaped, hplain, hagain, hfixed⟩ := formatToString_plain f none hchars
  have hescape : String.ofList (escaped s.toList) = "\u0085a \r\n b &gt; c\u3000" := by decide
  have hjoined : String.ofList ([' '].intercalate
      ((s.toList.splitOnP Text.isBlank).filter (· ≠ []))) = "a b > c" := by decide
  have hescape' : String.ofList (escaped "a b > c".toList) = "a b &gt; c" := by decide
  dsimp only at hescaped hagain hfixed
  rw [hescape, hjoined] at hescaped
  rw [hjoined] at hplain
  rw [hjoined, hescape'] at hagain
  rw [hescape, hescaped] at hfixed
  refine ⟨hchars, hescaped, hplain (by decide) (by decide) (by decide), hagain, fun hspaced => ?_⟩
  have heq := Except.ok.inj (hfixed.2 hspaced)
  revert heq
  decide

end Formatter

end DocComment
