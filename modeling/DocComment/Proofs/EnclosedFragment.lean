import DocComment.Proofs.FrontOfTag
import DocComment.Proofs.NormalForm

/-!
# Fragments inside an element

What a fragment is read as does not depend on the element around it: its tokens are those of a text
by itself, and its tags are balanced by themselves (`document?_between_tags`). So a fragment cannot
end the element that it is put into, and with an element around it, it is read as this element with
the content that it has without it (`Fragment.parse?_enclosed`).
-/

namespace DocComment
open Xml

namespace Xml

variable {name : String} {c : Char} {s rest : List Char}

/-! ### Tokens of an element -/

theorem tokens?_between_tags (h : IsName name) (hquiet : IsQuiet name.toList) (s : List Char) :
    tokens? (startTag name ++ (s ++ endTag name)) =
      (tokens? s).map fun ts => .startTag name [] :: (ts ++ [.endTag name]) := by
  have hslash : IsQuiet ['/'] := by decide
  have hgt : IsQuiet ['>'] := by decide
  have htag : IsQuiet ('/' :: name.toList ++ ['>']) :=
    List.forall_mem_append.2 ⟨List.forall_mem_append.2 ⟨hslash, hquiet⟩, hgt⟩
  have hinner : tokens? (s ++ endTag name) =
      (tokens? s).bind fun ts => (tokens? (endTag name)).map (ts ++ ·) := tokens?_append htag s
  rw [tokens?_of_next? (next?_startTag h), hinner, tokens?_endTag h]
  cases tokens? s <;> rfl

theorem joinText_between_tags (name name' : String) (attributes : List (String × String))
    (ts : List Token) :
    joinText (.startTag name attributes :: (ts ++ [.endTag name'])) =
      .startTag name attributes :: (joinText ts ++ [.endTag name']) := by
  have hend : StartsNoText (joinText [.endTag name']) := by
    intro t ht content
    obtain rfl := Option.some.inj ht
    exact Token.noConfusion
  rw [joinText, joinText_append ts hend]
  · rfl
  · exact fun _ => Token.noConfusion

/-! ### Elements of documents -/

/-- What is read between tags is content that is balanced by itself. -/
theorem writtenDocument?_between_tags (h : IsName name) (hquiet : IsQuiet name.toList)
    {root : Node String} :
    writtenDocument? (startTag name ++ (s ++ endTag name)) = some root ↔
      (∀ c ∈ s, isChar c) ∧ ∃ ts content, tokens? (Text.unixLines s) = some ts ∧
        Balanced (joinText ts) content ∧ Node.heightOfContent content < maxDepth ∧
        root = .element name [] content := by
  have hlines := h.unixLines_between_tags s
  have htokens := tokens?_between_tags h hquiet (Text.unixLines s)
  constructor
  · intro hread
    unfold writtenDocument? at hread
    rw [hlines, htokens] at hread
    obtain ⟨_, hs, hread⟩ := Option.bind_eq_some_iff.1 hread
    obtain ⟨all, hall, hread⟩ := Option.bind_eq_some_iff.1 hread
    obtain ⟨nodes, hnodes, hread⟩ := Option.bind_eq_some_iff.1 hread
    obtain ⟨ts, hts, hall⟩ := Option.map_eq_some_iff.1 hall
    rw [← hall, Node.ofTokens?, joinText_between_tags, ofTokensFrom?_eq_some_iff] at hnodes
    have hs : ∀ c ∈ startTag name ++ (s ++ endTag name), isChar c :=
      List.all_eq_true.1 ((Option.guard_eq_some' _).1 hs)
    have hs : ∀ c ∈ s, isChar c := fun c hc =>
      hs c (List.mem_append_right _ (List.mem_append_left _ hc))
    split at hread
    · next hroot =>
      obtain ⟨_, hheight, hread⟩ := Option.bind_eq_some_iff.1 hread
      obtain ⟨content, hbalanced, heq⟩ := hnodes.of_between_tags hroot
      rw [heq] at hheight hread
      exact ⟨hs, ts, content, hts, hbalanced, (Option.guard_eq_some' _).1 hheight,
        (Option.some.inj hread).symm⟩
    · cases hread
  · rintro ⟨hs, ts, content, hts, hbalanced, hheight, rfl⟩
    rw [← hlines, hts] at htokens
    refine writtenDocument?_of_tokens? (h.isChar_between_tags hs) htokens ?_ hheight
    rw [Node.ofTokens?, joinText_between_tags, ofTokensFrom?_eq_some_iff]
    exact .element name [] hbalanced .nil

/-- The text is well formed as the content of an element, without regard to the element: `written`
are its nodes as they are written, and `content` with their names in their namespaces. -/
structure IsContent (s : List Char) (written : List (Node String)) (content : List (Node Name)) :
    Prop where
  chars : ∀ c ∈ s, isChar c
  balanced : ∃ ts, tokens? (Text.unixLines s) = some ts ∧ Balanced (joinText ts) written
  height : Node.heightOfContent written < maxDepth
  expanded : Node.expandContent? Scope.initial written = some content
  tolerated : tolerates (Fault.reports [] (Node.faultsOfContent Scope.initial written)) = true

/-- What an element holds is what its content is by itself. -/
theorem document?_between_tags (h : IsName name) (hquiet : IsQuiet name.toList) {root : Node Name} :
    document? (startTag name ++ (s ++ endTag name)) = some root ↔
      ∃ written content, IsContent s written content ∧
        root = .element (Name.plain name) [] content := by
  unfold document?
  constructor
  · intro hread
    obtain ⟨_, hwritten, hread⟩ := Option.bind_eq_some_iff.1 hread
    obtain ⟨_, hexpanded, hread⟩ := Option.bind_eq_some_iff.1 hread
    obtain ⟨_, htolerated, hread⟩ := Option.bind_eq_some_iff.1 hread
    obtain rfl := Option.some.inj hread
    obtain ⟨hs, ts, written, hts, hbalanced, hheight, rfl⟩ :=
      (writtenDocument?_between_tags h hquiet).1 hwritten
    rw [h.expand?_element] at hexpanded
    rw [Node.reports, h.faults_element] at htolerated
    obtain ⟨content, hcontent, rfl⟩ := Option.map_eq_some_iff.1 hexpanded
    exact ⟨written, content, ⟨hs, ⟨ts, hts, hbalanced⟩, hheight, hcontent,
      (Option.guard_eq_some' _).1 htolerated⟩, rfl⟩
  · rintro ⟨written, content, ⟨hs, ⟨ts, hts, hbalanced⟩, hheight, hexpanded, htolerated⟩, rfl⟩
    have hwritten := (writtenDocument?_between_tags h hquiet).2
      ⟨hs, ts, written, hts, hbalanced, hheight, rfl⟩
    rw [hwritten]
    show ((Node.element name [] written).expand? Scope.initial).bind _ = _
    rw [h.expand?_element, hexpanded, Node.reports, h.faults_element, htolerated]
    rfl

/-- With an element around it, content is this element. -/
theorem IsContent.enclosed {written : List (Node String)} {content : List (Node Name)}
    (hcontent : IsContent s written content) (h : IsName name) (hquiet : IsQuiet name.toList)
    (hheight : Node.heightOfContent written + 1 < maxDepth) :
    IsContent (startTag name ++ (s ++ endTag name)) [.element name [] written]
      [.element (Name.plain name) [] content] := by
  obtain ⟨ts, hts, hbalanced⟩ := hcontent.balanced
  refine ⟨h.isChar_between_tags hcontent.chars, ⟨.startTag name [] :: (ts ++ [.endTag name]), ?_, ?_⟩,
    ?_, ?_, ?_⟩
  · rw [h.unixLines_between_tags, tokens?_between_tags h hquiet, hts]
    rfl
  · rw [joinText_between_tags]
    exact .element name [] hbalanced .nil
  · rw [Node.heightOfContent, Node.heightOfContent, Node.height]
    exact Nat.max_lt.2 ⟨hheight, by omega⟩
  · rw [Node.expandContent?, h.expand?_element, hcontent.expanded]
    rfl
  · rw [Node.faultsOfContent, h.faults_element, Node.faultsOfContent, List.append_nil]
    exact hcontent.tolerated

/-! ### Names of letters -/

theorem toNat_of_isAlpha (h : c.isAlpha = true) :
    (0x41 ≤ c.toNat ∧ c.toNat ≤ 0x5A) ∨ 0x61 ≤ c.toNat ∧ c.toNat ≤ 0x7A := by
  rcases Bool.or_eq_true_iff.1 h with h | h
  · obtain ⟨hlow, hhigh⟩ : c.val ≥ 'A'.val ∧ c.val ≤ 'Z'.val := of_decide_eq_true h
    exact .inl ⟨UInt32.le_iff_toNat_le.1 hlow, UInt32.le_iff_toNat_le.1 hhigh⟩
  · obtain ⟨hlow, hhigh⟩ := Bool.and_eq_true_iff.1 h
    exact .inr ⟨UInt32.le_iff_toNat_le.1 (of_decide_eq_true hlow),
      UInt32.le_iff_toNat_le.1 (of_decide_eq_true hhigh)⟩

theorem isNameStart_of_isAlpha (h : c.isAlpha = true) : isNameStart c = true := by
  have hletter := toNat_of_isAlpha h
  simp only [isNameStart, Text.inRanges, Bool.and_eq_true, Bool.or_eq_true, decide_eq_true_eq]
  omega

theorem utf8ByteSize_ofList_of_isAlpha (h : ∀ c ∈ s, c.isAlpha = true) :
    (String.ofList s).utf8ByteSize = s.length := by
  induction s with
  | nil => rfl
  | cons c s ih =>
    obtain ⟨hc, hs⟩ := List.forall_mem_cons.1 h
    have hsize : c.utf8Size = 1 := by
      have hle : c.toNat ≤ 0x7A := (toNat_of_isAlpha hc).elim (fun h => by omega) fun h => h.2
      exact Char.utf8Size_eq_one_iff.2 (UInt32.le_iff_toNat_le.2 (Nat.le_trans hle (by decide)))
    have hcons : String.ofList (c :: s) = String.singleton c ++ String.ofList s := by simp
    rw [hcons, String.utf8ByteSize_append, String.utf8ByteSize_singleton, hsize, ih hs,
      List.length_cons, Nat.add_comm]

/-- The name is made of ASCII letters. -/
structure IsLetters (name : String) : Prop where
  ne_empty : name ≠ ""
  isAlpha : ∀ c ∈ name.toList, c.isAlpha = true

namespace IsLetters

theorem start (h : IsLetters name) : name.toList.head?.any isNameStart = true := by
  obtain ⟨c, s, hname⟩ :=
    List.exists_cons_of_ne_nil fun hnil => h.ne_empty (String.toList_eq_nil_iff.1 hnil)
  have hc := h.isAlpha c (hname ▸ List.mem_cons_self ..)
  rw [hname]
  exact isNameStart_of_isAlpha hc

theorem chars (h : IsLetters name) : ∀ c ∈ name.toList, isNameChar c = true ∧ c ≠ ':' := by
  intro c hc
  refine ⟨?_, ?_⟩
  · rw [isNameChar, isNameStart_of_isAlpha (h.isAlpha c hc), Bool.true_or]
  · rintro rfl
    cases h.isAlpha ':' hc

theorem isShort_eq (h : IsLetters name) :
    isShort name.toList = decide (name.toList.length ≤ maxNameSize) := by
  have hcolon : ':' ∉ name.toList := fun hmem => (h.chars ':' hmem).2 rfl
  rw [isShort, Text.separated_of_not_mem hcolon, List.all_cons, List.all_nil, Bool.and_true,
    utf8ByteSize_ofList_of_isAlpha h.isAlpha]

theorem isName (h : IsLetters name) (hshort : name.toList.length ≤ maxNameSize) : IsName name := by
  refine ⟨h.start, h.chars, ?_⟩
  have hsize := utf8ByteSize_ofList_of_isAlpha h.isAlpha
  rw [String.ofList_toList] at hsize
  exact hsize.le.trans hshort

theorem isQuiet (h : IsLetters name) : IsQuiet name.toList := by
  have hnot : ∀ d ∈ ['"', '\'', '-', '?', ']', ';'], d.isAlpha = false := by decide
  exact fun c hc hmem => Bool.false_ne_true ((hnot c hmem).symm.trans (h.isAlpha c hc))

theorem isResolved (h : IsLetters name) : (Name.plain name).isResolved := by
  refine List.all_eq_true.2 fun c hc => ?_
  have hne (d : Char) (hd : d.isAlpha = false) : c ≠ d := by
    rintro rfl
    exact Bool.false_ne_true (hd.symm.trans (h.isAlpha c hc))
  simp [hne ':' (by decide), hne '\x7d' (by decide)]

/-- A tag is not read if its name is too long. -/
theorem next?_startTag_of_long (h : IsLetters name) (hlong : maxNameSize < name.toList.length)
    (rest : List Char) : next? (startTag name ++ rest) = none := by
  have hname : takeName? (name.toList ++ '>' :: rest) = none := by
    rw [takeName?_append_eq h.start (fun c hc => (h.chars c hc).1) (by decide), h.isShort_eq,
      decide_eq_false (Nat.not_le.2 hlong)]
    rfl
  obtain ⟨c, s, hcons, hc⟩ := exists_cons_of_start h.start
  show takeMarkup? (name.toList ++ ['>'] ++ rest) = none
  rw [List.append_assoc, List.singleton_append, hcons, List.cons_append,
    takeMarkup?_of_isNameStart hc, ← List.cons_append, ← hcons, takeTag?, hname]
  rfl

end IsLetters

end Xml

/-! ### Fragments -/

namespace Fragment

variable {raw name : String} {root : Node Name} {content : List (Node Name)}

/-- A fragment is read exactly if it is well formed as content, whatever is put around it. -/
theorem parse?_eq_some_iff :
    parse? raw = some root ↔
      ∃ written content, IsContent raw.toList written content ∧ root = Fragment.root content := by
  rw [parse?, toList_wrapped]
  exact document?_between_tags isName_rootName (by decide)

/-- The fragment with an element around it. -/
def enclosed (name raw : String) : String :=
  "<" ++ name ++ ">" ++ raw ++ "</" ++ name ++ ">"

theorem toList_enclosed (name raw : String) :
    (enclosed name raw).toList = startTag name ++ (raw.toList ++ endTag name) := by
  simp [enclosed, startTag, endTag]

theorem parse?_enclosed (hroot : parse? raw = some root) (hheight : root.height < maxDepth)
    (h : IsName name) (hquiet : IsQuiet name.toList) :
    ∃ content, root = Fragment.root content ∧
      parse? (enclosed name raw) = some (Fragment.root [.element (Name.plain name) [] content]) := by
  obtain ⟨written, content, hcontent, rfl⟩ := parse?_eq_some_iff.1 hroot
  have hheight : Node.heightOfContent written + 1 < maxDepth := by
    rw [← Node.heightOfContent_of_expandContent? hcontent.expanded]
    rwa [Fragment.root, Node.height] at hheight
  have henclosed := hcontent.enclosed h hquiet hheight
  rw [← toList_enclosed] at henclosed
  exact ⟨content, rfl, parse?_eq_some_iff.2 ⟨_, _, henclosed, rfl⟩⟩

theorem parse?_enclosed_of_long (h : IsLetters name) (hlong : maxNameSize < name.toList.length)
    (raw : String) : parse? (enclosed name raw) = none := by
  rw [Option.eq_none_iff_forall_ne_some]
  intro root hroot
  obtain ⟨_, _, hcontent, -⟩ := parse?_eq_some_iff.1 hroot
  obtain ⟨ts, hts, -⟩ := hcontent.balanced
  have hname : '\r' ∉ name.toList := fun hmem => absurd (h.chars _ hmem).1 (by decide)
  have hstart : '\r' ∉ startTag name := by simp [startTag, hname]
  rw [toList_enclosed, Text.unixLines_append_of_not_mem hstart] at hts
  have hnone : tokens? (startTag name ++ Text.unixLines (raw.toList ++ endTag name)) = none :=
    tokens?_of_next?_eq_none (List.cons_ne_nil _ _) (h.next?_startTag_of_long hlong _)
  cases hnone.symm.trans hts

/-- An element with a name of more than fifty thousand letters is refused, whatever it holds. -/
theorem parse?_enclosed_of_long_name :
    let x := String.ofList (List.replicate 50001 'a')
    IsLetters x ∧ ¬ ['x', 'm', 'l'] <+: x.toList.map Char.toLower ∧
      parse? "" = some (Fragment.root []) ∧ (Fragment.root []).height ≤ 255 ∧
      parse? (enclosed x "") = none := by
  intro x
  have hchars : x.toList = List.replicate 50001 'a' := String.toList_ofList
  have hx : IsLetters x := by
    constructor
    · intro hempty
      rw [hempty] at hchars
      cases hchars
    · intro c hc
      rw [hchars] at hc
      rw [List.eq_of_mem_replicate hc]
      decide
  refine ⟨hx, ?_, ?_, by decide, parse?_enclosed_of_long hx ?_ ""⟩
  · rw [hchars, List.map_replicate]
    intro hxml
    have hfirst := List.eq_of_mem_replicate (hxml.subset (List.mem_cons_self ..))
    revert hfirst
    decide
  · have hempty : IsContent "".toList [] [] :=
      ⟨by decide, ⟨[], tokens?_nil, .nil⟩, by decide, rfl, by decide⟩
    exact parse?_eq_some_iff.2 ⟨[], [], hempty, rfl⟩
  · rw [hchars, List.length_replicate]
    decide

end Fragment

/-! ### Runs of an element -/

namespace Formatter

variable {f : Formatter} {v : View} {raw name : String} {root : Node Name}
  {content : List (Node Name)}

/-- An element around all of a fragment leaves no trace, even if it is a paragraph: nothing comes
before it, and nothing behind it. -/
theorem nodeRuns_enclosed (v : View) (lineBreak : String) (h : ReferenceTag.ofName? name = none)
    (hname : (Name.plain name).isResolved) (content : List (Node Name)) :
    nodeRuns lineBreak v (Fragment.root [.element (Name.plain name) [] content]) =
      nodeRuns lineBreak v (Fragment.root content) := by
  have htag : ReferenceTag.ofName? (Name.plain name).localName = none := h
  rw [nodeRuns, nodeRuns, Accumulator.appendNode_root, Accumulator.appendNode_root,
    Accumulator.appendContent_eq_map, Accumulator.appendContent_eq_map,
    Node.metInContent_singleton, Node.met, htag, Accumulator.addContent, Accumulator.addContent,
    Accumulator.addNode, htag]
  dsimp only
  rw [List.forM_cons, Accumulator.tryMet_of_resolved v.referenceRuns hname]
  show Except.map _ (Except.map _ (forM (Node.metInContent content) _)) = _
  cases forM (Node.metInContent content) (Accumulator.tryMet v.referenceRuns) with
  | error e => rfl
  | ok u =>
    split
    · exact congrArg Except.ok (Accumulator.runs_endParagraph _ _)
    · rfl

theorem viewedRuns_enclosed (f : Formatter) (v : View) (h : IsLetters name)
    (htag : ReferenceTag.ofName? name = none)
    (hroot : Fragment.parse? raw = some (Fragment.root content))
    (henclosed : Fragment.parse? (Fragment.enclosed name raw) =
      some (Fragment.root [.element (Name.plain name) [] content])) :
    f.viewedRuns v (Fragment.enclosed name raw) = f.viewedRuns v raw := by
  rw [viewedRuns, viewedRuns, hroot, henclosed]
  dsimp only
  rw [nodeRuns_enclosed v f.lineBreak htag h.isResolved]

/-- A fragment cannot break out of an element that is put around it: what is read is this element
with the content of the fragment and nothing beside it. If the element is no reference, the runs are
those of the fragment. -/
theorem formatToRuns_enclosed {raw x : String} {root : Node Name}
    (hroot : Fragment.parse? raw = some root) (hheight : root.height ≤ 255) (hx : IsLetters x)
    (hshort : x.toList.length ≤ 50000) :
    ∃ content, root = Fragment.root content ∧
      Fragment.parse? (Fragment.enclosed x raw) =
        some (Fragment.root [.element (Name.plain x) [] content]) ∧
      (ReferenceTag.ofName? x = none → ∀ (f : Formatter) (model : Option SemanticModel)
        (position : Option Int) (format : Option DisplayFormat),
        f.formatToRuns (Fragment.enclosed x raw) model position format =
          f.formatToRuns raw model position format) := by
  obtain ⟨content, rfl, henclosed⟩ := Fragment.parse?_enclosed hroot
    (Nat.lt_of_le_of_lt hheight (by decide)) (hx.isName hshort) hx.isQuiet
  refine ⟨content, rfl, henclosed, fun htag f model position format => ?_⟩
  rw [formatToRuns, formatToRuns]
  exact viewedRuns_enclosed f _ hx htag hroot henclosed

theorem formatToRuns_enclosed_para :
    let f : Formatter := {}
    let raw := "a<![CDATA[</para>]]><!--</para>--> <para>b<?p </para>?></para>"
    ∃ content, Fragment.parse? raw = some (Fragment.root content) ∧
      Fragment.parse? (Fragment.enclosed "para" raw) =
        some (Fragment.root [.element (Name.plain "para") [] content]) ∧
      (f.formatToRuns (Fragment.enclosed "para" raw) none none none).map Run.textOf =
        .ok "a</para>\r\n\r\nb" := by
  intro f raw
  have hread : (Fragment.parse? raw).map (fun root =>
      (root.height, ((f.formatToRuns raw none none none).map Run.textOf).toOption)) =
      some (2, some "a</para>\r\n\r\nb") := by
    decide +kernel
  obtain ⟨root, hroot, hread⟩ := Option.map_eq_some_iff.1 hread
  obtain ⟨hheight, htext⟩ := Prod.mk.inj hread
  obtain ⟨content, rfl, henclosed, hruns⟩ := formatToRuns_enclosed (x := "para") hroot
    (hheight.le.trans (by decide)) ⟨by decide, by decide⟩ (by decide)
  refine ⟨content, hroot, henclosed, ?_⟩
  rw [hruns (by decide)]
  exact eq_ok_of_toOption htext

end Formatter

end DocComment
