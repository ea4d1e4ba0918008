import DocComment.Proofs.CharClass
import DocComment.Proofs.DocumentChar
import DocComment.Proofs.WrittenTree

/-!
# Documents in writing

A document that is written down from a plain tree is read as this tree (`document?_written`): its
characters may stand in documents, and there is nothing to report about its names.
-/

namespace DocComment.Xml

/-! ### Characters -/

theorem isChar_of_isNameChar {c : Char} (h : isNameChar c = true) : isChar c = true := by
  have hchars : ([(0x9, 0xA), (0xD, 0xD), (0x20, 0xD7FF), (0xE000, 0xFFFD), (0x10000, 0x10FFFF)] :
      List (Nat × Nat)).Pairwise (·.1 ≤ ·.1) := by decide
  rw [isNameChar, Bool.or_eq_true] at h
  rcases h with h | h
  · exact Text.inRanges_of_covers (by decide) hchars (by decide) h
  · exact Text.inRanges_of_covers (by decide) hchars (by decide) h

/-- Whether the character may stand in a document whose line ends are line feeds. -/
def IsUnixChar (c : Char) : Prop :=
  isChar c = true ∧ c ≠ '\r'

theorem isUnixChar_of_isNameChar {c : Char} (h : isNameChar c = true) : IsUnixChar c := by
  refine ⟨isChar_of_isNameChar h, ?_⟩
  rintro rfl
  cases h

theorem isUnixChar_of_mem_marks : ∀ c ∈ ['<', '/', '>'], IsUnixChar c := by
  unfold IsUnixChar
  decide

namespace IsName

variable {name : String} {s : List Char}

theorem isUnixChar (h : IsName name) : ∀ c ∈ name.toList, IsUnixChar c :=
  fun c hc => isUnixChar_of_isNameChar (h.chars c hc).1

theorem isUnixChar_startTag (h : IsName name) : ∀ c ∈ startTag name, IsUnixChar c := by
  have hlt := isUnixChar_of_mem_marks '<' (by decide)
  have hgt := isUnixChar_of_mem_marks '>' (by decide)
  exact List.forall_mem_append.2 ⟨List.forall_mem_cons.2 ⟨hlt, h.isUnixChar⟩,
    List.forall_mem_singleton.2 hgt⟩

theorem isUnixChar_endTag (h : IsName name) : ∀ c ∈ endTag name, IsUnixChar c := by
  have hlt := isUnixChar_of_mem_marks '<' (by decide)
  have hslash := isUnixChar_of_mem_marks '/' (by decide)
  have hgt := isUnixChar_of_mem_marks '>' (by decide)
  exact List.forall_mem_append.2 ⟨List.forall_mem_cons.2 ⟨hlt,
    List.forall_mem_cons.2 ⟨hslash, h.isUnixChar⟩⟩, List.forall_mem_singleton.2 hgt⟩

theorem isChar_between_tags (h : IsName name) (hs : ∀ c ∈ s, isChar c) :
    ∀ c ∈ startTag name ++ (s ++ endTag name), isChar c :=
  List.forall_mem_append.2 ⟨fun c hc => (h.isUnixChar_startTag c hc).1,
    List.forall_mem_append.2 ⟨hs, fun c hc => (h.isUnixChar_endTag c hc).1⟩⟩

/-- The tags around a text leave its line ends as they are. -/
theorem unixLines_between_tags (h : IsName name) (s : List Char) :
    Text.unixLines (startTag name ++ (s ++ endTag name)) =
      startTag name ++ (Text.unixLines s ++ endTag name) := by
  have hstart : '\r' ∉ startTag name := fun hmem => (h.isUnixChar_startTag _ hmem).2 rfl
  have hend : '\r' ∉ endTag name := fun hmem => (h.isUnixChar_endTag _ hmem).2 rfl
  have hinner : Text.unixLines (s ++ endTag name) = Text.unixLines s ++ Text.unixLines (endTag name) :=
    Text.unixLines_append (by decide) ..
  rw [Text.unixLines_append_of_not_mem hstart, hinner, Text.unixLines_of_not_mem hend]

end IsName

namespace Node

mutual

theorem isUnixChar_written : (n : Node String) → n.Plain →
    (∀ content ∈ n.texts, ∀ c ∈ content.toList, IsUnixChar c) → ∀ c ∈ n.written, IsUnixChar c
  | .text content, _, htexts => by
    rw [texts] at htexts
    rw [written]
    refine forall_mem_escaped ?_ fun c hc _ => htexts content (List.mem_singleton_self _) c hc
    unfold IsUnixChar
    decide
  | .comment _, hplain, _ => by simp [Plain] at hplain
  | .instruction _ _, hplain, _ => by simp [Plain] at hplain
  | .element name attributes content, hplain, htexts => by
    rw [Plain] at hplain
    rw [texts] at htexts
    have hcontent := isUnixChar_writtenContent content hplain.2.2 htexts
    rw [written]
    exact List.forall_mem_append.2 ⟨hplain.1.isUnixChar_startTag,
      List.forall_mem_append.2 ⟨hcontent, hplain.1.isUnixChar_endTag⟩⟩

theorem isUnixChar_writtenContent : (ns : List (Node String)) → PlainContent ns →
    (∀ content ∈ textsOfContent ns, ∀ c ∈ content.toList, IsUnixChar c) →
      ∀ c ∈ writtenContent ns, IsUnixChar c
  | [], _, _ => by simp [writtenContent]
  | n :: ns, hplain, htexts => by
    rw [PlainContent] at hplain
    rw [textsOfContent] at htexts
    have hn := isUnixChar_written n hplain.1 fun content hmem =>
      htexts content (List.mem_append_left _ hmem)
    have hns := isUnixChar_writtenContent ns hplain.2.2 fun content hmem =>
      htexts content (List.mem_append_right _ hmem)
    rw [writtenContent]
    exact List.forall_mem_append.2 ⟨hn, hns⟩

end

end Node

/-! ### Names -/

theorem IsName.ofString_eq {name : String} (h : IsName name) :
    WrittenName.ofString name = ⟨none, name⟩ := by
  rw [WrittenName.ofString, h.separated_eq]

theorem IsName.isProper {name : String} (h : IsName name) :
    (WrittenName.ofString name).isProper = true := by
  rw [h.ofString_eq, WrittenName.isProper]
  obtain ⟨c, s, hname, hc⟩ := h.exists_cons
  have hchars := h.chars
  rw [hname] at hchars
  have hs : ∀ d ∈ s, isNameChar d = true := fun d hd => (hchars d (List.mem_cons_of_mem _ hd)).1
  have hcolon : ':' ∉ c :: s := fun hmem => (hchars ':' hmem).2 rfl
  show WrittenName.isPart name.toList = true
  rw [hname, WrittenName.isPart, hc, List.all_eq_true.2 hs]
  simpa using hcolon

theorem Scope.inside_nil (scope : Scope) : scope.inside (writtenAttributes []) = scope := rfl

/-- An element without attributes declares nothing, so its content is what it is without it. -/
theorem IsName.expand?_element {name : String} (h : IsName name) (content : List (Node String)) :
    (Node.element name [] content).expand? Scope.initial =
      (Node.expandContent? Scope.initial content).map (Node.element (Name.plain name) []) := by
  rw [Node.expand?, h.ofString_eq, Scope.inside_nil]
  cases Node.expandContent? Scope.initial content <;> rfl

theorem IsName.faults_element {name : String} (h : IsName name) (content : List (Node String)) :
    (Node.element name [] content).faults Scope.initial =
      Node.faultsOfContent Scope.initial content := by
  have htag : Fault.ofTag Scope.initial name [] = [] := by
    rw [Fault.ofTag, h.isProper, h.ofString_eq, Scope.inside_nil]
    rfl
  rw [Node.faults, htag, Scope.inside_nil, List.nil_append]

namespace Node

mutual

theorem expand?_plain : (n : Node String) → n.Plain → n.expand? Scope.initial = some n.plainNamed
  | .text content, _ => by rw [expand?, plainNamed]
  | .comment _, hplain => by simp [Plain] at hplain
  | .instruction _ _, hplain => by simp [Plain] at hplain
  | .element name attributes content, hplain => by
    rw [Plain] at hplain
    obtain ⟨hname, rfl, hcontent⟩ := hplain
    rw [hname.expand?_element, expandContent?_plain content hcontent, plainNamed]
    rfl

theorem expandContent?_plain : (ns : List (Node String)) → PlainContent ns →
    expandContent? Scope.initial ns = some (plainNamedContent ns)
  | [], _ => by rw [expandContent?, plainNamedContent]
  | n :: ns, hplain => by
    rw [PlainContent] at hplain
    rw [expandContent?, plainNamedContent, expand?_plain n hplain.1,
      expandContent?_plain ns hplain.2.2]
    rfl

end

mutual

theorem faults_plain : (n : Node String) → n.Plain → n.faults Scope.initial = []
  | .text content, _ => by rw [faults]
  | .comment _, hplain => by simp [Plain] at hplain
  | .instruction _ _, hplain => by simp [Plain] at hplain
  | .element name attributes content, hplain => by
    rw [Plain] at hplain
    obtain ⟨hname, rfl, hcontent⟩ := hplain
    rw [hname.faults_element, faultsOfContent_plain content hcontent]

theorem faultsOfContent_plain : (ns : List (Node String)) → PlainContent ns →
    faultsOfContent Scope.initial ns = []
  | [], _ => by rw [faultsOfContent]
  | n :: ns, hplain => by
    rw [PlainContent] at hplain
    rw [faultsOfContent, faults_plain n hplain.1, faultsOfContent_plain ns hplain.2.2]
    rfl

end

end Node

/-! ### Documents -/

section
variable {name : String} {content : List (Node String)}

/-- The element of a document is the only node that its tokens stand for. -/
theorem writtenDocument?_of_tokens? {s : List Char} {ts : List Token}
    (hs : ∀ c ∈ s, isChar c) (hts : tokens? (Text.unixLines s) = some ts)
    (hnodes : Node.ofTokens? ts = some [.element name [] content])
    (hheight : (Node.element name [] content).height ≤ maxDepth) :
    writtenDocument? s = some (.element name [] content) := by
  have hguard : (guard ((Node.element name [] content).height ≤ maxDepth) : Option Unit) = some () :=
    (Option.guard_eq_some' _).2 hheight
  rw [writtenDocument?, List.all_eq_true.2 hs, hts]
  show (Node.ofTokens? ts).bind _ = _
  rw [hnodes]
  show Option.bind (guard ((Node.element name [] content).height ≤ maxDepth)) _ = _
  rw [hguard]
  rfl

theorem writtenDocument?_written (h : (Node.element name [] content).Plain)
    (hchars : ∀ t ∈ Node.textsOfContent content, ∀ c ∈ t.toList, IsUnixChar c)
    (hheight : (Node.element name [] content).height ≤ maxDepth) :
    writtenDocument? (Node.element name [] content).written = some (.element name [] content) := by
  have hunix := Node.isUnixChar_written _ h (by rwa [Node.texts])
  have hlines : Text.unixLines (Node.element name [] content).written =
      (Node.element name [] content).written :=
    Text.unixLines_of_not_mem fun hmem => (hunix _ hmem).2 rfl
  have htokens := Node.tokens?_written tokens?_nil _ h fun htext => by cases htext
  rw [List.append_nil, List.append_nil, ← hlines] at htokens
  exact writtenDocument?_of_tokens? (fun c hc => (hunix c hc).1) htokens (Node.ofTokens?_tokens h)
    hheight

theorem document?_written (h : (Node.element name [] content).Plain)
    (hchars : ∀ t ∈ Node.textsOfContent content, ∀ c ∈ t.toList, IsUnixChar c)
    (hheight : (Node.element name [] content).height ≤ maxDepth) :
    document? (Node.element name [] content).written =
      some (Node.element name [] content).plainNamed := by
  have hreports : (Node.element name [] content).reports Scope.initial = [] := by
    rw [Node.reports, Node.faults_plain _ h]
    rfl
  rw [document?, writtenDocument?_written h hchars hheight]
  show ((Node.element name [] content).expand? Scope.initial).bind _ = _
  rw [Node.expand?_plain _ h, hreports]
  rfl

end

end DocComment.Xml
