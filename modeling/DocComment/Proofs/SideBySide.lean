import DocComment.Proofs.Walk

/-!
# Paragraphs side by side

A comment that is nothing but paragraphs has the runs of its paragraphs, each formatted by itself,
with a paragraph break between those that have any (`nodeRuns_paragraphs`). What ends the walk over
one of them ends the walk over all. A paragraph behind others meets an accumulator with a break
waiting, and what it adds is what it adds to a fresh one (`Behind`).
-/

namespace DocComment
open Xml

/-! ### Fragments of paragraphs -/

namespace Fragment

/-- The element that holds a fragment with the given content. -/
def root (content : List (Node Name)) : Node Name :=
  .element (Name.plain rootName) [] content

theorem unresolved?_root (content : List (Node Name)) :
    (root content).unresolved? = Node.unresolvedInContent? content :=
  Node.unresolved?_element (by decide) (by decide) [] content

/-- The content is paragraphs with the contents `ts`, and nothing but blanks around them. -/
inductive Paragraphs : List (List (Node Name)) → List (Node Name) → Prop where
  | nil : Paragraphs [] []
  | blank {content : String} (h : Text.hasWord content.toList = false)
      {ts : List (List (Node Name))} {ns : List (Node Name)} (rest : Paragraphs ts ns) :
      Paragraphs ts (.text content :: ns)
  | paragraph {name : Name} (h : name.localName = paragraphName) (hname : name.isResolved)
      (attributes : List (Name × String)) (t : List (Node Name))
      {ts : List (List (Node Name))} {ns : List (Node Name)} (rest : Paragraphs ts ns) :
      Paragraphs (t :: ts) (.element name attributes t :: ns)

theorem Paragraphs.unresolvedInContent? {ts : List (List (Node Name))} {ns : List (Node Name)}
    (h : Paragraphs ts ns) :
    Node.unresolvedInContent? ns = ts.findSome? Node.unresolvedInContent? := by
  induction h with
  | nil => rfl
  | blank _ _ ih => exact ih
  | @paragraph name h hname attributes t ts ns _ ih =>
    have hp : ReferenceTag.ofName? name.localName = none := h ▸ by decide
    rw [Node.unresolvedInContent?_cons, Node.unresolved?_element hp hname, ih, List.findSome?_cons]
    cases Node.unresolvedInContent? t <;> rfl

/-- The content is `t` in any number of paragraphs, each the only one in the next. -/
inductive Nested (t : List (Node Name)) : List (Node Name) → Prop where
  | bare : Nested t t
  | paragraph {ns ms : List (Node Name)} (inner : Nested t ns) (h : Paragraphs [ns] ms) : Nested t ms

end Fragment

namespace Accumulator
open Text

variable {shown : String → List Run} {lineBreak : String} {base : List Run} {a b c d : Accumulator}

/-! ### In front of other runs -/

/-- The accumulator with runs in front of its own. -/
def behind (base : List Run) (a : Accumulator) : Accumulator :=
  { a with runs := base ++ a.runs }

theorem spacedIf_behind (spaced : Bool) :
    (a.behind base).spacedIf spaced = (a.spacedIf spaced).behind base := by
  cases spaced <;> rfl

theorem appendRuns_behind (runs : List Run) :
    (a.behind base).appendRuns runs = (a.appendRuns runs).behind base := by
  have hsep : (a.behind base).separator = a.separator := rfl
  simp only [appendRuns, hsep]
  simp [behind]

theorem atBeginning_behind (h : a.runs ≠ []) : (a.behind base).atBeginning = a.atBeginning := by
  have hb : base ++ a.runs ≠ [] := List.append_ne_nil_of_right_ne_nil base h
  show (base ++ a.runs).isEmpty = a.runs.isEmpty
  rw [List.isEmpty_eq_false_iff.2 h, List.isEmpty_eq_false_iff.2 hb]

theorem appendTextNode_behind (h : a.runs ≠ []) (raw : String) :
    (a.behind base).appendTextNode raw = (a.appendTextNode raw).behind base := by
  rw [appendTextNode_eq, appendTextNode_eq]
  dsimp only
  rw [atBeginning_behind h, spacedIf_behind]
  split
  · rw [appendText, appendRuns_behind, spacedIf_behind, appendText]
  · rfl

theorem beginParagraph_behind :
    (a.behind base).beginParagraph =
      (a.beginParagraph.1.behind base, a.beginParagraph.2.map (base.length + ·)) := by
  refine Prod.ext ?_ ?_
  · rw [beginParagraph_fst, beginParagraph_fst]
    rfl
  · rw [beginParagraph_snd, beginParagraph_snd]
    simp only [behind, List.length_append]
    split <;> rfl

theorem endParagraph_behind (token : Option Nat) :
    (a.behind base).endParagraph (token.map (base.length + ·)) =
      (a.endParagraph token).behind base := by
  have hiff : token.map (base.length + ·) = some (a.behind base).runs.length ↔
      token = some a.runs.length := by
    cases token <;> simp [behind]
  by_cases h : token = some a.runs.length
  · rw [endParagraph_of_length_eq h, endParagraph_of_length_eq (hiff.2 h)]
    rfl
  · rw [endParagraph_of_ne h, endParagraph_of_ne (mt hiff.1 h)]
    rfl

/-! ### Behind a paragraph -/

/-- The two runs that keep paragraphs apart. -/
def paragraphBreak (lineBreak : String) : List Run :=
  [⟨.lineBreak, lineBreak⟩, ⟨.lineBreak, lineBreak⟩]

/-- A break waits behind the runs `base`. -/
structure Waiting (lineBreak : String) (base : List Run) (b : Accumulator) : Prop where
  lineBreak : b.lineBreak = lineBreak
  runs : b.runs = base
  hasContent : b.hasContent = false
  pendingBreak : b.pendingBreak = true

namespace Waiting

theorem spacedIf (h : b.Waiting lineBreak base) (spaced : Bool) :
    (b.spacedIf spaced).Waiting lineBreak base := by
  refine ⟨?_, ?_, ?_, ?_⟩
  · rw [lineBreak_spacedIf, h.lineBreak]
  · rw [runs_spacedIf, h.runs]
  · rw [hasContent_spacedIf, h.hasContent]
  · rw [pendingBreak_spacedIf, h.pendingBreak]

theorem beginParagraph (h : b.Waiting lineBreak base) :
    b.beginParagraph.1.Waiting lineBreak base ∧ b.beginParagraph.2 = none := by
  rw [beginParagraph_fst, beginParagraph_snd, h.hasContent, h.pendingBreak]
  exact ⟨⟨h.lineBreak, h.runs, rfl, rfl⟩, rfl⟩

theorem endParagraph (h : b.Waiting lineBreak base) :
    (b.endParagraph none).Waiting lineBreak base := by
  rw [endParagraph_of_ne (by simp), h.pendingBreak]
  exact ⟨h.lineBreak, h.runs, rfl, rfl⟩

theorem appendRuns (h : b.Waiting lineBreak base) (runs : List Run) :
    b.appendRuns runs =
      (Accumulator.appendRuns { lineBreak } runs).behind (base ++ paragraphBreak lineBreak) := by
  obtain ⟨br, rs, content, brk, sp⟩ := b
  obtain ⟨rfl, rfl, rfl, rfl⟩ := h
  simp [Accumulator.appendRuns, behind, separator, breakRun, paragraphBreak]

end Waiting

/-- What `a` has added to nothing, `b` has added to the runs `base` and a break. While that is
nothing, the break still waits. -/
inductive Behind (lineBreak : String) (base : List Run) : Accumulator → Accumulator → Prop where
  | quiet {b : Accumulator} (h : b.Waiting lineBreak base) : Behind lineBreak base { lineBreak } b
  | loud {a : Accumulator} (h : a.runs ≠ []) :
      Behind lineBreak base a (a.behind (base ++ paragraphBreak lineBreak))

namespace Behind

theorem appendRuns (h : Behind lineBreak base a b) {runs : List Run} (hne : runs ≠ []) :
    Behind lineBreak base (a.appendRuns runs) (b.appendRuns runs) := by
  have hruns : (a.appendRuns runs).runs ≠ [] := by simp [Accumulator.appendRuns, hne]
  cases h with
  | quiet h =>
    rw [h.appendRuns]
    exact .loud hruns
  | loud h =>
    rw [appendRuns_behind]
    exact .loud hruns

theorem appendTextNode (h : Behind lineBreak base a b) (raw : String) :
    Behind lineBreak base (a.appendTextNode raw) (b.appendTextNode raw) := by
  cases h with
  | quiet h =>
    have hfresh : (startsBlank raw.toList && !({ lineBreak } : Accumulator).atBeginning) = false := by
      simp [atBeginning]
    have hb := h.spacedIf (startsBlank raw.toList && !b.atBeginning)
    rw [appendTextNode_eq, appendTextNode_eq, hfresh]
    dsimp only
    split
    · rw [appendText, appendText, hb.appendRuns, Accumulator.spacedIf_behind]
      refine .loud ?_
      rw [runs_spacedIf]
      exact List.cons_ne_nil _ _
    · exact .quiet hb
  | loud h =>
    rw [appendTextNode_behind h]
    exact .loud fun hr => h (List.prefix_nil.1 (hr ▸ prefix_appendTextNode a raw))

theorem beginParagraph (h : Behind lineBreak base a b) :
    Behind lineBreak base a.beginParagraph.1 b.beginParagraph.1 := by
  cases h with
  | quiet h => exact .quiet h.beginParagraph.1
  | loud h =>
    rw [beginParagraph_behind]
    exact .loud (by rwa [runs_beginParagraph])

theorem endParagraph (h : Behind lineBreak base a b) (h' : Behind lineBreak base c d)
    (hac : a.runs <+: c.runs) :
    Behind lineBreak base (c.endParagraph a.beginParagraph.2) (d.endParagraph b.beginParagraph.2) := by
  cases h with
  | quiet h =>
    rw [h.beginParagraph.2]
    cases h' with
    | quiet h' => exact .quiet h'.endParagraph
    | loud h' =>
      rw [← Option.map_none, endParagraph_behind]
      exact .loud (by rwa [runs_endParagraph])
  | loud h =>
    have hc : c.runs ≠ [] := fun hr => h (List.prefix_nil.1 (hr ▸ hac))
    cases h' with
    | quiet _ => exact absurd rfl hc
    | loud _ =>
      rw [beginParagraph_behind, endParagraph_behind]
      exact .loud (by rwa [runs_endParagraph])

end Behind

theorem kept_behind (hshown : ∀ identifier, shown identifier ≠ []) :
    Kept shown (Behind lineBreak base) where
  textNode h raw := h.appendTextNode raw
  reference h identifier := h.appendRuns (hshown identifier)
  beginParagraph h := h.beginParagraph
  endParagraph h h' hac := h.endParagraph h' hac

/-! ### One paragraph after the other -/

/-- The runs of content that has nothing around it. -/
def contentRuns (shown : String → List Run) (lineBreak : String) (t : List (Node Name)) : List Run :=
  (addContent shown { lineBreak } t).runs

theorem addNode_paragraph {name : Name} (h : name.localName = paragraphName)
    (attributes : List (Name × String)) (t : List (Node Name)) :
    a.addNode shown (.element name attributes t) =
      (a.beginParagraph.1.addContent shown t).endParagraph a.beginParagraph.2 := by
  have hp : ReferenceTag.ofName? paragraphName = none := by decide
  simp only [addNode, h, hp, ↓reduceIte]

theorem addNode_root (t : List (Node Name)) :
    a.addNode shown (Fragment.root t) = a.addContent shown t := by
  have hr : ReferenceTag.ofName? (Name.plain Fragment.rootName).localName = none := by decide
  have hp : (Name.plain Fragment.rootName).localName ≠ paragraphName := by decide
  simp only [Fragment.root, addNode, hr, if_neg hp]

theorem appendNode_root {ε : Type} (render : String → Except ε (List Run)) (a : Accumulator)
    (t : List (Node Name)) : a.appendNode render (Fragment.root t) = a.appendContent render t := by
  have hresolved : (Name.plain Fragment.rootName).isResolved := by decide
  have hr : ReferenceTag.ofName? (Name.plain Fragment.rootName).localName = none := by decide
  have hp : (Name.plain Fragment.rootName).localName ≠ paragraphName := by decide
  simp only [Fragment.root, appendNode, if_pos hresolved, hr, if_neg hp]

theorem kept_lineBreak : Kept shown fun a _ => a.lineBreak = lineBreak where
  textNode h raw := by rw [lineBreak_appendTextNode, h]
  reference h _ := h
  beginParagraph h := by rw [beginParagraph_fst, h]
  endParagraph _ h' _ := by rw [lineBreak_endParagraph, h']

theorem consistent_addContent (hshown : ∀ identifier, shown identifier ≠ []) (lineBreak : String)
    (t : List (Node Name)) : (addContent shown { lineBreak } t).Consistent :=
  (kept_consistent hshown).addContent (b := { lineBreak }) (.fresh lineBreak) t

theorem Consistent.waiting (h : a.Consistent) (hr : a.runs ≠ []) (hl : a.lineBreak = lineBreak) :
    (a.endParagraph none).Waiting lineBreak a.runs := by
  rw [endParagraph_of_ne (by simp), h.pendingBreak_or_hasContent hr]
  exact ⟨hl, rfl, rfl, rfl⟩

theorem Waiting.behind (h : a.Waiting lineBreak base) (front : List Run) :
    (a.behind front).Waiting lineBreak (front ++ base) :=
  ⟨h.lineBreak, congrArg (front ++ ·) h.runs, h.hasContent, h.pendingBreak⟩

section
variable {t : List (Node Name)}

/-- A paragraph behind runs adds a break and what it adds to nothing, if that is any. -/
theorem Waiting.addParagraph (hshown : ∀ identifier, shown identifier ≠ [])
    (h : b.Waiting lineBreak base) {name : Name} (hname : name.localName = paragraphName)
    (attributes : List (Name × String)) :
    (b.addNode shown (.element name attributes t)).Waiting lineBreak
      (if contentRuns shown lineBreak t = [] then base
      else base ++ paragraphBreak lineBreak ++ contentRuns shown lineBreak t) := by
  obtain ⟨hopen, htoken⟩ := h.beginParagraph
  have hb := (kept_behind hshown).addContent (.quiet hopen) t
  have hc := consistent_addContent hshown lineBreak t
  have hl : (addContent shown { lineBreak } t).lineBreak = lineBreak :=
    kept_lineBreak.addContent (b := { lineBreak }) rfl t
  rw [addNode_paragraph hname, htoken, contentRuns]
  generalize addContent shown { lineBreak } t = c at hb hc hl ⊢
  generalize b.beginParagraph.1.addContent shown t = d at hb ⊢
  cases hb with
  | quiet hd => exact hd.endParagraph
  | loud hr =>
    rw [if_neg hr, ← Option.map_none, endParagraph_behind]
    exact (hc.waiting hr hl).behind _

/-- A paragraph in front of all runs adds what it adds to nothing. Without any it leaves no trace. -/
theorem addParagraph_fresh (hshown : ∀ identifier, shown identifier ≠ []) {name : Name}
    (hname : name.localName = paragraphName) (attributes : List (Name × String)) :
    (contentRuns shown lineBreak t = [] ∧
      addNode shown { lineBreak } (.element name attributes t) = { lineBreak }) ∨
    (contentRuns shown lineBreak t ≠ [] ∧
      (addNode shown { lineBreak } (.element name attributes t)).Waiting lineBreak
        (contentRuns shown lineBreak t)) := by
  -- Content without runs leaves a fresh accumulator as it is: compare it with one behind no runs at
  -- all, where a break waits.
  have hw : Waiting lineBreak [] { lineBreak, pendingBreak := true } := ⟨rfl, rfl, rfl, rfl⟩
  have hb := (kept_behind hshown).addContent (.quiet hw) t
  have hc := consistent_addContent hshown lineBreak t
  have hl : (addContent shown { lineBreak } t).lineBreak = lineBreak :=
    kept_lineBreak.addContent (b := { lineBreak }) rfl t
  have hopen : (beginParagraph { lineBreak }) = ({ lineBreak }, none) := rfl
  rw [addNode_paragraph hname, hopen, contentRuns]
  generalize addContent shown { lineBreak } t = c at hb hc hl ⊢
  generalize addContent shown { lineBreak, pendingBreak := true } t = d at hb
  cases hb with
  | quiet _ => exact .inl ⟨rfl, rfl⟩
  | loud hr => exact .inr ⟨hr, hc.waiting hr hl⟩

end

/-- The runs so far are those of `parts`, and a break waits behind them. -/
inductive Joined (lineBreak : String) : List (List Run) → Accumulator → Prop where
  | fresh : Joined lineBreak [] { lineBreak }
  | waiting {parts : List (List Run)} {a : Accumulator} (hne : parts ≠ [])
      (h : a.Waiting lineBreak ((paragraphBreak lineBreak).intercalate parts)) :
      Joined lineBreak parts a

namespace Joined

variable {parts : List (List Run)}

theorem runs (h : Joined lineBreak parts a) :
    a.runs = (paragraphBreak lineBreak).intercalate parts := by
  cases h with
  | fresh => rfl
  | waiting _ h => exact h.runs

theorem blank (h : Joined lineBreak parts a) {raw : String} (hraw : hasWord raw.toList = false) :
    Joined lineBreak parts (a.appendTextNode raw) := by
  rw [appendTextNode_of_hasWord_eq_false hraw]
  cases h with
  | fresh =>
    simp only [atBeginning, List.isEmpty_nil, Bool.not_true, Bool.and_false, spacedIf_false]
    exact .fresh
  | waiting hne h => exact .waiting hne (h.spacedIf _)

theorem intercalate_concat {sep : List Run} (hne : parts ≠ []) (part : List Run) :
    sep.intercalate (parts ++ [part]) = sep.intercalate parts ++ sep ++ part := by
  induction parts with
  | nil => exact absurd rfl hne
  | cons p parts ih =>
    cases parts with
    | nil => simp
    | cons q parts =>
      have ih := ih (List.cons_ne_nil _ _)
      rw [List.cons_append] at ih
      rw [List.cons_append, List.cons_append, List.intercalate_cons_cons, ih,
        List.intercalate_cons_cons]
      simp only [List.append_assoc]

theorem paragraph (hshown : ∀ identifier, shown identifier ≠ []) (h : Joined lineBreak parts a)
    {name : Name} (hname : name.localName = paragraphName) (attributes : List (Name × String))
    (t : List (Node Name)) :
    Joined lineBreak (parts ++ [contentRuns shown lineBreak t].filter (· ≠ []))
      (a.addNode shown (.element name attributes t)) := by
  cases h with
  | fresh =>
    rcases addParagraph_fresh (t := t) hshown hname attributes with ⟨hr, h⟩ | ⟨hr, h⟩
    · rw [hr, h]
      exact .fresh
    · have hparts : [] ++ [contentRuns shown lineBreak t].filter (· ≠ []) =
          [contentRuns shown lineBreak t] := by simp [hr]
      rw [hparts]
      exact .waiting (List.cons_ne_nil _ _) (by rwa [List.intercalate_singleton])
  | waiting hne h =>
    have h := h.addParagraph (t := t) hshown hname attributes
    by_cases hr : contentRuns shown lineBreak t = []
    · rw [if_pos hr] at h
      simpa [hr] using .waiting hne h
    · rw [if_neg hr, ← intercalate_concat hne] at h
      simpa [hr] using .waiting (List.concat_ne_nil _ _) h

theorem addContent (hshown : ∀ identifier, shown identifier ≠ []) {ts : List (List (Node Name))}
    {ns : List (Node Name)} (hns : Fragment.Paragraphs ts ns) (h : Joined lineBreak parts a) :
    Joined lineBreak (parts ++ (ts.map (contentRuns shown lineBreak)).filter (· ≠ []))
      (a.addContent shown ns) := by
  induction hns generalizing parts a with
  | nil => simpa [Accumulator.addContent] using h
  | blank hblank _ ih =>
    rw [Accumulator.addContent, addNode]
    exact ih (h.blank hblank)
  | @paragraph name hname _ attributes t ts _ _ ih =>
    have := ih (h.paragraph hshown hname attributes t)
    rw [Accumulator.addContent, List.map_cons, ← List.singleton_append, List.filter_append,
      ← List.append_assoc]
    exact this

end Joined

end Accumulator

namespace Formatter
open Accumulator Fragment

variable {lineBreak : String} {v : View}

theorem nodeRuns_root (hv : v.OfIds) (t : List (Node Name)) :
    nodeRuns lineBreak v (root t) =
      match Node.unresolvedInContent? t with
      | some name => .error (.unresolvedName name.tagPart)
      | none => .ok (contentRuns v.shown lineBreak t) := by
  have hruns := hv.nodeRuns_eq lineBreak (root t)
  rw [addNode_root, unresolved?_root] at hruns
  exact hruns

/-- The walks over fragments one by one end at the first name of all that has no local name. -/
theorem mapM_nodeRuns_root (hv : v.OfIds) (ts : List (List (Node Name))) :
    ts.mapM (fun t => nodeRuns lineBreak v (root t)) =
      match ts.findSome? Node.unresolvedInContent? with
      | some name => .error (.unresolvedName name.tagPart)
      | none => .ok (ts.map (contentRuns v.shown lineBreak)) := by
  induction ts with
  | nil => rfl
  | cons t ts ih =>
    rw [List.mapM_cons, nodeRuns_root hv, ih, List.findSome?_cons]
    cases Node.unresolvedInContent? t with
    | some name => rfl
    | none => cases ts.findSome? Node.unresolvedInContent? <;> rfl

/-- The runs of paragraphs side by side are the runs of each by itself, joined by paragraph breaks
where there are any, and the walk over all of them ends early if the walk over one of them does. So
it does not matter how many paragraphs are around a whole comment. -/
theorem nodeRuns_paragraphs (lineBreak : String) (hv : v.OfIds) :
    (∀ {ts ns}, Paragraphs ts ns →
      nodeRuns lineBreak v (root ns) =
        (ts.mapM fun t => nodeRuns lineBreak v (root t)).map fun parts =>
          [⟨.lineBreak, lineBreak⟩, ⟨.lineBreak, lineBreak⟩].intercalate (parts.filter (· ≠ []))) ∧
    (∀ {ts : List (List (Node Name))},
      (∀ t ∈ ts, ∀ name ∈ (root t).metNames, name.isResolved) →
        ∃ parts, ts.mapM (fun t => nodeRuns lineBreak v (root t)) = .ok parts) ∧
    ∀ {t ns}, Nested t ns → nodeRuns lineBreak v (root ns) = nodeRuns lineBreak v (root t) := by
  have hjoin {ts ns} (h : Paragraphs ts ns) : contentRuns v.shown lineBreak ns =
      (paragraphBreak lineBreak).intercalate
        ((ts.map (contentRuns v.shown lineBreak)).filter (· ≠ [])) :=
    (Joined.fresh.addContent hv.shown_ne_nil h).runs
  refine ⟨fun {ts ns} h => ?_, fun {ts} hnames => ?_, fun {t ns} h => ?_⟩
  · rw [nodeRuns_root hv, mapM_nodeRuns_root hv, h.unresolvedInContent?, hjoin h]
    cases ts.findSome? Node.unresolvedInContent? <;> rfl
  · have hnone : ts.findSome? Node.unresolvedInContent? = none :=
      List.findSome?_eq_none_iff.2 fun t ht => by
        rw [← unresolved?_root, Node.unresolved?_eq_none_iff]
        exact hnames t ht
    rw [mapM_nodeRuns_root hv, hnone]
    exact ⟨_, rfl⟩
  · induction h with
    | bare => rfl
    | @paragraph ns ms _ h ih =>
      rw [← ih, nodeRuns_root hv, nodeRuns_root hv, h.unresolvedInContent?, hjoin h,
        List.findSome?_singleton]
      by_cases hr : contentRuns v.shown lineBreak ns = [] <;> simp [hr]

theorem nodeRuns_three_paragraphs :
    let v : View := { table := (SymbolTable.ofIds ["T:N.C"]).toOption }
    let see : Node Name := .element (Name.plain "see") [(Name.plain "cref", "T:N.C")] []
    let para := Node.element (Name.plain "para") []
    v.OfIds ∧
      nodeRuns "\n" v (root [.text "\n", para [.text " a "], para [], .text " ",
        para [.text "b", para [see], .text " "]]) =
        .ok [.plain "a", ⟨.lineBreak, "\n"⟩, ⟨.lineBreak, "\n"⟩, .plain "b", ⟨.lineBreak, "\n"⟩,
          ⟨.lineBreak, "\n"⟩, ⟨.typeName, "C"⟩] := by
  intro v see para
  have hv : v.OfIds := .of_toOption ["T:N.C"] rfl
  have hns : Paragraphs [[.text " a "], [], [.text "b", para [see], .text " "]]
      [.text "\n", para [.text " a "], para [], .text " ", para [.text "b", para [see], .text " "]] :=
    .blank (by decide) (.paragraph rfl (by decide) [] _ (.paragraph rfl (by decide) [] _
      (.blank (by decide) (.paragraph rfl (by decide) [] _ .nil))))
  have hruns := (nodeRuns_paragraphs "\n" hv).1 hns
  have hthree : [[.text " a "], [], [.text "b", para [see], .text " "]].mapM
      (fun t => nodeRuns "\n" v (root t)) = .ok [[.plain "a"], [],
        [.plain "b", ⟨.lineBreak, "\n"⟩, ⟨.lineBreak, "\n"⟩, ⟨.typeName, "C"⟩]] := by
    rw [mapM_nodeRuns_root hv]
    rfl
  rw [hthree] at hruns
  exact ⟨hv, hruns⟩

end Formatter

end DocComment
