import DocComment.Text.Lines
import DocComment.Xml.Fault

/-!
# Documents

A document is one element, perhaps with comments, processing instructions and blanks around it.
There are no declarations before it, and elements are nested at most `maxDepth` deep. Whether faults
that leave it readable are tolerated is decided by what is reported about them.
-/

namespace DocComment.Xml

/-- How deep elements may be nested. -/
def maxDepth : Nat := 256

/-- Whether a node may stand beside the element of a document. -/
def isAside : Node String → Bool
  | .text content => content.toList.all isSpace
  | .comment _ => true
  | .instruction _ _ => true
  | .element _ _ _ => false

/-- The element of a document as it is written, unless the text cannot be read. -/
def writtenDocument? (s : List Char) : Option (Node String) := do
  guard (s.all isChar)
  let tokens ← tokens? (Text.unixLines s)
  let nodes ← Node.ofTokens? tokens
  match nodes.filter (!isAside ·) with
  | [.element name attributes content] =>
    let root : Node String := .element name attributes content
    guard (root.height ≤ maxDepth)
    return root
  | _ => none

/-- The element of a document, unless the text is refused. -/
def document? (s : List Char) : Option (Node Name) := do
  let written ← writtenDocument? s
  let root ← written.expand? Scope.initial
  guard (tolerates (written.reports Scope.initial))
  return root

end DocComment.Xml
