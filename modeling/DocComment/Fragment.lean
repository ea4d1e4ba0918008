import DocComment.Xml.Document

/-!
# Fragments

The text of a comment may have several elements side by side and text between them. It is read as
the content of an element `root`.
-/

namespace DocComment.Fragment

def rootName : String := "root"

/-- The document that has the fragment as the content of its element. -/
def wrapped (raw : String) : String :=
  "<" ++ rootName ++ ">" ++ raw ++ "</" ++ rootName ++ ">"

/-- The element `root` with the fragment as its content, unless the fragment is not well formed. -/
def parse? (raw : String) : Option (Xml.Node Xml.Name) :=
  Xml.document? (wrapped raw).toList

end DocComment.Fragment
