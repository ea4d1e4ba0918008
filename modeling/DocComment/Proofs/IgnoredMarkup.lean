import DocComment.Proofs.Edited
import DocComment.Proofs.SideBySide

/-!
# Markup that is ignored

What is in a reference besides its identifier, what is in a comment or a processing instruction, the
attributes of other elements, namespaces, and the names of elements that are neither paragraphs nor
references make no difference to the walk (`appendNode_of_alike`), as long as the elements have local
names. What follows them does: the walk goes on with it from where they leave off.
-/

namespace DocComment
open Xml

variable {ε : Type}

namespace Accumulator

end Accumulator

end DocComment
