import DocComment.Event

/-!
# Walking a tree

The nodes of a comment are added to an accumulator in document order. At every element that is met
its local name is taken first. Where that fails, or where a reference cannot be shown, the walk ends.
-/

namespace DocComment
open Xml

/-- Why a walk ends before all of a tree is added. -/
inductive WalkError (ε : Type) where
  /-- What should be the local name of an element is none. -/
  | unresolvedName (name : String)
  /-- A reference cannot be shown. -/
  | reference (cause : ε)
  deriving DecidableEq, Repr

namespace Accumulator

variable {ε : Type} (render : String → Except ε (List Run))

/-- The accumulator after an element with a reference tag, with the reference as the runs that
`render` makes of its identifier. -/
def appendReference (a : Accumulator) (tag : ReferenceTag) (attributes : List (Name × String)) :
    Except (WalkError ε) Accumulator :=
  match tag.identifier? attributes with
  | none => .ok a
  | some identifier => ((render identifier).mapError .reference).map a.appendRuns

mutual

/-- The accumulator after a node. -/
def appendNode (a : Accumulator) : Node Name → Except (WalkError ε) Accumulator
  | .text content => .ok (a.appendTextNode content)
  | .comment _ => .ok a
  | .instruction _ _ => .ok a
  | .element name attributes content =>
    if name.isResolved then
      match ReferenceTag.ofName? name.localName with
      | some tag => a.appendReference render tag attributes
      | none =>
        if name.localName = paragraphName then
          (appendContent a.beginParagraph.1 content).map (·.endParagraph a.beginParagraph.2)
        else appendContent a content
    else .error (.unresolvedName name.tagPart)

/-- The accumulator after nodes that follow each other. -/
def appendContent (a : Accumulator) : List (Node Name) → Except (WalkError ε) Accumulator
  | [] => .ok a
  | n :: ns => do appendContent (← appendNode a n) ns

end

end Accumulator

end DocComment
