import DocComment.Accumulator.TextNode
import DocComment.View
import DocComment.Xml.Namespace

/-!
# Events of a comment

What the markup of a comment does to an accumulator is a sequence of events in document order: texts,
references, and the beginnings and ends of paragraphs. Elements that are neither paragraphs nor
references stand for their content, a reference hides its own, and comments and processing
instructions only keep the texts around them apart.
-/

namespace DocComment

/-- What is met in a comment, with references known by `ρ`: first their identifiers, then the runs
that show them. -/
inductive Event (ρ : Type) where
  | text (content : String)
  | reference (target : ρ)
  | beginParagraph
  | endParagraph
  deriving DecidableEq, Repr, Inhabited

def paragraphName : String := "para"

/-- The identifier in an element with a reference tag. The attribute has no namespace. -/
def ReferenceTag.identifier? (tag : ReferenceTag) (attributes : List (Xml.Name × String)) :
    Option String :=
  attributes.lookup (Xml.Name.plain tag.identifyingAttribute)

/-- The events of an element with a reference tag: one if it has an identifier. -/
def ReferenceTag.events (tag : ReferenceTag) (attributes : List (Xml.Name × String)) :
    List (Event String) :=
  match tag.identifier? attributes with
  | none => []
  | some identifier => [.reference identifier]

mutual

def Xml.Node.events : Xml.Node Xml.Name → List (Event String)
  | .text content => [.text content]
  | .comment _ => []
  | .instruction _ _ => []
  | .element name attributes content =>
    match ReferenceTag.ofName? name.localName with
    | some tag => tag.events attributes
    | none =>
      if name.localName = paragraphName then
        .beginParagraph :: Xml.Node.eventsOfContent content ++ [.endParagraph]
      else Xml.Node.eventsOfContent content

def Xml.Node.eventsOfContent : List (Xml.Node Xml.Name) → List (Event String)
  | [] => []
  | n :: ns => n.events ++ Xml.Node.eventsOfContent ns

end

/-- The event with its reference as what `render` makes of it. -/
def Event.rendered {ρ σ ε : Type} (render : ρ → Except ε σ) : Event ρ → Except ε (Event σ)
  | .text content => .ok (.text content)
  | .reference target => (render target).map .reference
  | .beginParagraph => .ok .beginParagraph
  | .endParagraph => .ok .endParagraph

/-- The event with its reference as the runs that show it. -/
def View.showEvent (v : View) : Event String → Except DisplayError (Event (List Run)) :=
  Event.rendered v.referenceRuns

/-- An accumulator, and the tokens of the paragraphs that are open, innermost first. -/
structure Progress where
  accumulator : Accumulator
  opened : List (Option Nat) := []
  deriving DecidableEq, Repr, Inhabited

namespace Progress

def step (p : Progress) : Event (List Run) → Progress
  | .text content => { p with accumulator := p.accumulator.appendTextNode content }
  | .reference runs => { p with accumulator := p.accumulator.appendRuns runs }
  | .beginParagraph =>
    { accumulator := p.accumulator.beginParagraph.1
      opened := p.accumulator.beginParagraph.2 :: p.opened }
  | .endParagraph =>
    { accumulator := p.accumulator.endParagraph (p.opened.headD none)
      opened := p.opened.tail }

def run (p : Progress) (events : List (Event (List Run))) : Progress :=
  events.foldl step p

@[simp] theorem run_nil (p : Progress) : p.run [] = p := rfl

@[simp] theorem run_cons (p : Progress) (e : Event (List Run)) (es : List (Event (List Run))) :
    p.run (e :: es) = (p.step e).run es := rfl

theorem run_append (p : Progress) (a b : List (Event (List Run))) :
    p.run (a ++ b) = (p.run a).run b :=
  List.foldl_append

end Progress

end DocComment
