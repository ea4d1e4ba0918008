import DocComment.Xml.Token

/-!
# Trees of markup

A node is a text, a comment, a processing instruction or an element with its content. The type of
names is left open: names are strings as long as they are only written names, and expanded names
once namespaces are known.
-/

namespace DocComment.Xml

/-- A node of a document whose elements and attributes are named by `ν`. -/
inductive Node (ν : Type) where
  | text (content : String)
  | comment (content : String)
  | instruction (target data : String)
  | element (name : ν) (attributes : List (ν × String)) (content : List (Node ν))
  deriving Repr, Inhabited

namespace Node

variable {ν : Type}

mutual

/-- Whether two nodes are the same, decided constructor by constructor. -/
def decEq [DecidableEq ν] : (n m : Node ν) → Decidable (n = m)
  | .text s, .text t => decidable_of_iff (s = t) (by rw [text.injEq])
  | .comment s, .comment t => decidable_of_iff (s = t) (by rw [comment.injEq])
  | .instruction target data, .instruction target' data' =>
    decidable_of_iff (target = target' ∧ data = data') (by rw [instruction.injEq])
  | .element name attributes content, .element name' attributes' content' =>
    have := decEqContent content content'
    decidable_of_iff (name = name' ∧ attributes = attributes' ∧ content = content')
      (by rw [element.injEq])
  | .text _, .comment _ | .text _, .instruction .. | .text _, .element ..
  | .comment _, .text _ | .comment _, .instruction .. | .comment _, .element ..
  | .instruction .., .text _ | .instruction .., .comment _ | .instruction .., .element ..
  | .element .., .text _ | .element .., .comment _ | .element .., .instruction .. => isFalse nofun

def decEqContent [DecidableEq ν] : (ns ms : List (Node ν)) → Decidable (ns = ms)
  | [], [] => isTrue rfl
  | [], _ :: _ | _ :: _, [] => isFalse nofun
  | n :: ns, m :: ms =>
    have := decEq n m
    have := decEqContent ns ms
    decidable_of_iff (n = m ∧ ns = ms) (by rw [List.cons.injEq])

end

instance [DecidableEq ν] : DecidableEq (Node ν) :=
  decEq

mutual

/-- The number of elements on the longest way down from a node. -/
def height : Node ν → Nat
  | .element _ _ content => heightOfContent content + 1
  | _ => 0

/-- The greatest height in a list of nodes. -/
def heightOfContent : List (Node ν) → Nat
  | [] => 0
  | n :: ns => max n.height (heightOfContent ns)

end

mutual

/-- The names of all elements in a node, in document order. -/
def elementNames : Node ν → List ν
  | .element name _ content => name :: elementNamesOfContent content
  | _ => []

def elementNamesOfContent : List (Node ν) → List ν
  | [] => []
  | n :: ns => n.elementNames ++ elementNamesOfContent ns

end

/-- An element that is open while its content is read, with what stands before it in its parent,
last node first. -/
structure Frame where
  name : String
  attributes : List (String × String)
  before : List (Node String)

/-- The nodes that tokens stand for. `before` are the nodes already read in the innermost open
element, last node first; `frames` are the open elements, innermost first. Every start tag needs its
end tag. -/
def ofTokensFrom? (before : List (Node String)) (frames : List Frame) :
    List Token → Option (List (Node String))
  | [] => if frames.isEmpty then some before.reverse else none
  | .text content :: rest => ofTokensFrom? (.text (String.ofList content) :: before) frames rest
  | .comment content :: rest => ofTokensFrom? (.comment content :: before) frames rest
  | .instruction target data :: rest =>
    ofTokensFrom? (.instruction target data :: before) frames rest
  | .emptyTag name attributes :: rest =>
    ofTokensFrom? (.element name attributes [] :: before) frames rest
  | .startTag name attributes :: rest =>
    ofTokensFrom? [] (⟨name, attributes, before⟩ :: frames) rest
  | .endTag name :: rest =>
    match frames with
    | [] => none
    | frame :: frames =>
      if frame.name = name then
        ofTokensFrom? (.element name frame.attributes before.reverse :: frame.before) frames rest
      else none

/-- The nodes that tokens stand for, if the tags match. -/
def ofTokens? (tokens : List Token) : Option (List (Node String)) :=
  ofTokensFrom? [] [] (joinText tokens)

end Node

end DocComment.Xml
