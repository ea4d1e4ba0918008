import DocComment.Text.Separated
import DocComment.Xml.Node

/-!
# Namespaces

A written name may have a prefix before a colon. `Node.expand?` gives every element and attribute
of a tree the namespace that its prefix stands for. The declarations of namespaces are attributes
in writing only, so they are left out. A prefix that stands for nothing stays in the local name, and
so do colons where there are too many.
-/

namespace DocComment.Xml

/-- The namespace of the prefix `xml`. -/
def xmlNamespace : String := "http://www.w3.org/XML/1998/namespace"

/-- The namespace of the prefix `xmlns`, which no declaration may name. -/
def xmlnsNamespace : String := "http://www.w3.org/2000/xmlns/"

/-- The name of an element or attribute: a namespace, unless there is none, and a local name. -/
structure Name where
  namespaceUri : Option String
  localName : String
  deriving DecidableEq, Repr, Inhabited

namespace Name

/-- A name in no namespace. -/
def plain (localName : String) : Name := ⟨none, localName⟩

/-- The name with its namespace in braces in front of it. -/
def braced (n : Name) : String :=
  match n.namespaceUri with
  | none => n.localName
  | some uri => "\x7b" ++ uri ++ "\x7d" ++ n.localName

/-- What stands behind the first closing brace of the name in braces, where the local name is looked
for. A namespace with a closing brace is cut there. -/
def tagPart (n : Name) : String :=
  match n.namespaceUri with
  | none => n.localName
  | some uri =>
    match uri.toList.dropWhile (· ≠ '\x7d') with
    | [] => n.localName
    | _ :: rest => String.ofList (rest ++ '\x7d' :: n.localName.toList)

/-- Whether the tag part is a local name. It is none if a prefix is left in it, because the prefix
stands for nothing, or a part of a namespace. -/
def isResolved (n : Name) : Bool :=
  n.tagPart.toList.all fun c => c ≠ ':' && c ≠ '\x7d'

end Name

/-- A name as written, cut at its colon. -/
structure WrittenName where
  qualifier : Option String
  localName : String
  deriving DecidableEq, Repr, Inhabited

namespace WrittenName

/-- Whether the text is a name without a colon. -/
def isPart : List Char → Bool
  | [] => false
  | c :: rest => isNameStart c && rest.all isNameChar && !(c :: rest).contains ':'

/-- Cuts a name at the first of its colons, if there are parts on both sides of it. -/
def ofString (name : String) : WrittenName :=
  match Text.separated ':' name.toList with
  | p :: s :: rest =>
    if isPart p && isPart s then
      ⟨some (String.ofList p), String.ofList ([':'].intercalate (s :: rest))⟩
    else ⟨none, name⟩
  | _ => ⟨none, name⟩

/-- Whether there is one colon at most, with parts on both sides of it. -/
def isProper (n : WrittenName) : Bool :=
  isPart n.localName.toList

/-- Whether the name can be read. What follows a second colon must be a name, or nothing. -/
def isReadable (n : WrittenName) : Bool :=
  n.qualifier.isNone ||
    match n.localName.toList.dropWhile (· ≠ ':') with
    | _ :: c :: _ => isNameStart c
    | _ => true

def text (n : WrittenName) : String :=
  match n.qualifier with
  | none => n.localName
  | some p => p ++ ":" ++ n.localName

/-- The prefix that an attribute of this name declares, empty for the default namespace. -/
def declares? (n : WrittenName) : Option String :=
  match n.qualifier with
  | none => if n.localName = "xmlns" then some "" else none
  | some p => if p = "xmlns" then some n.localName else none

end WrittenName

/-- Attributes with their written names. -/
abbrev WrittenAttributes := List (WrittenName × String)

def writtenAttributes (attributes : List (String × String)) : WrittenAttributes :=
  attributes.map fun (name, value) => (WrittenName.ofString name, value)

namespace WrittenAttributes

/-- The attributes that declare no namespace. -/
def plain (attributes : WrittenAttributes) : WrittenAttributes :=
  attributes.filter (·.1.declares?.isNone)

/-- The prefixes that the other attributes declare, with the namespaces. -/
def declared (attributes : WrittenAttributes) : List (String × String) :=
  attributes.filterMap fun (n, value) => n.declares?.map (·, value)

end WrittenAttributes

/-- The namespaces that prefixes stand for, innermost declaration first. The empty prefix is that of
element names without a prefix, and an empty namespace is none. -/
abbrev Scope := List (String × String)

namespace Scope

/-- What is in scope in every document. -/
def initial : Scope := [("xml", xmlNamespace)]

/-- Whether the declaration of a prefix takes effect. The prefixes `xml` and `xmlns` and their
namespaces are fixed, and only the default namespace may be declared empty. -/
def takesEffect (p uri : String) : Bool :=
  p ≠ "xml" && p ≠ "xmlns" && uri ≠ xmlNamespace && uri ≠ xmlnsNamespace && (p = "" || uri ≠ "")

/-- The declarations among attributes that take effect. -/
def declarations (attributes : WrittenAttributes) : Scope :=
  attributes.declared.filter fun (p, uri) => takesEffect p uri

/-- The scope inside an element with the given attributes. -/
def inside (scope : Scope) (attributes : WrittenAttributes) : Scope :=
  declarations attributes ++ scope

/-- The name that a written name stands for, if its prefix stands for a namespace. Names without a
prefix are in the namespace `unprefixed`. -/
def resolve? (scope : Scope) (unprefixed : Option String) (n : WrittenName) : Option Name :=
  match n.qualifier with
  | none => some ⟨unprefixed, n.localName⟩
  | some p => (scope.lookup p).map fun uri => ⟨some uri, n.localName⟩

/-- The namespace of elements whose names have no prefix. -/
def unprefixed (scope : Scope) : Option String :=
  (scope.lookup "").filter (· ≠ "")

def elementName? (scope : Scope) (n : WrittenName) : Option Name :=
  scope.resolve? scope.unprefixed n

def attributeName? (scope : Scope) (n : WrittenName) : Option Name :=
  scope.resolve? none n

/-- The attributes of an element in their namespaces. No attribute may be written twice, and no
prefix declared twice. -/
def expandAttributes? (scope : Scope) (attributes : WrittenAttributes) :
    Option (List (Name × String)) := do
  guard (attributes.all (·.1.isReadable))
  guard ((declarations attributes).map (·.1)).Nodup
  guard (attributes.plain.map (·.1)).Nodup
  let inner := scope.inside attributes
  return attributes.plain.map fun (n, value) =>
    ((inner.attributeName? n).getD (Name.plain n.text), value)

end Scope

namespace Node

mutual

/-- The node with its names in their namespaces. -/
def expand? (scope : Scope) : Node String → Option (Node Name)
  | .text content => some (.text content)
  | .comment content => some (.comment content)
  | .instruction target data => some (.instruction target data)
  | .element name attributes content => do
    let attributes := writtenAttributes attributes
    let inner := scope.inside attributes
    let written := WrittenName.ofString name
    guard written.isReadable
    let attributes ← scope.expandAttributes? attributes
    let content ← expandContent? inner content
    return .element ((inner.elementName? written).getD (Name.plain written.text)) attributes content

def expandContent? (scope : Scope) : List (Node String) → Option (List (Node Name))
  | [] => some []
  | n :: ns => do
    let n ← n.expand? scope
    let ns ← expandContent? scope ns
    return n :: ns

end

end Node

end DocComment.Xml
