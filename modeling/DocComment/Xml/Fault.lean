import DocComment.Xml.Namespace
import DocComment.Xml.Report
import DocComment.Xml.Uri

/-!
# Faults that leave a document readable

`Node.reports` lists what is reported about a document, in the order of its start tags and
processing instructions. For a tag that is, attribute by attribute, what is wrong with names,
declarations of namespaces and `xml:space`, then what is wrong with prefixes, and then what is wrong
with the identifier.
-/

namespace DocComment.Xml

/-- A fault. Whether an identifier is one is known only with those before it. -/
inductive Fault where
  | plain (severity : Severity)
  | identifier (value : String)
  deriving DecidableEq, Repr, Inhabited

namespace Fault

def errorIf (condition : Bool) : List Fault :=
  if condition then [.plain .error] else []

def warningIf (condition : Bool) : List Fault :=
  if condition then [.plain .warning] else []

/-! ### Tags -/

/-- The faults of a declaration of the default namespace. The name of a namespace should be a URI
with a scheme. -/
def ofDefault (uri : String) : List Fault :=
  if uri = "" then []
  else
    errorIf (!Uri.isReference uri.toList)
      ++ warningIf (Uri.isReference uri.toList && !Uri.isAbsolute uri.toList)
      ++ errorIf (!Scope.takesEffect "" uri)

/-- The faults of a declaration of a prefix. -/
def ofPrefix (p uri : String) : List Fault :=
  if p = "xml" then errorIf (uri ≠ xmlNamespace)
  else errorIf (!Scope.takesEffect p uri || !Uri.isReference uri.toList)

/-- The name of the attribute that says what blanks in an element are for. -/
def spaceName : WrittenName := ⟨some "xml", "space"⟩

/-- The faults of an attribute by itself. -/
def ofAttribute (name : WrittenName) (value : String) : List Fault :=
  errorIf (!name.isProper) ++
    match name.declares? with
    | some p => if p = "" then ofDefault value else ofPrefix p value
    | none => warningIf (name = spaceName && value ≠ "default" && value ≠ "preserve")

/-- The faults of prefixes in a tag: those that stand for nothing, and attributes with different
prefixes and the same expanded name. -/
def ofPrefixes (inner : Scope) (name : WrittenName) (attributes : WrittenAttributes) :
    List Fault :=
  let names := attributes.plain.map fun (n, _) =>
    (inner.attributeName? n).getD (Name.plain n.localName)
  attributes.plain.flatMap (fun (n, _) => errorIf (inner.attributeName? n).isNone)
    ++ List.replicate (names.length - names.eraseDups.length) (.plain .error)
    ++ errorIf (inner.elementName? name).isNone

/-- The name of the attribute that holds the identifier of an element. -/
def identifierName : WrittenName := ⟨some "xml", "id"⟩

def ofTag (scope : Scope) (name : String) (attributes : List (String × String)) : List Fault :=
  let name := WrittenName.ofString name
  let attributes := writtenAttributes attributes
  errorIf (!name.isProper)
    ++ attributes.flatMap (fun (n, value) => ofAttribute n value)
    ++ ofPrefixes (scope.inside attributes) name attributes
    ++ (attributes.filter (·.1 = identifierName)).map fun (_, value) => .identifier value

/-! ### Processing instructions -/

/-- The targets that start with `xml` and are in use. -/
def knownTargets : List String := ["xml-stylesheet", "xml-model"]

/-- The faults of a processing instruction. Targets that start with `xml` in any case are reserved,
and none should have a colon. -/
def ofInstruction (target : String) : List Fault :=
  if target ∈ knownTargets then []
  else
    warningIf ((target.toList.take 3).map Char.toLower = ['x', 'm', 'l'])
      ++ errorIf (target.toList.contains ':')

/-! ### Identifiers -/

/-- Whether the text can be an identifier: a name without a colon, perhaps with blanks around it. -/
def isIdentifier (value : String) : Bool :=
  let start := value.toList.dropWhile isSpace
  WrittenName.isPart (start.reverse.dropWhile isSpace).reverse

/-- The reports of faults. An identifier is reported if it is none, and if it is one of `taken`. -/
def reports (taken : List String) : List Fault → List Severity
  | [] => []
  | .plain severity :: rest => severity :: reports taken rest
  | .identifier value :: rest =>
    (if isIdentifier value then [] else [.error])
      ++ (if value ∈ taken then [.error] else [])
      ++ reports (value :: taken) rest

end Fault

namespace Node

mutual

/-- The faults in a node. -/
def faults (scope : Scope) : Node String → List Fault
  | .text _ => []
  | .comment _ => []
  | .instruction target _ => Fault.ofInstruction target
  | .element name attributes content =>
    Fault.ofTag scope name attributes
      ++ faultsOfContent (scope.inside (writtenAttributes attributes)) content

def faultsOfContent (scope : Scope) : List (Node String) → List Fault
  | [] => []
  | n :: ns => n.faults scope ++ faultsOfContent scope ns

end

/-- What is reported about a document with the given element. -/
def reports (scope : Scope) (root : Node String) : List Severity :=
  Fault.reports [] (root.faults scope)

end Node

end DocComment.Xml
