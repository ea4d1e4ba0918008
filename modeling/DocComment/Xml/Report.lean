/-!
# Reports

Some faults leave a document readable, and are only reported: errors in names, in namespaces and in
identifiers of elements, and warnings. What decides about the document is the last report that is
heard: it is refused after an error, and accepted after a warning, whatever was reported before.
-/

namespace DocComment.Xml

/-- How grave a report is. -/
inductive Severity where
  | warning
  | error
  deriving DecidableEq, Repr, Inhabited

/-- How many warnings, and how many errors, are heard. -/
def maxHeard : Nat := 100

/-- The last report that is heard. `warnings` and `errors` of them have been heard before, and
`last` is the last of these. -/
def lastHeardFrom (warnings errors : Nat) (last : Option Severity) :
    List Severity → Option Severity
  | [] => last
  | .warning :: rest =>
    if warnings < maxHeard then lastHeardFrom (warnings + 1) errors (some .warning) rest
    else lastHeardFrom warnings errors last rest
  | .error :: rest =>
    if errors < maxHeard then lastHeardFrom warnings (errors + 1) (some .error) rest
    else lastHeardFrom warnings errors last rest

def lastHeard (reports : List Severity) : Option Severity :=
  lastHeardFrom 0 0 none reports

/-- Whether a document with these reports is accepted. -/
def tolerates (reports : List Severity) : Bool :=
  lastHeard reports ≠ some .error

theorem tolerates_nil : tolerates [] = true := rfl

end DocComment.Xml
