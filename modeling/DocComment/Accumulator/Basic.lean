import DocComment.Run.Basic

/-!
# Accumulating runs

An accumulator collects the runs of a comment. White space is not written when it is met: a
space or a paragraph break is only marked, and comes out in front of the next content. So
nothing comes out at the start or at the end, and empty paragraphs leave no trace.
-/

namespace DocComment

/-- The runs collected so far, and the white space that waits for more content. -/
structure Accumulator where
  /-- The text of one line break; a paragraph break is two of them. -/
  lineBreak : String := "\r\n"
  runs : List Run := []
  /-- Whether there has been content since the last boundary of a paragraph. -/
  hasContent : Bool := false
  pendingBreak : Bool := false
  pendingSpace : Bool := false
  deriving DecidableEq, Repr, Inhabited

namespace Accumulator

/-- Whether no run has come out yet. -/
def atBeginning (a : Accumulator) : Bool :=
  a.runs.isEmpty

def breakRun (a : Accumulator) : Run :=
  ⟨.lineBreak, a.lineBreak⟩

/-- The runs that come out in front of the next content. A paragraph break takes the place of a
space. -/
def separator (a : Accumulator) : List Run :=
  if a.pendingBreak then [a.breakRun, a.breakRun]
  else if a.pendingSpace then [Run.space]
  else []

def appendSpace (a : Accumulator) : Accumulator :=
  { a with pendingSpace := true }

/-- Adds content, after the white space that waits for it. -/
def appendRuns (a : Accumulator) (content : List Run) : Accumulator :=
  { a with
    runs := a.runs ++ a.separator ++ content
    hasContent := true
    pendingBreak := false
    pendingSpace := false }

def appendText (a : Accumulator) (s : String) : Accumulator :=
  a.appendRuns [Run.plain s]

/-- Marks the boundary of a paragraph, and says whether that asks for a new break. There has to be
content since the last boundary. -/
def markBoundary (a : Accumulator) : Accumulator × Bool :=
  if a.hasContent then ({ a with pendingBreak := true, hasContent := false }, true)
  else (a, false)

/-- Opens a paragraph. If that asks for a break, the number of runs so far is the paragraph's token;
otherwise it has none. -/
def beginParagraph (a : Accumulator) : Accumulator × Option Nat :=
  let (a, asked) := a.markBoundary
  (a, if asked then some a.runs.length else none)

/-- Closes the paragraph with the given token. A paragraph without content takes back the break that
its opening asked for. -/
def endParagraph (a : Accumulator) (token : Option Nat) : Accumulator :=
  if token = some a.runs.length then { a with pendingBreak := false, hasContent := true }
  else a.markBoundary.1

def text (a : Accumulator) : String :=
  Run.textOf a.runs

end Accumulator

end DocComment
