import DocComment.Accumulator.Basic
import DocComment.Text.Blank

/-!
# Text nodes

A text node adds its words with single spaces between them. Blanks at its two ends become spaces
that it shares with its neighbours; blanks in front of all output are dropped.
-/

namespace DocComment.Accumulator

/-- Reads the rest of a text node. `written` are the characters of the node to come out so far, last
one first; `gap` says that blanks have been read that have not come out as a space yet. -/
def scanText (a : Accumulator) (written : List Char) (gap : Bool) : List Char → Accumulator
  | [] =>
    let a := if written = [] then a else a.appendText (String.ofList written.reverse)
    if gap then a.appendSpace else a
  | c :: rest =>
    if Text.isBlank c then
      scanText a written (gap || !a.atBeginning || written ≠ []) rest
    else if gap then
      if written = [] then scanText a.appendSpace [c] false rest
      else scanText a (c :: ' ' :: written) false rest
    else scanText a (c :: written) false rest

def appendTextNode (a : Accumulator) (raw : String) : Accumulator :=
  a.scanText [] false raw.toList

end DocComment.Accumulator
