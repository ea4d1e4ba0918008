import DocComment.Run.Basic
import DocComment.Text.Quoted

/-!
# Listings

A listing shows each run on a line of its own: the name of its kind, filled up with spaces to a
fixed width, and its text in quotes.
-/

namespace DocComment.Run

/-- The width of the column that names the kinds. -/
def kindWidth : Nat := 15

def line (r : Run) : List Char :=
  let name := r.kind.name.toList
  name ++ List.replicate (kindWidth - name.length) ' ' ++ Text.quoted r.text.toList ++ ['\n']

/-- The lines that show runs. -/
def listing (runs : List Run) : String :=
  String.ofList (runs.flatMap line)

end DocComment.Run
