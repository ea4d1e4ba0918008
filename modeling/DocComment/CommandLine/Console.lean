import DocComment.Text.CellWidth
import DocComment.Text.Separated

/-!
# Text on a console

Plain text is written without the controls that move the cursor about, and with spaces for tabs.
-/

namespace DocComment.Console

/-- Whether a character is left out: the bell, the backspace, the vertical tab, the form feed
and the carriage return. -/
def isDropped (c : Char) : Bool :=
  c = '\x07' || c = '\x08' || c = '\x0b' || c = '\x0c' || c = '\r'

/-- The distance between the places where tabs end. -/
def tabWidth : Nat := 8

/-- The parts of a line between its tabs, joined again. A tab becomes one space, and as many more as
are missing up to the next place where tabs end. `column` is the number of cells taken so far. -/
def joinTabs (column : Nat) : List (List Char) → List Char
  | [] => []
  | [part] => part
  | part :: parts =>
    let reached := column + Text.textWidth (part ++ [' '])
    let missing := (tabWidth - reached % tabWidth) % tabWidth
    part ++ ' ' :: List.replicate missing ' ' ++ joinTabs (reached + missing) parts

def expandTabs (line : List Char) : List Char :=
  joinTabs 0 (Text.separated '\t' line)

/-- The text as it is written on the console. -/
def plain (s : String) : String :=
  let lines := Text.separated '\n' (s.toList.filter (!isDropped ·))
  String.ofList (['\n'].intercalate (lines.map expandTabs))

end DocComment.Console
