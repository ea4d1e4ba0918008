import DocComment.Text.Lines

/-!
# Files

What is found under the name of a file, and the text in it.
-/

namespace DocComment

/-- What is found under a name. -/
inductive FileEntry where
  | missing
  | directory
  | file (content : ByteArray)

/-- Why there is no text to read. -/
inductive ReadError where
  | missing
  | isDirectory
  | notUtf8
  deriving DecidableEq, Repr, Inhabited

def ReadError.message : ReadError → String
  | .missing => "there is no such file"
  | .isDirectory => "it is a directory"
  | .notUtf8 => "it is not encoded in UTF-8"

namespace FileEntry

/-- The text of bytes, with lines that end in line feeds. -/
def decode (content : ByteArray) : Except ReadError String :=
  match String.fromUTF8? content with
  | none => .error .notUtf8
  | some s => .ok (String.ofList (Text.unixLines s.toList))

def text : FileEntry → Except ReadError String
  | .missing => .error .missing
  | .directory => .error .isDirectory
  | .file content => decode content

end FileEntry

end DocComment
