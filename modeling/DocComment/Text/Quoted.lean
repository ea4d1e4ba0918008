import DocComment.Text.Hex
import DocComment.Text.Printable

/-!
# Quoted text

A text is shown between single quotes, or between double quotes if it holds a single quote and no
double quote. The quote in use and the backslash follow a backslash; line feed, carriage return and
tab are `\n`, `\r` and `\t`; every other character that is not printable is `\xhh`, `\uhhhh` or
`\Uhhhhhhhh`, the shortest that holds its code point, in lower-case hexadecimal digits.
-/

namespace DocComment.Text

/-- A character inside quotes of the given kind. -/
def escaped (quote c : Char) : List Char :=
  if c = quote ∨ c = '\\' then ['\\', c]
  else if c = '\n' then ['\\', 'n']
  else if c = '\r' then ['\\', 'r']
  else if c = '\t' then ['\\', 't']
  else if isPrintable c then [c]
  else if c.toNat < 0x100 then '\\' :: 'x' :: hexDigits 2 c.toNat
  else if c.toNat < 0x10000 then '\\' :: 'u' :: hexDigits 4 c.toNat
  else '\\' :: 'U' :: hexDigits 8 c.toNat

/-- The quote that a text is put in. -/
def quoteFor (s : List Char) : Char :=
  if '\'' ∈ s ∧ '"' ∉ s then '"' else '\''

def quoted (s : List Char) : List Char :=
  quoteFor s :: s.flatMap (escaped (quoteFor s)) ++ [quoteFor s]

end DocComment.Text
