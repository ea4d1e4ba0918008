/-!
# Line ends

A text may end its lines with a carriage return, a line feed or both. Readers of comments, symbol
files and environment files see line feeds only.
-/

namespace DocComment.Text

/-- The text with each line end, whether `\r\n`, `\r` or `\n`, written as `\n`. -/
def unixLines : List Char → List Char
  | [] => []
  | '\r' :: '\n' :: rest => '\n' :: unixLines rest
  | '\r' :: rest => '\n' :: unixLines rest
  | c :: rest => c :: unixLines rest

theorem not_mem_unixLines (s : List Char) : '\r' ∉ unixLines s := by
  fun_induction unixLines s with
  | case1 => simp
  | case2 rest ih => simp [ih]
  | case3 rest _ ih => simp [ih]
  | case4 c rest hne _ ih => simp [ih]; rintro rfl; simp_all

end DocComment.Text
