import DocComment.Proofs.CharClass
import DocComment.Proofs.QuotedText
import DocComment.Run.Listing

/-!
# Reading listings

Nothing that a line of a listing shows ends a line: what is printable does not, and all else is
written in letters, digits and backslashes. So a listing has one line for each run
(`splitLines_listing`). The column of the kinds has a fixed width and holds a space behind each
name, and quoted texts read back, so the runs can be read off their listing (`listing_determines`).
-/

namespace DocComment
namespace Text

/-- The characters that end a line. -/
def lineEndRanges : List (Nat × Nat) :=
  [(0xA, 0xD), (0x1C, 0x1E), (0x85, 0x85), (0x2028, 0x2029)]

def endsLine (c : Char) : Bool :=
  inRanges c.toNat lineEndRanges

/-- The lines of a text, without the characters that end them; `\r\n` ends one line. Behind the last
end of a line there is no other line. -/
def splitLines : List Char → List (List Char)
  | [] => []
  | '\r' :: '\n' :: rest => [] :: splitLines rest
  | c :: rest => if endsLine c then [] :: splitLines rest else consToFirst c (splitLines rest)

variable {c quote : Char} {s rest : List Char} {lines : List (List Char)}

/-! ### Where lines end -/

theorem splitLines_cons (h : endsLine c = false) :
    splitLines (c :: s) = consToFirst c (splitLines s) := by
  have hne : c ≠ '\r' := by
    rintro rfl
    exact absurd h (by decide)
  rw [splitLines, h]
  · exact if_neg Bool.false_ne_true
  · rintro rest rfl
    exact absurd rfl hne

theorem splitLines_append (h : ∀ c ∈ s, endsLine c = false) (rest : List Char) :
    splitLines (s ++ '\n' :: rest) = s :: splitLines rest := by
  induction s with
  | nil => rfl
  | cons c s ih =>
    obtain ⟨hc, hs⟩ := List.forall_mem_cons.1 h
    rw [List.cons_append, splitLines_cons hc, ih hs, consToFirst]

theorem splitLines_flatMap (h : ∀ line ∈ lines, ∀ c ∈ line, endsLine c = false) :
    splitLines (lines.flatMap (· ++ ['\n'])) = lines := by
  induction lines with
  | nil => rfl
  | cons line lines ih =>
    obtain ⟨hline, hlines⟩ := List.forall_mem_cons.1 h
    rw [List.flatMap_cons, List.append_assoc, List.singleton_append, splitLines_append hline,
      ih hlines]

/-! ### No line ends in quotes -/

theorem pairwise_printableRanges : printableRanges.Pairwise (·.1 ≤ ·.1) :=
  pairwise_of_isChain (by decide +kernel)

theorem pairwise_lineEndRanges : lineEndRanges.Pairwise (·.1 ≤ ·.1) :=
  pairwise_of_isChain (by decide)

theorem endsLine_of_isPrintable (h : isPrintable c = true) : endsLine c = false :=
  inRanges_of_apart pairwise_printableRanges pairwise_lineEndRanges (by decide +kernel) h

theorem endsLine_of_mem_hexDigits {width n : Nat} (h : c ∈ hexDigits width n) :
    endsLine c = false := by
  have hdigit : ∀ n < 16, endsLine (hexDigit n) = false := by decide
  induction width generalizing n with
  | zero => cases h
  | succ width ih =>
    rw [hexDigits, List.mem_append, List.mem_singleton] at h
    rcases h with h | rfl
    · exact ih h
    · exact hdigit _ (Nat.mod_lt _ (by decide))

theorem endsLine_of_mem_codePoint {mark d : Char} {width n : Nat} (hmark : endsLine mark = false)
    (h : d ∈ '\\' :: mark :: hexDigits width n) : endsLine d = false := by
  rw [List.mem_cons, List.mem_cons] at h
  rcases h with rfl | rfl | h
  · decide
  · exact hmark
  · exact endsLine_of_mem_hexDigits h

theorem endsLine_of_mem_escaped {d : Char} (hquote : quote = '\'' ∨ quote = '"')
    (h : d ∈ escaped quote c) : endsLine d = false := by
  have hletter : ∀ letter ∈ ['n', 'r', 't'], ∀ d ∈ ['\\', letter], endsLine d = false := by decide
  have hmark : ∀ mark ∈ ['\'', '"', '\\'], ∀ d ∈ ['\\', mark], endsLine d = false := by decide
  unfold escaped at h
  split at h
  · next hc =>
    refine hmark c ?_ d h
    rcases hc with rfl | rfl
    · rcases hquote with rfl | rfl <;> decide
    · decide
  split at h
  · exact hletter 'n' (by decide) d h
  split at h
  · exact hletter 'r' (by decide) d h
  split at h
  · exact hletter 't' (by decide) d h
  split at h
  · next hprintable =>
    rw [List.mem_singleton.1 h]
    exact endsLine_of_isPrintable hprintable
  split at h
  · exact endsLine_of_mem_codePoint (by decide) h
  split at h
  · exact endsLine_of_mem_codePoint (by decide) h
  · exact endsLine_of_mem_codePoint (by decide) h

theorem endsLine_of_mem_quoted {text : List Char} (h : c ∈ quoted text) : endsLine c = false := by
  have hquote := quoteFor_eq text
  have hends : endsLine (quoteFor text) = false := by
    rcases hquote with heq | heq <;> rw [heq] <;> decide
  rw [quoted, List.cons_append, List.mem_cons, List.mem_append, List.mem_flatMap,
    List.mem_singleton] at h
  rcases h with rfl | ⟨d, -, hd⟩ | rfl
  · exact hends
  · exact endsLine_of_mem_escaped hquote hd
  · exact hends

end Text

namespace Run

/-- The column that names a kind. -/
def kindColumn (k : RunKind) : List Char :=
  k.name.toList ++ List.replicate (kindWidth - k.name.toList.length) ' '

/-- The line that shows a run, without its end. -/
def shown (r : Run) : List Char :=
  kindColumn r.kind ++ Text.quoted r.text.toList

/-- The run that a line shows. -/
def ofLine? (line : List Char) : Option Run := do
  let kind ← RunKind.ofName? (String.ofList ((line.take kindWidth).takeWhile (· ≠ ' ')))
  let text ← Text.unquoted? (line.drop kindWidth)
  return ⟨kind, String.ofList text⟩

/-- The runs that a listing shows. -/
def ofListing? (s : String) : Option (List Run) :=
  (Text.splitLines s.toList).mapM ofLine?

theorem length_kindColumn (k : RunKind) : (kindColumn k).length = kindWidth := by
  cases k <;> decide

theorem takeWhile_kindColumn (k : RunKind) :
    (kindColumn k).takeWhile (· ≠ ' ') = k.name.toList := by
  cases k <;> decide

theorem endsLine_of_mem_kindColumn (k : RunKind) : ∀ c ∈ kindColumn k, Text.endsLine c = false := by
  cases k <;> decide

theorem endsLine_of_mem_shown (r : Run) : ∀ c ∈ r.shown, Text.endsLine c = false := by
  intro c hc
  rcases List.mem_append.1 hc with hc | hc
  · exact endsLine_of_mem_kindColumn r.kind c hc
  · exact Text.endsLine_of_mem_quoted hc

theorem toList_listing (runs : List Run) :
    (listing runs).toList = (runs.map shown).flatMap (· ++ ['\n']) := by
  rw [listing, String.toList_ofList, List.flatMap_map]
  rfl

theorem splitLines_listing (runs : List Run) :
    Text.splitLines (listing runs).toList = runs.map shown := by
  rw [toList_listing]
  refine Text.splitLines_flatMap fun line hline => ?_
  obtain ⟨r, -, rfl⟩ := List.mem_map.1 hline
  exact endsLine_of_mem_shown r

theorem ofLine?_shown (r : Run) : ofLine? r.shown = some r := by
  have hlength := length_kindColumn r.kind
  rw [ofLine?, shown, List.take_left' hlength, List.drop_left' hlength, takeWhile_kindColumn,
    String.ofList_toList, RunKind.ofName?_name, Text.unquoted?_quoted]
  show some (⟨r.kind, String.ofList r.text.toList⟩ : Run) = some r
  rw [String.ofList_toList]

theorem ofListing?_listing (runs : List Run) : ofListing? (listing runs) = some runs := by
  rw [ofListing?, splitLines_listing]
  induction runs with
  | nil => rfl
  | cons r runs ih =>
    rw [List.map_cons, List.mapM_cons, ofLine?_shown, ih]
    rfl

/-- A listing has one line for each run, in order: the name of its kind in a column, and its text in
quotes. All runs can be read off it, so no other runs have the same listing. -/
theorem listing_determines (runs : List Run) :
    Text.splitLines (listing runs).toList =
      runs.map (fun r => kindColumn r.kind ++ Text.quoted r.text.toList) ∧
    ofListing? (listing runs) = some runs ∧
    ∀ others, listing others = listing runs ↔ others = runs := by
  refine ⟨splitLines_listing runs, ofListing?_listing runs, fun others => ?_⟩
  refine ⟨fun h => ?_, congrArg listing⟩
  have hothers := ofListing?_listing others
  rw [h, ofListing?_listing] at hothers
  exact (Option.some.inj hothers).symm

example : listing [⟨.typeName, "it's\u2028"⟩, .space] =
    "type_name      \"it's\\u2028\"\nspace          ' '\n" := by
  decide +kernel

end Run

end DocComment
