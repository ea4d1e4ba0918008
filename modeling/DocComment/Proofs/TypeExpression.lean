import DocComment.Proofs.CharClass
import DocComment.Proofs.ParameterList
import DocComment.Proofs.WrittenArity
import DocComment.Symbol.TypeName

/-!
# Type expressions

The type of a parameter is a dotted name, a positional parameter, a generic type with its arguments
in braces, an array or a pointer. It is read by two scanners: one cuts lists of types by counting
braces and brackets, the other shows a type token by token and knows no nesting. Both agree with the
structure of the type: it closes what it opens, with its commas inside (`closed_written`), and it is
shown part by part (`shownText_written`).
-/

namespace DocComment

/-- A segment of the name of a type, which may be generic. -/
structure TypeSegment where
  first : Char
  rest : List Char := []
  arity : Option Arity.Written := none
  isNameStart : TypeName.isNameStart first = true := by decide
  isWord : ∀ c ∈ rest, Text.isWord c = true := by decide

namespace TypeSegment

def identifier (g : TypeSegment) : List Char :=
  g.first :: g.rest

def written (g : TypeSegment) : List Char :=
  g.identifier ++ (g.arity.map Arity.Written.text).getD []

end TypeSegment

structure QualifiedName where
  outer : List TypeSegment := []
  last : TypeSegment

namespace QualifiedName

def written (n : QualifiedName) : List Char :=
  ['.'].intercalate ((n.outer ++ [n.last]).map TypeSegment.written)

/-- The keyword of a framework type, otherwise the last segment without its arity. -/
def shown (n : QualifiedName) : String :=
  match TypeName.keywords.lookup (String.ofList n.written) with
  | some keyword => keyword
  | none => String.ofList n.last.identifier

/-- The run that shows a name. -/
def run (n : QualifiedName) : Run :=
  match TypeName.keywords.lookup (String.ofList n.written) with
  | some keyword => ⟨.keyword, keyword⟩
  | none => ⟨.typeName, String.ofList n.last.identifier⟩

end QualifiedName

/-- Whether `c` has no meaning in lists of types. -/
def isInert (c : Char) : Bool :=
  !Text.isBlank c && c ∉ [',', '[', ']', '\x7b', '\x7d', '(', ')', '~', '@']

/-- What an array says of one of its dimensions. -/
structure ArrayBound where
  text : List Char := []
  inert : ∀ c ∈ text, isInert c = true := by decide

inductive TypeExpr where
  | name (name : QualifiedName)
  /-- A type parameter of the type, or with two marks of the method. -/
  | parameter (position : Arity.Written)
  | constructed (name : QualifiedName) (arguments : List TypeExpr)
  | array (element : TypeExpr) (bounds : List ArrayBound)
  | pointer (pointee : TypeExpr)

namespace TypeExpr

mutual

def written : TypeExpr → List Char
  | .name n => n.written
  | .parameter position => position.text
  | .constructed n arguments =>
    n.written ++ '\x7b' :: ([','].intercalate (writtenAll arguments) ++ ['\x7d'])
  | .array element bounds =>
    element.written ++ '[' :: ([','].intercalate (bounds.map ArrayBound.text) ++ [']'])
  | .pointer pointee => pointee.written ++ ['*']

def writtenAll : List TypeExpr → List (List Char)
  | [] => []
  | e :: es => e.written :: writtenAll es

end

mutual

/-- How a type is meant to be shown. Of the bounds of an array only the commas stay. -/
def shown : TypeExpr → String
  | .name n => n.shown
  | .parameter position => (if position.double then "TM" else "T") ++ String.ofList position.digits
  | .constructed n arguments =>
    n.shown ++ "<" ++ ", ".intercalate (shownAll arguments) ++ ">"
  | .array element bounds =>
    element.shown ++ "[" ++ String.ofList (List.replicate (bounds.length - 1) ',') ++ "]"
  | .pointer pointee => pointee.shown ++ "*"

def shownAll : List TypeExpr → List String
  | [] => []
  | e :: es => e.shown :: shownAll es

end

end TypeExpr

/-! ### Characters of types -/

section
variable {c : Char}

theorem isInert_iff : isInert c = true ↔
    Text.isBlank c = false ∧ c ∉ [',', '[', ']', '\x7b', '\x7d', '(', ')', '~', '@'] := by
  simp [isInert]

theorem isInert_of_isNameChar (h : TypeName.isNameChar c = true) : isInert c = true := by
  refine isInert_iff.2 ⟨?_, fun hmem => ?_⟩
  · rcases Bool.or_eq_true_iff.1 h with h | h
    · exact Text.isBlank_of_isWord h
    · rw [of_decide_eq_true h]
      decide
  · have hnone : ∀ c ∈ [',', '[', ']', '\x7b', '\x7d', '(', ')', '~', '@'],
        TypeName.isNameChar c = false := by decide
    exact Bool.false_ne_true ((hnone c hmem).symm.trans h)

theorem TypeName.isNameChar_of_isWord (h : Text.isWord c = true) : isNameChar c = true :=
  Bool.or_eq_true_iff.2 (.inl h)

theorem TypeName.isNameChar_of_isNameStart (h : isNameStart c = true) : isNameChar c = true := by
  have hranges : Text.inRanges c.toNat [(65, 90), (95, 95), (97, 122)] = true := by
    rw [Text.inRanges_iff (by decide)]
    rcases Bool.or_eq_true_iff.1 h with halpha | hline
    · rcases Bool.or_eq_true_iff.1 halpha with hupper | hlower
      · exact ⟨(65, 90), by decide, of_decide_eq_true hupper⟩
      · obtain ⟨hlow, hhigh⟩ := Bool.and_eq_true_iff.1 hlower
        exact ⟨(97, 122), by decide, of_decide_eq_true hlow, of_decide_eq_true hhigh⟩
    · rw [of_decide_eq_true hline]
      decide
  exact isNameChar_of_isWord (Text.inRanges_of_covers (by decide) Text.pairwise_wordRanges
    (by decide +kernel) hranges)

theorem TypeName.isNameChar_of_mem_text (a : Arity.Written) (hc : c ∈ a.text) :
    isNameChar c = true := by
  rcases a.mem_text hc with rfl | hdigit
  · rfl
  · exact isNameChar_of_isWord (Text.isWord_of_isDigit hdigit)

theorem TypeSegment.isNameChar_of_mem_written (g : TypeSegment) (hc : c ∈ g.written) :
    TypeName.isNameChar c = true := by
  rw [written, List.mem_append, identifier, List.mem_cons] at hc
  rcases hc with (rfl | hc) | hc
  · exact TypeName.isNameChar_of_isNameStart g.isNameStart
  · exact TypeName.isNameChar_of_isWord (g.isWord c hc)
  · cases ha : g.arity with
    | none => rw [ha] at hc; cases hc
    | some a =>
      rw [ha] at hc
      exact TypeName.isNameChar_of_mem_text a hc

theorem QualifiedName.isInert_of_mem_written (n : QualifiedName) (hc : c ∈ n.written) :
    isInert c = true := by
  rcases Text.eq_or_mem_of_mem_intercalate hc with rfl | ⟨part, hpart, hc⟩
  · decide
  · obtain ⟨g, -, rfl⟩ := List.mem_map.1 hpart
    exact isInert_of_isNameChar (g.isNameChar_of_mem_written hc)

mutual

theorem TypeExpr.mem_written (e : TypeExpr) (hc : c ∈ e.written) :
    isInert c = true ∨ c ∈ [',', '[', ']', '\x7b', '\x7d'] := by
  cases e with
  | name n => exact .inl (n.isInert_of_mem_written hc)
  | parameter p => exact .inl (isInert_of_isNameChar (TypeName.isNameChar_of_mem_text p hc))
  | constructed n es =>
    simp only [written, List.mem_append, List.mem_cons, List.not_mem_nil, or_false] at hc
    rcases hc with hc | rfl | hc | rfl
    · exact .inl (n.isInert_of_mem_written hc)
    · exact .inr (by decide)
    · rcases Text.eq_or_mem_of_mem_intercalate hc with rfl | ⟨part, hpart, hc⟩
      · exact .inr (by decide)
      · exact mem_writtenAll es hpart hc
    · exact .inr (by decide)
  | array e bounds =>
    simp only [written, List.mem_append, List.mem_cons, List.not_mem_nil, or_false] at hc
    rcases hc with hc | rfl | hc | rfl
    · exact mem_written e hc
    · exact .inr (by decide)
    · rcases Text.eq_or_mem_of_mem_intercalate hc with rfl | ⟨part, hpart, hc⟩
      · exact .inr (by decide)
      · obtain ⟨bound, -, rfl⟩ := List.mem_map.1 hpart
        exact .inl (bound.inert c hc)
    · exact .inr (by decide)
  | pointer e =>
    simp only [written, List.mem_append, List.mem_singleton] at hc
    rcases hc with hc | rfl
    · exact mem_written e hc
    · exact .inl (by decide)

theorem TypeExpr.mem_writtenAll (es : List TypeExpr) {part : List Char}
    (hpart : part ∈ writtenAll es) (hc : c ∈ part) :
    isInert c = true ∨ c ∈ [',', '[', ']', '\x7b', '\x7d'] := by
  cases es with
  | nil => cases hpart
  | cons e es =>
    rcases List.mem_cons.1 hpart with rfl | hpart
    · exact mem_written e hc
    · exact mem_writtenAll es hpart hc

end

end

/-! ### Counting braces and brackets -/

namespace TypeExpr
open Parameters

variable {d : Int}

theorem step_of_isInert {c : Char} (h : isInert c = true) : step c = 0 ∧ c ≠ ',' := by
  have hmem := (isInert_iff.1 h).2
  simp only [List.mem_cons, List.not_mem_nil, or_false, not_or] at hmem
  obtain ⟨hcomma, hopen, hclose, hopen', hclose', -⟩ := hmem
  exact ⟨by simp [step, hopen, hclose, hopen', hclose'], hcomma⟩

theorem closedFrom_inert {t : List Char} (h : ∀ c ∈ t, isInert c = true) (s : List Char) :
    closedFrom d (t ++ s) = closedFrom d s :=
  closedFrom_append_plain (fun c hc => step_of_isInert (h c hc)) d s

theorem closedFrom_name (n : QualifiedName) (s : List Char) :
    closedFrom d (n.written ++ s) = closedFrom d s :=
  closedFrom_inert (fun _ hc => n.isInert_of_mem_written hc) s

theorem closedFrom_bounds (hd : 0 < d) (bounds : List ArrayBound) (s : List Char) :
    closedFrom d ([','].intercalate (bounds.map ArrayBound.text) ++ s) = closedFrom d s := by
  refine closedFrom_append (fun c hc => ?_) s
  rcases Text.eq_or_mem_of_mem_intercalate hc with rfl | ⟨part, hpart, hc⟩
  · exact ⟨rfl, fun _ => by omega⟩
  · obtain ⟨bound, -, rfl⟩ := List.mem_map.1 hpart
    obtain ⟨hstep, hcomma⟩ := step_of_isInert (bound.inert c hc)
    exact ⟨hstep, fun heq => absurd heq hcomma⟩

theorem closedFrom_comma (hd : d ≠ 0) (s : List Char) :
    closedFrom d (',' :: s) = closedFrom d s := by
  simp [closedFrom, step, hd]

theorem closedFrom_open {c : Char} (hc : c = '\x7b' ∨ c = '[') (s : List Char) :
    closedFrom d (c :: s) = closedFrom (d + 1) s := by
  rcases hc with rfl | rfl <;> simp [closedFrom, step]

theorem closedFrom_close {c : Char} (hc : c = '\x7d' ∨ c = ']') (s : List Char) :
    closedFrom (d + 1) (c :: s) = closedFrom d s := by
  have hdepth : d + 1 + -1 = d := by omega
  rcases hc with rfl | rfl <;> simp [closedFrom, step, hdepth]

-- Arguments are one level deeper than their type, where commas do not count: the depth is general.
mutual

theorem closedFrom_written (e : TypeExpr) {d : Int} (hd : 0 ≤ d) (s : List Char) :
    closedFrom d (e.written ++ s) = closedFrom d s := by
  cases e with
  | name n => exact closedFrom_name n s
  | parameter p =>
    refine closedFrom_inert (fun c hc => ?_) s
    exact isInert_of_isNameChar (TypeName.isNameChar_of_mem_text p hc)
  | constructed n es =>
    rw [written, List.append_assoc, closedFrom_name, List.cons_append, closedFrom_open (.inl rfl),
      List.append_assoc, closedFrom_writtenAll es (by omega), List.singleton_append,
      closedFrom_close (.inl rfl)]
  | array e bounds =>
    rw [written, List.append_assoc, closedFrom_written e hd, List.cons_append,
      closedFrom_open (.inr rfl), List.append_assoc, closedFrom_bounds (by omega),
      List.singleton_append, closedFrom_close (.inr rfl)]
  | pointer e =>
    rw [written, List.append_assoc, closedFrom_written e hd]
    simp [closedFrom, step]

theorem closedFrom_writtenAll (es : List TypeExpr) {d : Int} (hd : 0 < d) (s : List Char) :
    closedFrom d ([','].intercalate (writtenAll es) ++ s) = closedFrom d s := by
  match es with
  | [] => rfl
  | [e] =>
    rw [writtenAll, writtenAll, List.intercalate_singleton]
    exact closedFrom_written e (by omega) s
  | e :: next :: es =>
    have hrest := closedFrom_writtenAll (next :: es) hd s
    rw [writtenAll] at hrest ⊢
    rw [writtenAll, List.intercalate_cons_cons, List.append_assoc, List.append_assoc,
      closedFrom_written e (by omega), List.singleton_append, closedFrom_comma (by omega), hrest]

end

/-- What a type opens it closes, and its commas are inside. -/
theorem closed_written (e : TypeExpr) : Closed e.written := by
  have h := e.closedFrom_written (Int.le_refl 0) []
  rw [List.append_nil] at h
  exact closed_iff.2 (h.trans rfl)

end TypeExpr

/-! ### Reading tokens -/

namespace TypeName

variable {c : Char} {s t : List Char}

/-- A name cannot go on with `s`. -/
def NameEnds (s : List Char) : Prop :=
  ∀ c ∈ s.head?, isNameChar c = false ∧ c ≠ '.'

theorem nameEnds_nil : NameEnds [] := by
  intro c hc
  cases hc

theorem nameEnds_cons (h : isNameChar c = false ∧ c ≠ '.') (s : List Char) : NameEnds (c :: s) := by
  intro d hd
  obtain rfl := Option.some.inj hd
  exact h

theorem takeName_cons (h : isNameChar c = true) (s : List Char) :
    takeName (c :: s) = (c :: (takeName s).1, (takeName s).2) := by
  cases s with
  | nil => simp [takeName, h]
  | cons d s => rw [takeName, if_pos h]

theorem takeName_append (h : ∀ c ∈ t, isNameChar c = true) (s : List Char) :
    takeName (t ++ s) = (t ++ (takeName s).1, (takeName s).2) := by
  induction t with
  | nil => rfl
  | cons c t ih =>
    rw [List.cons_append, takeName_cons (h c (List.mem_cons_self ..)),
      ih fun c hc => h c (List.mem_cons_of_mem _ hc)]
    rfl

theorem takeName_dot (h : isNameStart c = true) (s : List Char) :
    takeName ('.' :: c :: s) = ('.' :: c :: (takeName s).1, (takeName s).2) := by
  rw [takeName, if_neg (by decide), if_pos ⟨rfl, h⟩]

theorem NameEnds.takeName_eq (h : NameEnds s) : takeName s = ([], s) := by
  match s with
  | [] => rfl
  | [c] =>
    have hc := (h c rfl).1
    rw [takeName, hc]
    rfl
  | c :: d :: s =>
    obtain ⟨hc, hdot⟩ := h c rfl
    rw [takeName, hc, if_neg Bool.false_ne_true, if_neg fun hd => hdot hd.1]

theorem NameEnds.head?_takeWhile_isDigit (h : NameEnds s) :
    s.takeWhile Text.isDigit = [] ∧ s.dropWhile Text.isDigit = s := by
  cases s with
  | nil => exact ⟨rfl, rfl⟩
  | cons c s =>
    have hc : ¬ Text.isDigit c = true := by
      intro hdigit
      have hname := isNameChar_of_isWord (Text.isWord_of_isDigit hdigit)
      exact Bool.false_ne_true ((h c rfl).1.symm.trans hname)
    exact ⟨List.takeWhile_cons_of_neg hc, List.dropWhile_cons_of_neg hc⟩

/-- Segments with dots between them are read as one name. -/
theorem exists_takeName (segments : List TypeSegment) (hne : segments ≠ []) :
    ∃ c t, ['.'].intercalate (segments.map TypeSegment.written) = c :: t ∧ isNameStart c = true ∧
      ∀ s, NameEnds s → takeName (t ++ s) = (t, s) := by
  induction segments with
  | nil => exact absurd rfl hne
  | cons g segments ih =>
    -- all that is behind the first character of a segment goes on with the name
    obtain ⟨u, hu⟩ : ∃ u, g.written = g.first :: u := ⟨_, rfl⟩
    have hchars : ∀ c ∈ u, isNameChar c = true :=
      fun c hc => g.isNameChar_of_mem_written (hu ▸ List.mem_cons_of_mem _ hc)
    cases segments with
    | nil =>
      refine ⟨g.first, u, by simp [hu], g.isNameStart, fun s hs => ?_⟩
      rw [takeName_append hchars, hs.takeName_eq, List.append_nil]
    | cons next segments =>
      obtain ⟨c, t, heq, hc, ht⟩ := ih (List.cons_ne_nil _ _)
      rw [List.map_cons] at heq
      refine ⟨g.first, u ++ '.' :: c :: t, ?_, g.isNameStart, fun s hs => ?_⟩
      · rw [List.map_cons, List.map_cons, List.intercalate_cons_cons, heq, hu]
        simp
      · rw [List.append_assoc, takeName_append hchars, List.cons_append, List.cons_append,
          takeName_dot hc, ht s hs]

theorem takeToken_name (h : isNameStart c = true) (s : List Char) :
    takeToken c s = (.name (c :: (takeName s).1), (takeName s).2) := by
  have hne (d : Char) (hd : isNameStart d = false) : c ≠ d := by
    rintro rfl
    exact Bool.false_ne_true (hd.symm.trans h)
  have hopen := hne '[' (by decide)
  have hmark := hne Arity.mark (by decide)
  unfold takeToken
  dsimp only
  rw [if_neg fun hc => hopen hc.1, if_neg fun hc => hmark hc.1, if_neg fun hc => hmark hc.1,
    if_pos h]

theorem takeToken_bounds (h : ']' ∉ t) (s : List Char) :
    takeToken '[' (t ++ ']' :: s) = (.bounds t, s) := by
  have hne : ∀ c ∈ t, decide (c ≠ ']') = true := by
    intro c hc
    rw [decide_eq_true_eq]
    rintro rfl
    exact h hc
  unfold takeToken
  dsimp only
  rw [if_pos ⟨rfl, by simp⟩, List.takeWhile_append_of_pos hne, List.dropWhile_append_of_pos hne]
  simp

theorem takeToken_parameter (p : Arity.Written) (h : NameEnds s) :
    ∃ c t, p.text = c :: t ∧ Text.isBlank c = false ∧
      takeToken c (t ++ s) =
        (if p.double then .methodParameter p.digits else .typeParameter p.digits, s) := by
  obtain ⟨htake, hdrop⟩ := h.head?_takeWhile_isDigit
  have htake' : (p.digits ++ s).takeWhile Text.isDigit = p.digits := by
    rw [List.takeWhile_append_of_pos p.isDigit, htake, List.append_nil]
  have hdrop' : (p.digits ++ s).dropWhile Text.isDigit = s := by
    rw [List.dropWhile_append_of_pos p.isDigit, hdrop]
  have hbracket : Arity.mark ≠ '[' := by decide
  unfold Arity.Written.text takeToken
  cases p.double with
  | true =>
    refine ⟨Arity.mark, Arity.mark :: p.digits, rfl, by decide, ?_⟩
    simp [htake', hdrop', hbracket, p.digits_ne_nil]
  | false =>
    refine ⟨Arity.mark, p.digits, rfl, by decide, ?_⟩
    have hhead : p.digits.head? ≠ some Arity.mark := by
      intro hmark
      have hdigit := p.isDigit _ (List.mem_of_head? hmark)
      exact Bool.false_ne_true (Arity.isDigit_mark.symm.trans hdigit)
    simp [htake', hdrop', hbracket, hhead, p.digits_ne_nil]

/-! ### Showing tokens -/

/-- The runs that show a text, token by token. -/
def shownRuns (s : List Char) : List Run :=
  (tokens s).flatMap Token.runs

/-- What a text is shown as, token by token. -/
def shownText (s : List Char) : String :=
  Run.textOf ((tokens s).flatMap Token.runs)

theorem textOf_shownRuns (s : List Char) : Run.textOf (shownRuns s) = shownText s := rfl

theorem shownRuns_nil : shownRuns [] = [] := by
  rw [shownRuns, tokens]
  rfl

theorem shownRuns_cons (h : Text.isBlank c = false) (s : List Char) :
    shownRuns (c :: s) = (takeToken c s).1.runs ++ shownRuns (takeToken c s).2 := by
  rw [shownRuns, tokens, h, if_neg Bool.false_ne_true, List.flatMap_cons]
  rfl

theorem shownRuns_comma (s : List Char) :
    shownRuns (',' :: s) = [Run.punctuation ",", Run.space] ++ shownRuns s :=
  shownRuns_cons (by decide) s

theorem shownRuns_open (s : List Char) :
    shownRuns ('\x7b' :: s) = Run.punctuation "<" :: shownRuns s :=
  shownRuns_cons (by decide) s

theorem shownRuns_close (s : List Char) :
    shownRuns ('\x7d' :: s) = Run.punctuation ">" :: shownRuns s :=
  shownRuns_cons (by decide) s

theorem shownRuns_star (s : List Char) :
    shownRuns ('*' :: s) = Run.punctuation "*" :: shownRuns s :=
  shownRuns_cons (by decide) s

theorem shownText_nil : shownText [] = "" := by
  rw [← textOf_shownRuns, shownRuns_nil, Run.textOf_nil]

theorem shownText_of_cons {r : Run} (h : shownRuns s = r :: shownRuns t) :
    shownText s = r.text ++ shownText t := by
  rw [← textOf_shownRuns, h, Run.textOf_cons, textOf_shownRuns]

theorem shownText_comma (s : List Char) : shownText (',' :: s) = ", " ++ shownText s := by
  rw [← textOf_shownRuns, shownRuns_comma, Run.textOf_append, textOf_shownRuns]
  rfl

theorem shownText_open (s : List Char) : shownText ('\x7b' :: s) = "<" ++ shownText s :=
  shownText_of_cons (shownRuns_open s)

theorem shownText_close (s : List Char) : shownText ('\x7d' :: s) = ">" ++ shownText s :=
  shownText_of_cons (shownRuns_close s)

theorem shownText_star (s : List Char) : shownText ('*' :: s) = "*" ++ shownText s :=
  shownText_of_cons (shownRuns_star s)

end TypeName

theorem TypeSegment.strip_written (g : TypeSegment) : Arity.strip g.written = g.identifier := by
  have hmark : Arity.mark ∉ g.identifier := by
    intro hmem
    rcases List.mem_cons.1 hmem with heq | hmem
    · have hstart := g.isNameStart
      rw [← heq] at hstart
      revert hstart
      decide
    · have hword := g.isWord _ hmem
      revert hword
      decide
  exact Arity.strip_append_getD hmark g.arity

namespace QualifiedName
open DocComment.TypeName

variable (n : QualifiedName)

theorem simpleName_written : simpleName n.written = String.ofList n.last.identifier := by
  have hdot : ∀ part ∈ (n.outer ++ [n.last]).map TypeSegment.written, '.' ∉ part := by
    intro part hpart hmem
    obtain ⟨g, -, rfl⟩ := List.mem_map.1 hpart
    have hname := g.isNameChar_of_mem_written hmem
    revert hname
    decide
  rw [simpleName, written, Text.separated_intercalate (by simp) hdot]
  simp [n.last.strip_written]

theorem text_run : n.run.text = n.shown := by
  rw [run, shown]
  split <;> rfl

theorem runs_name : (Token.name n.written).runs = [n.run] := by
  rw [Token.runs, run]
  cases keywords.lookup (String.ofList n.written) with
  | none => rw [← simpleName_written]
  | some keyword => rfl

theorem shownRuns_written {s : List Char} (h : NameEnds s) :
    shownRuns (n.written ++ s) = n.run :: shownRuns s := by
  obtain ⟨c, t, heq, hc, ht⟩ := exists_takeName (n.outer ++ [n.last]) (by simp)
  change n.written = c :: t at heq
  have hblank : Text.isBlank c = false :=
    (isInert_iff.1 (isInert_of_isNameChar (isNameChar_of_isNameStart hc))).1
  rw [heq, List.cons_append, shownRuns_cons hblank, takeToken_name hc, ht s h, ← heq, runs_name]
  rfl

theorem shownText_written {s : List Char} (h : NameEnds s) :
    shownText (n.written ++ s) = n.shown ++ shownText s := by
  rw [shownText_of_cons (n.shownRuns_written h), text_run]

end QualifiedName

namespace TypeExpr
open DocComment.TypeName

theorem shownRuns_parameter (p : Arity.Written) {s : List Char} (h : NameEnds s) :
    shownRuns (p.text ++ s) =
      ⟨.typeName, (if p.double then "TM" else "T") ++ String.ofList p.digits⟩ :: shownRuns s := by
  obtain ⟨c, t, heq, hblank, htoken⟩ := takeToken_parameter p h
  rw [heq, List.cons_append, shownRuns_cons hblank, htoken]
  cases p.double <;> rfl

theorem written_ne_nil (e : TypeExpr) : e.written ≠ [] := by
  cases e with
  | name n =>
    obtain ⟨c, t, heq, -⟩ := exists_takeName (n.outer ++ [n.last]) (by simp)
    exact ne_of_eq_of_ne heq (List.cons_ne_nil c t)
  | parameter p =>
    obtain ⟨c, t, heq, -⟩ := takeToken_parameter p nameEnds_nil
    exact ne_of_eq_of_ne heq (List.cons_ne_nil c t)
  | constructed n es => simp [written]
  | array e bounds => simp [written]
  | pointer e => simp [written]

theorem filter_bounds (bounds : List ArrayBound) :
    ([','].intercalate (bounds.map ArrayBound.text)).filter (· = ',') =
      List.replicate (bounds.length - 1) ',' := by
  have hbound : ∀ bound : ArrayBound, bound.text.filter (· = ',') = [] := by
    intro bound
    refine List.filter_eq_nil_iff.2 fun c hc hcomma => ?_
    exact (step_of_isInert (bound.inert c hc)).2 (of_decide_eq_true hcomma)
  match bounds with
  | [] => rfl
  | [bound] => simp [hbound]
  | bound :: next :: bounds =>
    have ih := filter_bounds (next :: bounds)
    rw [List.map_cons] at ih
    rw [List.map_cons, List.map_cons, List.intercalate_cons_cons, List.filter_append,
      List.filter_append, hbound, ih]
    rfl

theorem not_mem_bounds (bounds : List ArrayBound) :
    ']' ∉ [','].intercalate (bounds.map ArrayBound.text) := by
  intro hmem
  rcases Text.eq_or_mem_of_mem_intercalate hmem with h | ⟨part, hpart, hc⟩
  · exact absurd h (by decide)
  · obtain ⟨bound, -, rfl⟩ := List.mem_map.1 hpart
    have hinert := bound.inert _ hc
    revert hinert
    decide

theorem shownRuns_bounds (bounds : List ArrayBound) (s : List Char) :
    shownRuns ('[' :: ([','].intercalate (bounds.map ArrayBound.text) ++ ']' :: s)) =
      Run.punctuation (String.ofList ('[' :: List.replicate (bounds.length - 1) ',' ++ [']'])) ::
        shownRuns s := by
  rw [shownRuns_cons (by decide), takeToken_bounds (not_mem_bounds bounds)]
  dsimp only
  rw [Token.runs, filter_bounds]
  rfl

theorem shownText_bounds (bounds : List ArrayBound) (s : List Char) :
    shownText ('[' :: ([','].intercalate (bounds.map ArrayBound.text) ++ ']' :: s)) =
      "[" ++ String.ofList (List.replicate (bounds.length - 1) ',') ++ "]" ++ shownText s := by
  rw [shownText_of_cons (shownRuns_bounds bounds s)]
  refine congrArg (· ++ shownText s) ?_
  apply String.toList_inj.1
  simp [Run.punctuation]

mutual

/-- A type is shown part by part, whatever follows that does not go on with a name. -/
theorem shownText_written (e : TypeExpr) {s : List Char} (h : NameEnds s) :
    shownText (e.written ++ s) = e.shown ++ shownText s := by
  cases e with
  | name n => exact n.shownText_written h
  | parameter p => exact shownText_of_cons (shownRuns_parameter p h)
  | constructed n es =>
    -- no name goes on with a brace, nor with the comma behind an argument
    have hopen := nameEnds_cons (c := '\x7b') (by decide)
    have hclose := nameEnds_cons (c := '\x7d') (by decide)
    rw [written, List.append_assoc, List.cons_append, n.shownText_written (hopen _),
      shownText_open, List.append_assoc, List.singleton_append,
      shownText_writtenAll es (hclose _), shownText_close, shown]
    simp only [String.append_assoc]
  | array e bounds =>
    have hopen := nameEnds_cons (c := '[') (by decide)
    rw [written, List.append_assoc, List.cons_append, shownText_written e (hopen _),
      List.append_assoc, List.singleton_append, shownText_bounds, shown]
    simp only [String.append_assoc]
  | pointer e =>
    have hstar := nameEnds_cons (c := '*') (by decide)
    rw [written, List.append_assoc, List.singleton_append, shownText_written e (hstar _),
      shownText_star, shown, String.append_assoc]

theorem shownText_writtenAll (es : List TypeExpr) {s : List Char} (h : NameEnds s) :
    shownText ([','].intercalate (writtenAll es) ++ s) =
      ", ".intercalate (shownAll es) ++ shownText s := by
  match es with
  | [] => exact (String.empty_append).symm
  | [e] =>
    rw [writtenAll, writtenAll, List.intercalate_singleton, shownAll, shownAll,
      String.intercalate_singleton]
    exact shownText_written e h
  | e :: next :: es =>
    have hcomma := nameEnds_cons (c := ',') (by decide)
    have hrest := shownText_writtenAll (next :: es) h
    rw [writtenAll, shownAll] at hrest ⊢
    rw [writtenAll, shownAll, List.intercalate_cons_cons, List.append_assoc, List.append_assoc,
      List.singleton_append, shownText_written e (hcomma _), shownText_comma, hrest,
      String.intercalate_cons_cons]
    simp only [String.append_assoc]

end

end TypeExpr

end DocComment
