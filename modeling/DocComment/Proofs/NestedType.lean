import DocComment.Proofs.TypeExpression

/-!
# Types nested in constructed types

In the type of a parameter, the name of a nested type may stand behind the arguments of the type
that it is nested in. The dot between the two is then part of no name, and as a sign by itself it is
shown by a name of no characters. `runs_written`: such a type is shown as it is meant to be, except
that an empty run stands for each of these dots.
-/

namespace DocComment

mutual

/-- A generic type with its arguments, which may be nested in another one. -/
inductive ConstructedType where
  | named (name : QualifiedName) (arguments : List NestingExpr)
  | nested (outer : ConstructedType) (name : QualifiedName) (arguments : List NestingExpr)

/-- A type as in `TypeExpr`, or nested in a constructed one. -/
inductive NestingExpr where
  | name (name : QualifiedName)
  | parameter (position : Arity.Written)
  | constructed (type : ConstructedType)
  /-- A type without arguments, nested in one that has some. -/
  | inner (outer : ConstructedType) (name : QualifiedName)
  | array (element : NestingExpr) (bounds : List ArrayBound)
  | pointer (pointee : NestingExpr)

end

/-! ### Types in IDs -/

/-- The arguments of a generic type as they are written in an ID. -/
def braced (arguments : List (List Char)) : List Char :=
  '\x7b' :: ([','].intercalate arguments ++ ['\x7d'])

mutual

def ConstructedType.written : ConstructedType → List Char
  | .named n arguments => n.written ++ braced (NestingExpr.writtenAll arguments)
  | .nested outer n arguments =>
    outer.written ++ '.' :: (n.written ++ braced (NestingExpr.writtenAll arguments))

def NestingExpr.written : NestingExpr → List Char
  | .name n => n.written
  | .parameter position => position.text
  | .constructed type => type.written
  | .inner outer n => outer.written ++ '.' :: n.written
  | .array element bounds =>
    element.written ++ '[' :: ([','].intercalate (bounds.map ArrayBound.text) ++ [']'])
  | .pointer pointee => pointee.written ++ ['*']

def NestingExpr.writtenAll : List NestingExpr → List (List Char)
  | [] => []
  | e :: es => e.written :: NestingExpr.writtenAll es

end

/-! ### Types as they are shown -/

/-- Runs that show a type. Where the dot in front of a nested type belongs, there is no run. -/
abbrev Pieces := List (Option Run)

namespace Pieces

/-- The runs with `dot` in each of the places for one. -/
def filled (dot : Run) (ps : Pieces) : List Run :=
  ps.map (·.getD dot)

/-- The places for a dot. -/
def dots (ps : Pieces) : Nat :=
  ps.count none

/-- Parts with a comma between them. -/
def listed (parts : List Pieces) : Pieces :=
  [some (Run.punctuation ","), some Run.space].intercalate parts

/-- The arguments of a generic type as they are shown. -/
def angled (arguments : List Pieces) : Pieces :=
  some (Run.punctuation "<") :: (listed arguments ++ [some (Run.punctuation ">")])

end Pieces

mutual

def ConstructedType.pieces : ConstructedType → Pieces
  | .named n arguments => some n.run :: Pieces.angled (NestingExpr.piecesAll arguments)
  | .nested outer n arguments =>
    outer.pieces ++ none :: some n.run :: Pieces.angled (NestingExpr.piecesAll arguments)

def NestingExpr.pieces : NestingExpr → Pieces
  | .name n => [some n.run]
  | .parameter position =>
    [some ⟨.typeName, (if position.double then "TM" else "T") ++ String.ofList position.digits⟩]
  | .constructed type => type.pieces
  | .inner outer n => outer.pieces ++ [none, some n.run]
  | .array element bounds =>
    element.pieces ++ [some (Run.punctuation
      (String.ofList ('[' :: List.replicate (bounds.length - 1) ',' ++ [']'])))]
  | .pointer pointee => pointee.pieces ++ [some (Run.punctuation "*")]

def NestingExpr.piecesAll : List NestingExpr → List Pieces
  | [] => []
  | e :: es => e.pieces :: NestingExpr.piecesAll es

end

/-- A parameter whose type may be nested in a constructed one. -/
structure NestingParameter where
  type : NestingExpr
  byReference : Bool := false

namespace NestingParameter

def written (p : NestingParameter) : String :=
  String.ofList (p.type.written ++ if p.byReference then ['@'] else [])

def pieces (p : NestingParameter) : Pieces :=
  (if p.byReference then [some ⟨.keyword, "ref"⟩, some Run.space] else []) ++ p.type.pieces

end NestingParameter

/-! ### Places for dots -/

namespace Pieces

variable {ps ps' : Pieces} {dot : Run}

theorem filled_append (ps ps' : Pieces) :
    filled dot (ps ++ ps') = filled dot ps ++ filled dot ps' :=
  List.map_append

/-- Every run that is there has a text. -/
def Visible (ps : Pieces) : Prop :=
  ∀ r, some r ∈ ps → r.text ≠ ""

namespace Visible

theorem nil : Visible [] :=
  fun _ h => absurd h List.not_mem_nil

theorem cons {r : Run} (h : r.text ≠ "") (hps : Visible ps) : Visible (some r :: ps) := by
  intro r' hr'
  rcases List.mem_cons.1 hr' with heq | hr'
  · rw [Option.some.inj heq]
    exact h
  · exact hps r' hr'

theorem cons_none (hps : Visible ps) : Visible (none :: ps) := by
  intro r hr
  rcases List.mem_cons.1 hr with heq | hr
  · cases heq
  · exact hps r hr

theorem append (h : Visible ps) (h' : Visible ps') : Visible (ps ++ ps') := by
  intro r hr
  rcases List.mem_append.1 hr with hr | hr
  · exact h r hr
  · exact h' r hr

theorem listed {parts : List Pieces} (h : ∀ ps ∈ parts, Visible ps) :
    Visible (Pieces.listed parts) := by
  match parts with
  | [] => exact nil
  | [ps] => simpa [Pieces.listed] using h
  | ps :: next :: parts =>
    have ih := listed fun ps' hps' => h ps' (List.mem_cons_of_mem ps hps')
    have hspace := nil.cons (r := Run.space) (by decide)
    have hcomma := hspace.cons (r := Run.punctuation ",") (by decide)
    rw [Pieces.listed, List.intercalate_cons_cons]
    exact ((h ps (List.mem_cons_self ..)).append hcomma).append ih

theorem angled {arguments : List Pieces} (h : ∀ ps ∈ arguments, Visible ps) :
    Visible (Pieces.angled arguments) := by
  have hclose := nil.cons (r := Run.punctuation ">") (by decide)
  exact ((listed h).append hclose).cons (by decide)

theorem text_ne_empty (h : Visible ps) (hdot : dot.text ≠ "") :
    ∀ r ∈ ps.filled dot, r.text ≠ "" := by
  intro r hr
  obtain ⟨piece, hpiece, rfl⟩ := List.mem_map.1 hr
  cases piece with
  | none => exact hdot
  | some r => exact h r hpiece

theorem countP_filled (h : Visible ps) (hdot : dot.text = "") :
    (ps.filled dot).countP (·.text = "") = ps.dots := by
  rw [filled, List.countP_map, dots, List.count]
  refine List.countP_congr fun piece hpiece => ?_
  cases piece with
  | none => simp [hdot]
  | some r => simp [h r hpiece]

end Visible

/-- The text misses the dots whose places are left empty. -/
theorem length_textOf_filled (hdot : dot.text = "") :
    (Run.textOf (ps.filled dot)).length + ps.dots = (Run.textOf (ps.filled Run.dot)).length := by
  induction ps with
  | nil => rfl
  | cons piece ps ih =>
    rw [filled, filled, List.map_cons, List.map_cons, Run.textOf_cons, Run.textOf_cons,
      String.length_append, String.length_append]
    rw [filled, filled] at ih
    cases piece with
    | none =>
      have hone : Run.dot.text.length = 1 := rfl
      simp only [Option.getD_none, hdot, hone, dots, List.count_cons_self, String.length_empty]
      rw [dots] at ih
      omega
    | some r =>
      simp only [Option.getD_some, dots, List.count_cons_of_ne (Option.some_ne_none r)]
      rw [dots] at ih
      omega

end Pieces

/-! ### Reading tokens -/

namespace TypeName

/-- What shows a dot that is part of no name. -/
def loneDot : Run := ⟨.typeName, ""⟩

theorem shownRuns_dot (s : List Char) : shownRuns ('.' :: s) = loneDot :: shownRuns s :=
  shownRuns_cons (by decide) s

theorem text_ne_empty_of_mem_keywords : ∀ p ∈ keywords, p.2 ≠ "" := by decide

end TypeName

theorem QualifiedName.text_run_ne_empty (n : QualifiedName) : n.run.text ≠ "" := by
  rw [run]
  split
  · next keyword h =>
    obtain ⟨_, _, heq, -⟩ := List.lookup_eq_some_iff.1 h
    have hmem : (_, keyword) ∈ TypeName.keywords :=
      heq ▸ List.mem_append_right _ (List.mem_cons_self ..)
    exact TypeName.text_ne_empty_of_mem_keywords _ hmem
  · intro h
    have hnil := congrArg String.toList h
    rw [String.toList_ofList] at hnil
    cases hnil

namespace NestingExpr
open DocComment.TypeName Pieces

/-- No name goes on with the brace behind the arguments, nor with the one in front of them. -/
theorem shownRuns_braced {parts : List (List Char)} {shown : List Pieces}
    (h : ∀ s, NameEnds s → shownRuns ([','].intercalate parts ++ s) =
      filled loneDot (listed shown) ++ shownRuns s) (n : QualifiedName) (s : List Char) :
    shownRuns (n.written ++ braced parts ++ s) =
      filled loneDot (some n.run :: angled shown) ++ shownRuns s := by
  have hopen := nameEnds_cons (c := '\x7b') (by decide)
  have hclose := nameEnds_cons (c := '\x7d') (by decide)
  rw [braced, List.append_assoc, List.cons_append, n.shownRuns_written (hopen _), shownRuns_open,
    List.append_assoc, List.singleton_append, h _ (hclose s), shownRuns_close]
  simp [filled, angled]

-- Behind its arguments a type has ended, whatever follows; elsewhere a name must not go on.
mutual

theorem shownRuns_constructed (type : ConstructedType) (s : List Char) :
    shownRuns (type.written ++ s) = filled loneDot type.pieces ++ shownRuns s := by
  cases type with
  | named n es =>
    exact shownRuns_braced (fun s hs => shownRuns_writtenAll es hs) n s
  | nested outer n es =>
    have hinner := shownRuns_braced (fun s hs => shownRuns_writtenAll es hs) n s
    rw [ConstructedType.written, List.append_assoc, shownRuns_constructed outer, List.cons_append,
      shownRuns_dot, hinner, ConstructedType.pieces, filled_append, List.append_assoc]
    rfl

theorem shownRuns_written (e : NestingExpr) {s : List Char} (h : NameEnds s) :
    shownRuns (e.written ++ s) = filled loneDot e.pieces ++ shownRuns s := by
  cases e with
  | name n => exact n.shownRuns_written h
  | parameter p => exact TypeExpr.shownRuns_parameter p h
  | constructed type => exact shownRuns_constructed type s
  | inner outer n =>
    rw [written, List.append_assoc, shownRuns_constructed outer, List.cons_append, shownRuns_dot,
      n.shownRuns_written h, pieces, filled_append, List.append_assoc]
    rfl
  | array e bounds =>
    have hopen := nameEnds_cons (c := '[') (by decide)
    rw [written, List.append_assoc, List.cons_append, shownRuns_written e (hopen _),
      List.append_assoc, List.singleton_append, TypeExpr.shownRuns_bounds, pieces, filled_append,
      List.append_assoc]
    rfl
  | pointer e =>
    have hstar := nameEnds_cons (c := '*') (by decide)
    rw [written, List.append_assoc, List.singleton_append, shownRuns_written e (hstar _),
      shownRuns_star, pieces, filled_append, List.append_assoc]
    rfl

theorem shownRuns_writtenAll (es : List NestingExpr) {s : List Char} (h : NameEnds s) :
    shownRuns ([','].intercalate (writtenAll es) ++ s) =
      filled loneDot (listed (piecesAll es)) ++ shownRuns s := by
  match es with
  | [] => rfl
  | [e] =>
    rw [writtenAll, writtenAll, List.intercalate_singleton, piecesAll, piecesAll, listed,
      List.intercalate_singleton]
    exact shownRuns_written e h
  | e :: next :: es =>
    have hcomma := nameEnds_cons (c := ',') (by decide)
    have hrest := shownRuns_writtenAll (next :: es) h
    rw [writtenAll, piecesAll, listed] at hrest
    rw [writtenAll, writtenAll, piecesAll, piecesAll, listed, List.intercalate_cons_cons,
      List.append_assoc, List.append_assoc, List.singleton_append, shownRuns_written e (hcomma _),
      shownRuns_comma, hrest, List.intercalate_cons_cons, filled_append, filled_append]
    simp only [List.append_assoc]
    rfl

end

mutual

theorem visible_constructed (type : ConstructedType) : Visible type.pieces := by
  cases type with
  | named n es => exact (Visible.angled (visible_piecesAll es)).cons n.text_run_ne_empty
  | nested outer n es =>
    have hinner := (Visible.angled (visible_piecesAll es)).cons n.text_run_ne_empty
    exact (visible_constructed outer).append hinner.cons_none

theorem visible_pieces (e : NestingExpr) : Visible e.pieces := by
  cases e with
  | name n => exact Visible.nil.cons n.text_run_ne_empty
  | parameter p => exact Visible.nil.cons (by cases p.double <;> simp)
  | constructed type => exact visible_constructed type
  | inner outer n =>
    exact (visible_constructed outer).append (Visible.nil.cons n.text_run_ne_empty).cons_none
  | array e bounds => exact (visible_pieces e).append (Visible.nil.cons (by simp [Run.punctuation]))
  | pointer e => exact (visible_pieces e).append (Visible.nil.cons (by decide))

theorem visible_piecesAll (es : List NestingExpr) : ∀ ps ∈ piecesAll es, Visible ps := by
  cases es with
  | nil => exact fun _ h => absurd h List.not_mem_nil
  | cons e es => exact List.forall_mem_cons.2 ⟨visible_pieces e, visible_piecesAll es⟩

end

/-- The last characters of a type are none that mark a parameter by reference. -/
theorem exists_end (e : NestingExpr) :
    ∃ front back, e.written = front ++ back ∧ back ≠ [] ∧ '@' ∉ back := by
  have hname (n : QualifiedName) : n.written ≠ [] ∧ '@' ∉ n.written := by
    obtain ⟨c, t, heq, -⟩ := exists_takeName (n.outer ++ [n.last]) (by simp)
    refine ⟨ne_of_eq_of_ne heq (List.cons_ne_nil c t), fun hmem => ?_⟩
    exact absurd (n.isInert_of_mem_written hmem) (by decide)
  cases e with
  | name n => exact ⟨[], n.written, rfl, hname n⟩
  | parameter p =>
    obtain ⟨c, t, heq, -⟩ := takeToken_parameter p nameEnds_nil
    refine ⟨[], p.text, rfl, ne_of_eq_of_ne heq (List.cons_ne_nil c t), fun hmem => ?_⟩
    exact absurd (isNameChar_of_mem_text p hmem) (by decide)
  | constructed type =>
    cases type with
    | named n es =>
      refine ⟨n.written ++ '\x7b' :: [','].intercalate (writtenAll es), ['\x7d'], ?_, by decide⟩
      simp [written, ConstructedType.written, braced]
    | nested outer n es =>
      refine ⟨outer.written ++ '.' :: (n.written ++ '\x7b' :: [','].intercalate (writtenAll es)),
        ['\x7d'], ?_, by decide⟩
      simp [written, ConstructedType.written, braced]
  | inner outer n => exact ⟨outer.written ++ ['.'], n.written, by simp [written], hname n⟩
  | array e bounds =>
    refine ⟨e.written ++ '[' :: [','].intercalate (bounds.map ArrayBound.text), [']'], ?_,
      by decide⟩
    simp [written]
  | pointer e => exact ⟨e.written, ['*'], rfl, by decide⟩

theorem getLast?_written_ne (e : NestingExpr) : e.written.getLast? ≠ some '@' := by
  obtain ⟨front, back, heq, hne, hback⟩ := e.exists_end
  rw [heq, List.getLast?_append_of_ne_nil front hne]
  exact fun hlast => hback (List.mem_of_getLast? hlast)

end NestingExpr

namespace NestingParameter
open DocComment.TypeName Pieces

variable (p : NestingParameter)

theorem visible_pieces : Visible p.pieces := by
  have hreference : Visible
      (if p.byReference then [some ⟨.keyword, "ref"⟩, some Run.space] else []) := by
    split
    · exact (Visible.nil.cons (by decide)).cons (by decide)
    · exact .nil
  exact hreference.append p.type.visible_pieces

theorem runs_eq : runs p.written = p.pieces.filled loneDot := by
  have htype : shownRuns p.type.written = filled loneDot p.type.pieces := by
    have h := p.type.shownRuns_written nameEnds_nil
    rwa [List.append_nil, shownRuns_nil, List.append_nil] at h
  rw [runs, written, pieces, filled_append, ← htype, String.toList_ofList]
  cases p.byReference with
  | true =>
    rw [if_pos rfl, List.getLast?_concat, if_pos rfl, List.dropLast_concat]
    rfl
  | false =>
    rw [if_neg Bool.false_ne_true, List.append_nil, if_neg p.type.getLast?_written_ne]
    rfl

/-- However deep types are nested in constructed ones, each dot in front of one is shown by an empty
run, and all else as it is meant to be shown. So there are as many empty runs as places for a dot,
where no run should be empty, and as many characters are missing from the text. -/
theorem runs_written :
    TypeName.runs p.written = p.pieces.filled ⟨.typeName, ""⟩ ∧
      (TypeName.runs p.written).countP (·.text = "") = p.pieces.dots ∧
      (∀ r ∈ p.pieces.filled Run.dot, r.text ≠ "") ∧
      (Run.textOf (TypeName.runs p.written)).length + p.pieces.dots =
        (Run.textOf (p.pieces.filled Run.dot)).length := by
  rw [p.runs_eq]
  exact ⟨rfl, p.visible_pieces.countP_filled rfl, p.visible_pieces.text_ne_empty (by decide),
    length_textOf_filled rfl⟩

/-- The enumerator of a list is shown without the dot. -/
theorem runs_of_enumerator :
    let list : QualifiedName := {
      outer := [{ first := 'S', rest := "ystem".toList },
        { first := 'C', rest := "ollections".toList }, { first := 'G', rest := "eneric".toList }]
      last := { first := 'L', rest := "ist".toList } }
    let enumerator : NestingParameter := {
      type := .inner (.named list [.parameter { digits := ['0'] }])
        { last := { first := 'E', rest := "numerator".toList } } }
    enumerator.written = "System.Collections.Generic.List\x7b\x600\x7d.Enumerator" ∧
      (∃ r ∈ TypeName.runs enumerator.written, r.text = "") ∧
      Run.textOf (TypeName.runs enumerator.written) = "List<T0>Enumerator" ∧
      Run.textOf (enumerator.pieces.filled Run.dot) = "List<T0>.Enumerator" := by
  decide +kernel

end NestingParameter

end DocComment
