import Mathlib.Data.List.Infix
import DocComment.Proofs.Qualification
import DocComment.Proofs.WrittenArity

/-!
# Interfaces of explicit implementations

The name of a method that is implemented for an interface starts with the name of that interface,
with `#` for dots. The interface is shown in front of the method by what is behind the last dot of
its name. `exists_runs_explicit`: that is its own name with its arguments, unless the name of some
argument is qualified. Then it is only the end of the arguments, which closes a brace too many.
-/

namespace DocComment

/-! ### Last parts -/

namespace Text

variable {sep : Char} {s t : List Char}

/-- What is behind the last separator. -/
def lastPart (sep : Char) (s : List Char) : List Char :=
  (separated sep s).getLast?.getD []

theorem separated_append (sep : Char) (s t : List Char) :
    separated sep (s ++ sep :: t) = separated sep s ++ separated sep t := by
  induction s with
  | nil => exact separated_cons_sep sep t
  | cons c s ih =>
    obtain ⟨part, parts, h⟩ := List.exists_cons_of_ne_nil (separated_ne_nil sep s)
    rw [List.cons_append, separated, separated, ih, h, List.cons_append]
    dsimp only
    split <;> rfl

theorem lastPart_append (sep : Char) (s t : List Char) :
    lastPart sep (s ++ sep :: t) = lastPart sep t := by
  rw [lastPart, separated_append, List.getLast?_append_of_ne_nil _ (separated_ne_nil sep t)]
  rfl

theorem lastPart_of_not_mem (h : sep ∉ s) : lastPart sep s = s := by
  rw [lastPart, separated_of_not_mem h]
  rfl

theorem separated_eq_concat (sep : Char) (s : List Char) :
    separated sep s = (separated sep s).dropLast ++ [lastPart sep s] := by
  have hlast := List.getLast?_eq_some_getLast (separated_ne_nil sep s)
  rw [lastPart, hlast, Option.getD_some, List.dropLast_concat_getLast]

theorem lastPart_mem_separated (sep : Char) (s : List Char) :
    lastPart sep s ∈ separated sep s := by
  rw [separated_eq_concat]
  exact List.mem_append_right _ (List.mem_singleton_self _)

theorem not_mem_lastPart (sep : Char) (s : List Char) : sep ∉ lastPart sep s :=
  not_mem_of_mem_separated (lastPart_mem_separated sep s)

theorem mem_of_mem_lastPart {c : Char} (hc : c ∈ lastPart sep s) : c ∈ s := by
  rw [← intercalate_separated sep s]
  exact mem_intercalate_of_mem (lastPart_mem_separated sep s) hc

theorem exists_intercalate_concat (sep : Char) (part : List Char) (parts : List (List Char))
    (last : List Char) :
    ∃ front, [sep].intercalate (part :: parts ++ [last]) = front ++ sep :: last := by
  induction parts generalizing part with
  | nil => exact ⟨part, by simp⟩
  | cons next parts ih =>
    obtain ⟨front, hfront⟩ := ih next
    refine ⟨part ++ sep :: front, ?_⟩
    rw [List.cons_append] at hfront
    rw [List.cons_append, List.cons_append, List.intercalate_cons_cons, hfront]
    simp

/-- Where the separators of a text are replaced by others, what is behind the last one stays. -/
theorem intercalate_separated_eq (sep sep' : Char) (s : List Char) :
    [sep'].intercalate (separated sep s) = lastPart sep s ∨
      ∃ front, [sep'].intercalate (separated sep s) = front ++ sep' :: lastPart sep s := by
  rw [separated_eq_concat]
  cases (separated sep s).dropLast with
  | nil => exact .inl (List.intercalate_singleton ..)
  | cons part parts => exact .inr (exists_intercalate_concat sep' part parts _)

theorem exists_append_lastPart (h : sep ∈ s) : ∃ front, s = front ++ sep :: lastPart sep s := by
  have hcut := intercalate_separated_eq sep sep s
  rw [intercalate_separated] at hcut
  exact hcut.resolve_left fun heq => not_mem_lastPart sep s (heq ▸ h)

end Text

/-! ### Arities behind a dot -/

namespace Arity

variable {s t : List Char}

theorem stripReversed_append_dot (s t : List Char) :
    stripReversed (s ++ '.' :: t) = stripReversed s ++ '.' :: t := by
  have htake : (s ++ '.' :: t).takeWhile Text.isDigit = s.takeWhile Text.isDigit := by
    rw [List.takeWhile_append]
    split
    · next h => rw [(List.takeWhile_prefix Text.isDigit).eq_of_length h]; exact List.append_nil s
    · rfl
  unfold stripReversed
  rw [htake, List.dropWhile_append]
  cases hdrop : s.dropWhile Text.isDigit with
  | nil =>
    rw [List.isEmpty_nil, if_pos rfl]
    cases s.takeWhile Text.isDigit <;> rfl
  | cons c rest =>
    rw [List.isEmpty_cons, if_neg Bool.false_ne_true]
    cases s.takeWhile Text.isDigit with
    | nil => rfl
    | cons digit digits =>
      by_cases hc : c = mark
      · -- an arity is taken off: up to the dot there may be a second mark, or nothing
        cases rest with
        | nil => simp [hc, show '.' ≠ mark by decide]
        | cons d rest => by_cases hd : d = mark <;> simp [hc, hd]
      · simp [hc]

theorem strip_append_dot (s t : List Char) : strip (s ++ '.' :: t) = s ++ '.' :: strip t := by
  have hreverse : (s ++ '.' :: t).reverse = t.reverse ++ '.' :: s.reverse := by simp
  have hstrip (r : List Char) :
      (stripReversed (r ++ '.' :: s.reverse)).reverse = s ++ '.' :: (stripReversed r).reverse := by
    rw [stripReversed_append_dot]
    simp
  unfold strip
  rw [hreverse]
  cases t.reverse with
  | nil => exact hstrip []
  | cons c rest =>
    by_cases hline : c = '\n'
    · subst hline
      exact (congrArg (· ++ ['\n']) (hstrip rest)).trans (by simp)
    · split
      · next heq => exact absurd (List.cons.inj heq).1 hline
      · rw [hstrip]
        split
        · next heq => exact absurd (List.cons.inj heq).1 hline
        · rfl

theorem stripReversed_suffix (s : List Char) : stripReversed s <:+ s := by
  unfold stripReversed
  split
  · next c rest _ hdrop =>
    have hrest : rest <:+ s :=
      (List.suffix_cons c rest).trans (hdrop ▸ List.dropWhile_suffix Text.isDigit)
    split
    · split
      · split
        · exact (List.suffix_cons _ _).trans hrest
        · exact hrest
      · exact List.nil_suffix
    · exact List.suffix_refl s
  · exact List.suffix_refl s

theorem mem_of_mem_strip {c : Char} (hc : c ∈ strip s) : c ∈ s := by
  unfold strip at hc
  split at hc
  · next rest hreverse =>
    rw [← List.mem_reverse, hreverse]
    rcases List.mem_append.1 hc with hc | hc
    · exact List.mem_cons_of_mem _ ((stripReversed_suffix rest).subset (List.mem_reverse.1 hc))
    · exact List.mem_singleton.1 hc ▸ List.mem_cons_self ..
  · exact List.mem_reverse.1 ((stripReversed_suffix _).subset (List.mem_reverse.1 hc))

/-- Only digits and a line feed may be at the end of an arity. -/
theorem strip_concat {c : Char} (hline : c ≠ '\n') (hdigit : Text.isDigit c = false)
    (s : List Char) : strip (s ++ [c]) = s ++ [c] := by
  have hreverse : (s ++ [c]).reverse = c :: s.reverse := by simp
  have hself : stripReversed (c :: s.reverse) = c :: s.reverse := by
    unfold stripReversed
    rw [List.takeWhile_cons_of_neg (by simp [hdigit])]
  unfold strip
  rw [hreverse]
  split
  · next heq => exact absurd (List.cons.inj heq).1 hline
  · rw [hself, ← hreverse, List.reverse_reverse]

end Arity

/-! ### Braces -/

/-- As many braces are closed as opened, and none before it is opened. -/
structure BracesMatch (s : List Char) : Prop where
  count_eq : s.count '\x7b' = s.count '\x7d'
  count_le : ∀ front, front <+: s → front.count '\x7d' ≤ front.count '\x7b'

namespace BracesMatch

variable {s front back : List Char}

instance : Decidable (BracesMatch s) :=
  decidable_of_iff
    (s.count '\x7b' = s.count '\x7d' ∧
      ∀ front ∈ s.inits, front.count '\x7d' ≤ front.count '\x7b')
    (by
      simp only [List.mem_inits]
      exact ⟨fun ⟨h, h'⟩ => ⟨h, h'⟩, fun ⟨h, h'⟩ => ⟨h, h'⟩⟩)

theorem of_not_mem (hopen : '\x7b' ∉ s) (hclose : '\x7d' ∉ s) : BracesMatch s where
  count_eq := by rw [List.count_eq_zero_of_not_mem hopen, List.count_eq_zero_of_not_mem hclose]
  count_le front h := by
    rw [List.count_eq_zero_of_not_mem fun hmem => hclose (h.subset hmem)]
    exact Nat.zero_le _

theorem braced (h : BracesMatch s) (hopen : '\x7b' ∉ front) (hclose : '\x7d' ∉ front) :
    BracesMatch (front ++ '\x7b' :: (s ++ ['\x7d'])) := by
  have hopen := List.count_eq_zero_of_not_mem hopen
  have hclose := List.count_eq_zero_of_not_mem hclose
  have heq := h.count_eq
  refine ⟨by simp; omega, fun part hpart => ?_⟩
  rcases List.prefix_or_prefix_of_prefix hpart (List.prefix_append front _) with
    hfront | ⟨part, rfl⟩
  · have hle := hfront.count_le '\x7d'
    omega
  · rcases List.prefix_cons_iff.1 ((List.prefix_append_right_inj front).1 hpart) with
      rfl | ⟨inner, rfl, hinner⟩
    · simp [hclose]
    · rcases List.prefix_concat_iff.1 hinner with rfl | hinner
      · simp
        omega
      · have hle := h.count_le inner hinner
        simp
        omega

/-- Behind some of the text no more braces are opened than closed. -/
theorem count_back_le (h : BracesMatch (front ++ back)) :
    back.count '\x7b' ≤ back.count '\x7d' := by
  have hfront := h.count_le front (List.prefix_append front back)
  have heq := h.count_eq
  rw [List.count_append, List.count_append] at heq
  omega

end BracesMatch

/-! ### Names of explicit implementations -/

/-- The name of a method that is implemented for an interface. -/
structure ExplicitName where
  /-- The segments of the interface's name but the last. -/
  outer : List (List Char) := []
  /-- The last segment: what the interface itself is called. -/
  interface : List Char
  arity : Option Arity.Written := none
  /-- What stands in the braces behind it, if it is generic. -/
  arguments : Option (List Char) := none
  member : List Char
  interface_ne_nil : interface ≠ [] := by decide
  plain : ∀ c ∈ interface, c ∉ ['#', '\x7b', '\x7d', Arity.mark] := by decide
  bracesMatch : ∀ args ∈ arguments, BracesMatch args := by decide
  not_mem_member : '#' ∉ member := by decide

namespace ExplicitName

/-- The last segment of the interface's name without arguments. -/
def head (n : ExplicitName) : List Char :=
  n.interface ++ (n.arity.map Arity.Written.text).getD []

/-- The last segment of the interface's name with all that stands behind it. -/
def own (n : ExplicitName) : List Char :=
  n.head ++ (n.arguments.map fun args => '\x7b' :: (args ++ ['\x7d'])).getD []

/-- The name of the interface, with `#` behind the segments. -/
def qualified (n : ExplicitName) : List Char :=
  n.outer.flatMap (· ++ ['#']) ++ n.own

def written (n : ExplicitName) : String :=
  String.ofList (n.qualified ++ '#' :: n.member)

/-- The name of no argument is qualified. -/
def PlainArguments (n : ExplicitName) : Prop :=
  ∀ args ∈ n.arguments, '#' ∉ args

/-- What is shown of the interface: what is behind the last dot of its name, less the arity. -/
def shownInterface (n : ExplicitName) : List Char :=
  Arity.strip (Text.lastPart '#' n.qualified)

variable (n : ExplicitName)

theorem not_mem_interface {c : Char} (hc : c ∈ ['#', '\x7b', '\x7d', Arity.mark]) :
    c ∉ n.interface :=
  fun hmem => n.plain c hmem hc

theorem cutInterface_written : WrittenId.cutInterface n.written =
    (String.ofList n.member,
      some (Arity.stripped (dotted ((Text.separated '#' n.qualified).map String.ofList)))) := by
  obtain ⟨part, parts, hparts⟩ :=
    List.exists_cons_of_ne_nil (Text.separated_ne_nil '#' n.qualified)
  unfold WrittenId.cutInterface
  rw [written, String.toList_ofList, Text.separated_append,
    Text.separated_of_not_mem n.not_mem_member, List.map_append, hparts, List.map_cons,
    List.map_singleton]
  dsimp only
  rw [List.dropLast_concat, List.getLast?_concat]
  rfl

/-- The interface is shown by what is behind the last `#`: the dots are put for the `#` first. -/
theorem lastPart_interface (h : '.' ∉ n.qualified) :
    Text.lastPart '.'
        (Arity.stripped (dotted ((Text.separated '#' n.qualified).map String.ofList))).toList =
      n.shownInterface := by
  have hdot : '.' ∉ n.shownInterface :=
    fun hmem => h (Text.mem_of_mem_lastPart (Arity.mem_of_mem_strip hmem))
  have htext : (dotted ((Text.separated '#' n.qualified).map String.ofList)).toList =
      ['.'].intercalate (Text.separated '#' n.qualified) := by
    rw [WrittenId.toList_dotted, List.map_map]
    simp
  rw [Arity.stripped, String.toList_ofList, htext]
  rcases Text.intercalate_separated_eq '#' '.' n.qualified with heq | ⟨front, heq⟩
  · rw [heq]
    exact Text.lastPart_of_not_mem hdot
  · rw [heq, Arity.strip_append_dot, Text.lastPart_append]
    exact Text.lastPart_of_not_mem hdot

theorem lastPart_qualified : Text.lastPart '#' n.qualified = Text.lastPart '#' n.own := by
  rw [qualified]
  induction n.outer with
  | nil => rfl
  | cons segment outer ih =>
    rw [List.flatMap_cons, List.append_assoc, List.append_assoc, List.singleton_append,
      Text.lastPart_append, ih]

theorem not_mem_head {c : Char} (hc : c ∈ ['#', '\x7b', '\x7d']) : c ∉ n.head := by
  have harity : c ∉ (n.arity.map Arity.Written.text).getD [] := by
    cases n.arity with
    | none => exact List.not_mem_nil
    | some a =>
      intro hmem
      have hsigns : ∀ d ∈ ['#', '\x7b', '\x7d'], d ≠ Arity.mark ∧ Text.isDigit d = false := by
        decide
      obtain ⟨hmark, hdigit⟩ := hsigns c hc
      rcases a.mem_text hmem with heq | heq
      · exact hmark heq
      · rw [hdigit] at heq
        cases heq
  have hinterface : c ∉ n.interface :=
    n.not_mem_interface (List.mem_append_left [Arity.mark] hc)
  rw [head, List.mem_append, not_or]
  exact ⟨hinterface, harity⟩

variable {n} {args a b : List Char}

theorem shownInterface_of_none (h : n.arguments = none) : n.shownInterface = n.interface := by
  have hown : n.own = n.head := by
    rw [own, h, Option.map_none, Option.getD_none, List.append_nil]
  rw [shownInterface, lastPart_qualified, hown,
    Text.lastPart_of_not_mem (n.not_mem_head (by decide)), head,
    Arity.strip_append_getD (n.not_mem_interface (by decide))]

theorem own_of_some (h : n.arguments = some args) :
    n.own = n.head ++ '\x7b' :: (args ++ ['\x7d']) := by
  rw [own, h, Option.map_some, Option.getD_some]

theorem strip_braced (s : List Char) : Arity.strip (s ++ ['\x7d']) = s ++ ['\x7d'] :=
  Arity.strip_concat (by decide) (by decide) s

theorem shownInterface_of_plain (h : n.arguments = some args) (hargs : '#' ∉ args) :
    n.shownInterface = n.head ++ '\x7b' :: (args ++ ['\x7d']) := by
  have hown : '#' ∉ n.own := by
    rw [own_of_some h]
    simpa [hargs] using n.not_mem_head (by decide)
  have hstrip := strip_braced (n.head ++ '\x7b' :: args)
  rw [List.append_assoc, List.cons_append] at hstrip
  rw [shownInterface, lastPart_qualified, Text.lastPart_of_not_mem hown, own_of_some h, hstrip]

theorem shownInterface_of_hash (h : n.arguments = some (a ++ '#' :: b)) (hb : '#' ∉ b) :
    n.shownInterface = b ++ ['\x7d'] := by
  have hown : n.own = (n.head ++ '\x7b' :: a) ++ '#' :: (b ++ ['\x7d']) := by
    rw [own_of_some h]
    simp
  rw [shownInterface, lastPart_qualified, hown, Text.lastPart_append,
    Text.lastPart_of_not_mem (by simp [hb]), strip_braced]

theorem shownInterface_ne_nil (n : ExplicitName) : n.shownInterface ≠ [] := by
  cases h : n.arguments with
  | none =>
    rw [shownInterface_of_none h]
    exact n.interface_ne_nil
  | some args =>
    by_cases hargs : '#' ∈ args
    · obtain ⟨front, hcut⟩ := Text.exists_append_lastPart hargs
      rw [shownInterface_of_hash (hcut ▸ h) (Text.not_mem_lastPart '#' args)]
      simp
    · rw [shownInterface_of_plain h hargs]
      simp

/-- The interface is shown as it is called, with matching braces, if it has no arguments or only
such whose names are not qualified. -/
theorem shownInterface_whole_iff (n : ExplicitName) :
    (n.interface <+: n.shownInterface ∧ BracesMatch n.shownInterface) ↔ n.PlainArguments := by
  cases h : n.arguments with
  | none =>
    have hplain : n.PlainArguments := fun args hargs => by rw [h] at hargs; cases hargs
    rw [shownInterface_of_none h]
    refine iff_of_true ⟨List.prefix_refl _, .of_not_mem ?_ ?_⟩ hplain <;>
      exact n.not_mem_interface (by decide)
  | some args =>
    have hmatch : BracesMatch args := n.bracesMatch args h
    by_cases hargs : '#' ∈ args
    · obtain ⟨front, hcut⟩ := Text.exists_append_lastPart hargs
      have hnot : ¬ n.PlainArguments := fun hplain => hplain args h hargs
      rw [shownInterface_of_hash (hcut ▸ h) (Text.not_mem_lastPart '#' args)]
      refine iff_of_false (fun ⟨_, hshown⟩ => ?_) hnot
      -- the brace at the end was opened in front of the arguments
      rw [hcut, List.append_cons] at hmatch
      have hle := hmatch.count_back_le
      have heq := hshown.count_eq
      simp at heq
      omega
    · have hplain : n.PlainArguments := fun args' hargs' => by
        rw [h] at hargs'
        exact Option.some.inj hargs' ▸ hargs
      rw [shownInterface_of_plain h hargs]
      refine iff_of_true ⟨?_, hmatch.braced ?_ ?_⟩ hplain
      · rw [head, List.append_assoc]
        exact List.prefix_append ..
      · exact n.not_mem_head (by decide)
      · exact n.not_mem_head (by decide)

end ExplicitName

/-! ### Symbols -/

namespace Symbol
open WrittenId

variable {id : String} {container : List String} {tail : List Char}

/-- The interface stands in front of the name of a member, behind all that is shown without it. -/
theorem exists_runs_interface {s : Symbol} (hkind : s.kind = .method) (format : DisplayFormat)
    (hformat : format.members.explicitInterface = true) (imported : List String) :
    ∃ front,
      s.runs (format.withMembers { format.members with explicitInterface := false }) imported =
        .ok (front ++ ⟨.memberName, s.name⟩ :: s.shownParameters format.members) ∧
      s.runs format imported = .ok (front ++ s.interfaceRuns ++
        ⟨.memberName, s.name⟩ :: s.shownParameters format.members) := by
  obtain ⟨front, hfront⟩ : ∃ front,
      (if format.members.containingType ∧ s.containingTypes ≠ [] then
        (typeRuns format imported s.nameSpace s.containingTypes).map (· ++ [Run.dot])
      else .ok []) = .ok front := by
    split
    · next h =>
      obtain ⟨rs, hrs, -⟩ := exists_typeRuns format imported s.nameSpace h.2
      exact ⟨rs ++ [Run.dot], by rw [hrs]; rfl⟩
    · exact ⟨[], rfl⟩
  have hwithout : s.memberRuns
      (format.withMembers { format.members with explicitInterface := false }) imported =
        .ok (front ++ [⟨.memberName, s.name⟩]) := by
    rw [memberRuns_eq]
    exact congrArg (Except.map _) hfront
  have hwith : s.memberRuns format imported =
      .ok (front ++ (s.interfaceRuns ++ [⟨.memberName, s.name⟩])) := by
    rw [memberRuns_eq, hfront, if_pos hformat]
    rfl
  refine ⟨front, ?_, ?_⟩
  · rw [runs, hkind]
    dsimp only
    rw [hwithout]
    exact congrArg Except.ok (List.append_assoc ..)
  · rw [runs, hkind]
    dsimp only
    rw [hwith]
    rw [← List.append_assoc]
    exact congrArg Except.ok (List.append_assoc ..)

theorem exists_ofId_explicit (n : ExplicitName)
    (h : HasForm (Text.trim id.toList) .method (container ++ [n.written]) tail)
    (typeNames : List String) :
    ∃ s, ofId id typeNames = .ok s ∧ s.kind = .method ∧
      s.name = Arity.stripped (String.ofList n.member) ∧
      s.interfaceRuns = [⟨.typeName, String.ofList n.shownInterface⟩, Run.dot] := by
  obtain ⟨w, hw, hkind, hsegments, -⟩ := h.exists_parts
  obtain ⟨-, hname⟩ := List.append_inj' hsegments rfl
  have hname : w.name = n.written := List.singleton_inj.1 hname
  have hdot : '.' ∉ n.qualified := by
    intro hmem
    have hsegment := h.isSegment n.written (by simp)
    refine (hsegment.2 '.' ?_).1 rfl
    rw [ExplicitName.written, String.toList_ofList]
    exact List.mem_append_left _ hmem
  have hcut := n.cutInterface_written
  rw [← hname] at hcut
  have hlast := n.lastPart_interface hdot
  have hinterface : Arity.stripped (dotted ((Text.separated '#' n.qualified).map String.ofList)) ≠
      "" := by
    intro hempty
    rw [hempty] at hlast
    exact n.shownInterface_ne_nil hlast.symm
  have hconstructor : w.name ∉ constructorNames := by
    intro hmem
    have hnone : ∀ name ∈ constructorNames, (cutInterface name).2 = some "" := by decide
    have hempty := hnone w.name hmem
    rw [hcut] at hempty
    exact hinterface (Option.some.inj hempty)
  refine ⟨_, ofId_other hw (by simp [hkind]) fun hc => hconstructor hc.2, hkind, ?_, ?_⟩
  · rw [hcut]
  · rw [interfaceRuns]
    dsimp only
    rw [hcut]
    dsimp only
    rw [if_neg hinterface]
    exact congrArg (fun part => [⟨.typeName, String.ofList part⟩, Run.dot]) hlast

/-- In front of the name of an explicit implementation there is the interface, by its own name and
with matching braces, unless the name of one of its arguments is qualified. Then it is what is behind
the last dot in the arguments, with the brace that closes them. -/
theorem exists_runs_explicit (n : ExplicitName)
    (h : HasForm (Text.trim id.toList) .method (container ++ [n.written]) tail)
    (typeNames : List String) (format : DisplayFormat)
    (hformat : format.members.explicitInterface = true) (imported : List String) :
    ∃ s front interface, ofId id typeNames = .ok s ∧
      s.name = Arity.stripped (String.ofList n.member) ∧
      s.runs (format.withMembers { format.members with explicitInterface := false }) imported =
        .ok (front ++ ⟨.memberName, s.name⟩ :: s.shownParameters format.members) ∧
      s.runs format imported = .ok (front ++ ⟨.typeName, interface⟩ :: Run.dot ::
        ⟨.memberName, s.name⟩ :: s.shownParameters format.members) ∧
      ((n.interface <+: interface.toList ∧ BracesMatch interface.toList) ↔ n.PlainArguments) ∧
      ∀ a b, n.arguments = some (a ++ '#' :: b) → '#' ∉ b →
        interface = String.ofList (b ++ ['\x7d']) := by
  obtain ⟨s, hs, hkind, hname, hinterface⟩ := exists_ofId_explicit n h typeNames
  obtain ⟨front, hwithout, hwith⟩ := exists_runs_interface hkind format hformat imported
  refine ⟨s, front, String.ofList n.shownInterface, hs, hname, hwithout, ?_, ?_, ?_⟩
  · rw [hwith, hinterface, List.append_assoc]
    rfl
  · rw [String.toList_ofList]
    exact n.shownInterface_whole_iff
  · intro a b harguments hb
    rw [ExplicitName.shownInterface_of_hash harguments hb]

theorem exists_runs_explicit_enumerable :
    let format : DisplayFormat := { members := { parameters := true, explicitInterface := true } }
    ∃ s front interface,
      ofId "M:My.W.System#Collections#Generic#IEnumerable\x7bString\x7d#GetEnumerator" [] = .ok s ∧
      s.name = "GetEnumerator" ∧
      s.runs format [] = .ok (front ++ ⟨.typeName, interface⟩ :: Run.dot ::
        ⟨.memberName, s.name⟩ :: s.shownParameters format.members) ∧
      "IEnumerable".toList <+: interface.toList ∧ BracesMatch interface.toList := by
  intro format
  let n : ExplicitName := {
    outer := ["System".toList, "Collections".toList, "Generic".toList]
    interface := "IEnumerable".toList
    arguments := some "String".toList
    member := "GetEnumerator".toList }
  have hsegment : ∀ g ∈ ["My", "W"] ++ [n.written], IsSegment g := by
    unfold IsSegment
    decide
  have hform : HasForm (Text.trim
      "M:My.W.System#Collections#Generic#IEnumerable\x7bString\x7d#GetEnumerator".toList)
      .method (["My", "W"] ++ [n.written]) [] :=
    ⟨⟨'M', by decide, by decide +kernel⟩, by decide, hsegment, .bare .none⟩
  obtain ⟨s, front, interface, hs, hname, -, hruns, hwhole, -⟩ :=
    exists_runs_explicit n hform [] format rfl []
  refine ⟨s, front, interface, hs, hname.trans (by decide), hruns, hwhole.2 ?_⟩
  unfold ExplicitName.PlainArguments
  decide

/-- Of arguments with a qualified name only the end is shown. -/
theorem runs_of_qualified_argument :
    let format : DisplayFormat := { members := { explicitInterface := true } }
    let n : ExplicitName := {
      outer := ["System".toList, "Collections".toList, "Generic".toList]
      interface := "IEnumerable".toList
      arguments := some "System#String".toList
      member := "GetEnumerator".toList }
    n.written = "System#Collections#Generic#IEnumerable\x7bSystem#String\x7d#GetEnumerator" ∧
      (ofId ("M:My.W." ++ n.written) []).toOption.map (fun s => (s.runs format []).toOption) =
        some (some [⟨.typeName, "String\x7d"⟩, Run.dot, ⟨.memberName, "GetEnumerator"⟩]) ∧
      ¬ (n.interface <+: "String\x7d".toList) ∧ ¬ BracesMatch "String\x7d".toList := by
  decide +kernel

end Symbol

end DocComment
