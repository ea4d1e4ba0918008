import DocComment.Proofs.CharClass
import DocComment.Proofs.IdGrammar
import DocComment.Proofs.ParameterList
import DocComment.Proofs.WrittenArity

/-!
# Written declarations

A declaration is written as an ID: the letter of its kind, the segments of its namespace, its types
and its name, its parameters and its return type. `ofId_written`: the ID is read as the symbol that
was declared, where the outermost of its types is known and nothing around that is taken for a type.
-/

namespace DocComment

/-- Whether `c` may stand in a name: it is no blank and has no meaning in IDs. -/
def isPlain (c : Char) : Bool :=
  !Text.isBlank c && c ≠ '.' && c ≠ '(' && c ≠ '~' && c ≠ '#' && c ≠ Arity.mark

structure PlainName where
  text : String
  ne_empty : text ≠ "" := by decide
  plain : ∀ c ∈ text.toList, isPlain c = true := by decide

/-- The name of a type or a method, which may be generic. -/
structure GenericName extends PlainName where
  arity : Option Arity.Written := none

def GenericName.written (n : GenericName) : String :=
  match n.arity with
  | none => n.text
  | some arity => n.text ++ String.ofList arity.text

/-- The name of a declaration. The constructors of objects and of types have none of their own. -/
inductive DeclaredName where
  | named (name : GenericName)
  | objectConstructor
  | typeConstructor

namespace DeclaredName

def written : DeclaredName → String
  | named name => name.written
  | objectConstructor => "#ctor"
  | typeConstructor => "#cctor"

def isConstructor : DeclaredName → Bool
  | named _ => false
  | objectConstructor | typeConstructor => true

end DeclaredName

/-- The type of a parameter. What it opens it closes, and its commas are inside. -/
structure ParameterType where
  text : String
  plain : ∀ c ∈ text.toList, Text.isBlank c = false ∧ c ≠ '(' ∧ c ≠ ')' ∧ c ≠ '~' := by decide
  closed : Parameters.Closed text.toList := by decide

structure ReturnType where
  text : String
  ne_empty : text ≠ "" := by decide
  line : '\n' ∉ text.toList := by decide
  trimmed : Text.endsBlank text.toList = false := by decide

/-- A type or a member, with all that its ID says of it. -/
structure Declaration where
  kind : SymbolKind
  nameSpace : List PlainName := []
  types : List GenericName := []
  name : DeclaredName
  parameters : Option (List ParameterType) := none
  returns : Option ReturnType := none
  kind_ne : kind ≠ .nameSpace ∧ kind ≠ .ctor := by decide
  /-- A member is in a type. -/
  types_ne_nil : kind ≠ .type → types ≠ [] := by decide
  kind_of_isConstructor : name.isConstructor = true → kind = .method := by decide
  /-- One parameter with an empty type would be written like no parameters. -/
  parameters_ne : (parameters.map fun types => types.map (·.text)) ≠ some [""] := by decide

namespace Declaration

/-- The segments of the dotted name, less the last. -/
def container (d : Declaration) : List String :=
  d.nameSpace.map (·.text) ++ d.types.map (·.written)

def writtenParameters (d : Declaration) : String :=
  match d.parameters with
  | none => ""
  | some types => "(" ++ ",".intercalate (types.map (·.text)) ++ ")"

def writtenReturn (d : Declaration) : String :=
  match d.returns with
  | none => ""
  | some type => "~" ++ type.text

/-- The ID of a declaration. -/
def written (d : Declaration) : String :=
  d.kind.code ++ ":" ++ dotted (d.container ++ [d.name.written]) ++ d.writtenParameters ++
    d.writtenReturn

/-- The symbol that is declared. -/
def symbol (d : Declaration) : Symbol where
  documentationId := d.written
  kind := if d.name.isConstructor then .ctor else d.kind
  name :=
    match d.name with
    | .named name => name.text
    | _ => (d.types.getLast?.map (·.text)).getD ""
  nameSpace := d.nameSpace.map (·.text)
  containingTypes := d.types.map (·.text)
  parameters :=
    let types := d.parameters.map fun types => types.map (·.text)
    if d.kind = .method then some (types.getD []) else types

end Declaration

/-! ### Written names -/

section
variable {c : Char}

theorem isPlain_iff : isPlain c = true ↔
    Text.isBlank c = false ∧ c ≠ '.' ∧ c ≠ '(' ∧ c ≠ '~' ∧ c ≠ '#' ∧ c ≠ Arity.mark := by
  simp [isPlain, and_assoc]

theorem isPlain_of_isDigit (h : Text.isDigit c = true) : isPlain c = true := by
  have hne (d : Char) (hd : Text.isDigit d = false) : c ≠ d := by
    rintro rfl
    exact Bool.false_ne_true (hd.symm.trans h)
  exact isPlain_iff.2 ⟨Text.isBlank_of_isDigit h, hne _ (by decide), hne _ (by decide),
    hne _ (by decide), hne _ (by decide), hne _ (by decide)⟩

namespace GenericName

theorem toList_written (n : GenericName) :
    n.written.toList = n.text.toList ++ (n.arity.map Arity.Written.text).getD [] := by
  unfold written
  cases n.arity <;> simp

theorem isPlain_of_mem_written (n : GenericName) (hc : c ∈ n.written.toList)
    (hmark : c ≠ Arity.mark) : isPlain c = true := by
  rw [toList_written, List.mem_append] at hc
  rcases hc with hc | hc
  · exact n.plain c hc
  · cases ha : n.arity with
    | none => rw [ha] at hc; cases hc
    | some a =>
      rw [ha, Option.map_some, Option.getD_some] at hc
      rcases a.mem_text hc with heq | hdigit
      · exact absurd heq hmark
      · exact isPlain_of_isDigit hdigit

theorem isBlank_of_mem_written (n : GenericName) (hc : c ∈ n.written.toList) :
    Text.isBlank c = false := by
  by_cases hmark : c = Arity.mark
  · rw [hmark]; decide
  · exact (isPlain_iff.1 (n.isPlain_of_mem_written hc hmark)).1

theorem not_mem_written (n : GenericName) (hmark : c ≠ Arity.mark) (hc : isPlain c = false) :
    c ∉ n.written.toList := by
  intro hmem
  exact Bool.false_ne_true (hc.symm.trans (n.isPlain_of_mem_written hmem hmark))

theorem written_ne_empty (n : GenericName) : n.written ≠ "" := by
  intro h
  have hnil : n.text.toList = [] := by
    have hlist := congrArg String.toList h
    rw [toList_written] at hlist
    exact (List.append_eq_nil_iff.1 hlist).1
  exact n.ne_empty (String.toList_eq_nil_iff.1 hnil)

theorem isSegment_written (n : GenericName) : WrittenId.IsSegment n.written := by
  refine ⟨n.written_ne_empty, fun c hc => ⟨?_, ?_, ?_⟩⟩ <;>
    (rintro rfl; exact n.not_mem_written (by decide) (by decide) hc)

theorem stripped_written (n : GenericName) : Arity.stripped n.written = n.text := by
  have hmark : Arity.mark ∉ n.text.toList :=
    fun hmem => (isPlain_iff.1 (n.plain _ hmem)).2.2.2.2.2 rfl
  have hstrip : Arity.strip n.written.toList = n.text.toList := by
    rw [toList_written]
    exact Arity.strip_append_getD hmark n.arity
  rw [Arity.stripped, hstrip, String.ofList_toList]

end GenericName

end

theorem PlainName.isSegment (n : PlainName) : WrittenId.IsSegment n.text := by
  refine ⟨n.ne_empty, fun c hc => ?_⟩
  obtain ⟨-, hdot, hopen, hreturn, -⟩ := isPlain_iff.1 (n.plain c hc)
  exact ⟨hdot, hopen, hreturn⟩

theorem DeclaredName.written_mem_constructorNames (n : DeclaredName) (h : n.isConstructor = true) :
    n.written ∈ WrittenId.constructorNames := by
  cases n with
  | named name => cases h
  | objectConstructor | typeConstructor => decide

theorem DeclaredName.exists_named (n : DeclaredName) (h : n.isConstructor = false) :
    ∃ name, n = .named name := by
  cases n with
  | named name => exact ⟨name, rfl⟩
  | objectConstructor | typeConstructor => cases h

theorem DeclaredName.isSegment_written (n : DeclaredName) : WrittenId.IsSegment n.written := by
  cases n with
  | named name => exact name.isSegment_written
  | objectConstructor | typeConstructor => unfold WrittenId.IsSegment; decide

theorem DeclaredName.isBlank_of_mem_written (n : DeclaredName) {c : Char}
    (hc : c ∈ n.written.toList) : Text.isBlank c = false := by
  cases n with
  | named name => exact name.isBlank_of_mem_written hc
  | objectConstructor | typeConstructor => revert c; decide

/-! ### Written lists of parameters -/

namespace ParameterType

variable {types : List ParameterType}

theorem plain_of_mem_intercalate {c : Char}
    (hc : c ∈ [','].intercalate (types.map (·.text.toList))) :
    Text.isBlank c = false ∧ c ≠ ')' := by
  rcases Text.eq_or_mem_of_mem_intercalate hc with rfl | ⟨part, hpart, hc⟩
  · decide
  · obtain ⟨type, -, rfl⟩ := List.mem_map.1 hpart
    obtain ⟨hblank, -, hclose, -⟩ := type.plain c hc
    exact ⟨hblank, hclose⟩

theorem parameters?_intercalate (types : List ParameterType) {t : List Char}
    (h : WrittenId.Return t) :
    WrittenId.parameters? ('(' :: ([','].intercalate (types.map (·.text.toList)) ++ ')' :: t)) =
      some (some ([','].intercalate (types.map (·.text.toList)))) := by
  refine WrittenId.parameters?_of_not_mem (fun hline => ?_) (fun hclose => ?_) h
  · have hblank := (plain_of_mem_intercalate hline).1
    revert hblank
    decide
  · exact (plain_of_mem_intercalate hclose).2 rfl

theorem split_intercalate (hne : types.map (·.text) ≠ [""]) :
    (Parameters.split ([','].intercalate (types.map (·.text.toList)))).map String.ofList =
      types.map (·.text) := by
  have hne' : types.map (·.text.toList) ≠ [[]] := by
    intro heq
    have htexts := congrArg (List.map String.ofList) heq
    rw [List.map_map] at htexts
    exact hne (by simpa [Function.comp_def] using htexts)
  have hclosed : ∀ part ∈ types.map (·.text.toList), Parameters.Closed part := by
    intro part hpart
    obtain ⟨type, -, rfl⟩ := List.mem_map.1 hpart
    exact type.closed
  have htrim : ∀ part ∈ types.map (·.text.toList), Text.trim part = part := by
    intro part hpart
    obtain ⟨type, -, rfl⟩ := List.mem_map.1 hpart
    exact Text.trim_eq_self_of_isBlank_eq_false fun c hc => (type.plain c hc).1
  rw [Parameters.split_intercalate hne' hclosed htrim]
  simp [Function.comp_def]

end ParameterType

/-! ### The parts of a written declaration -/

namespace Declaration
open WrittenId

variable (d : Declaration)

def segments : List String :=
  d.container ++ [d.name.written]

/-- What stands in parentheses. -/
def listed : Option (List Char) :=
  d.parameters.map fun types => [','].intercalate (types.map (·.text.toList))

theorem isSegment_of_mem_segments {g : String} (hg : g ∈ d.segments) : IsSegment g := by
  simp only [segments, container, List.mem_append, List.mem_map, List.mem_singleton] at hg
  rcases hg with (⟨n, -, rfl⟩ | ⟨n, -, rfl⟩) | rfl
  · exact n.isSegment
  · exact n.isSegment_written
  · exact d.name.isSegment_written

theorem isBlank_of_mem_segments {g : String} (hg : g ∈ d.segments) {c : Char} (hc : c ∈ g.toList) :
    Text.isBlank c = false := by
  simp only [segments, container, List.mem_append, List.mem_map, List.mem_singleton] at hg
  rcases hg with (⟨n, -, rfl⟩ | ⟨n, -, rfl⟩) | rfl
  · exact (isPlain_iff.1 (n.plain c hc)).1
  · exact n.isBlank_of_mem_written hc
  · exact d.name.isBlank_of_mem_written hc

theorem toList_writtenParameters :
    d.writtenParameters.toList = (d.listed.map fun p => '(' :: (p ++ [')'])).getD [] := by
  unfold writtenParameters listed
  cases d.parameters with
  | none => rfl
  | some types => simp [String.toList_intercalate, Function.comp_def]

theorem return_writtenReturn : Return d.writtenReturn.toList := by
  unfold writtenReturn
  cases d.returns with
  | none => exact .none
  | some type =>
    rw [String.toList_append]
    exact .type (by simpa using type.ne_empty) type.line

theorem parameters?_written :
    parameters? (d.writtenParameters ++ d.writtenReturn).toList = some d.listed := by
  rw [String.toList_append, toList_writtenParameters, listed]
  cases d.parameters with
  | none => exact parameters?_of_return d.return_writtenReturn
  | some types => simpa using ParameterType.parameters?_intercalate types d.return_writtenReturn

theorem hasForm_written :
    HasForm d.written.toList d.kind d.segments (d.writtenParameters ++ d.writtenReturn).toList := by
  have htail := exists_parameters?_iff.1 ⟨_, d.parameters?_written⟩
  have hform := hasForm_code d.kind_ne.2 (by simp [segments])
    (fun g hg => d.isSegment_of_mem_segments hg) htail
  rwa [← String.append_assoc] at hform

theorem endsBlank_writtenReturn : Text.endsBlank d.writtenReturn.toList = false := by
  unfold writtenReturn
  cases d.returns with
  | none => rfl
  | some type =>
    rw [String.toList_append, Text.endsBlank_append]
    split
    · decide
    · exact type.trimmed

theorem endsBlank_writtenParameters : Text.endsBlank d.writtenParameters.toList = false := by
  rw [toList_writtenParameters]
  cases d.listed with
  | none => rfl
  | some p =>
    rw [Option.map_some, Option.getD_some, ← List.cons_append, Text.endsBlank_append,
      if_neg (List.cons_ne_nil _ _)]
    decide

/-- There are no blanks around a written declaration. -/
theorem trim_written : Text.trim d.written.toList = d.written.toList := by
  obtain ⟨⟨letter, hletter, heq⟩, -, -, -⟩ := d.hasForm_written
  have hblank : ∀ c ∈ letter :: ':' :: (dotted d.segments).toList, Text.isBlank c = false := by
    intro c hc
    simp only [List.mem_cons] at hc
    rcases hc with rfl | rfl | hc
    · exact isBlank_of_mem_letters hletter
    · decide
    · exact isBlank_of_mem_dotted (fun g hg c hc => d.isBlank_of_mem_segments hg hc) hc
  refine Text.trim_eq_self_iff.2 ⟨?_, ?_⟩
  · rw [heq, Text.startsBlank_cons]
    exact hblank letter (List.mem_cons_self ..)
  · -- without parameters and return type the name is the end of the text
    rw [heq, String.toList_append, ← List.cons_append, ← List.cons_append, ← List.append_assoc,
      Text.endsBlank_append, Text.endsBlank_append, d.endsBlank_writtenReturn,
      d.endsBlank_writtenParameters, Text.endsBlank_of_isBlank_eq_false hblank]
    simp

theorem ofText?_written : ofText? (Text.trim d.written.toList) =
    some ⟨d.kind, d.container, d.name.written, d.listed⟩ := by
  rw [trim_written, ofText?_of_hasForm d.hasForm_written d.parameters?_written]
  simp [segments]

/-! ### The symbol of a written declaration -/

theorem split_listed :
    (d.listed.map fun p => (Parameters.split p).map String.ofList) =
      d.parameters.map fun types => types.map (·.text) := by
  unfold listed
  cases h : d.parameters with
  | none => rfl
  | some types =>
    have hne : types.map (·.text) ≠ [""] := fun heq => d.parameters_ne (by rw [h, ← heq]; rfl)
    exact congrArg some (ParameterType.split_intercalate hne)

theorem stripped_types :
    (d.types.map GenericName.written).map Arity.stripped = d.types.map (·.text) := by
  rw [List.map_map]
  exact List.map_congr_left fun n _ => n.stripped_written

theorem cutContainer_container {typeNames : List String}
    (hnamespace : ∀ outer, outer ≠ [] → outer <+: d.nameSpace.map (·.text) →
      dotted outer ∉ typeNames)
    (htype : ∀ type ∈ d.types.head?,
      dotted (d.nameSpace.map (·.text) ++ [type.written]) ∈ typeNames) :
    cutContainer typeNames d.kind d.container =
      (d.nameSpace.map (·.text), d.types.map GenericName.written) := by
  rw [container]
  cases h : d.types with
  | nil =>
    have hkind : d.kind = .type := by
      by_cases hk : d.kind = .type
      · exact hk
      · exact absurd h (d.types_ne_nil hk)
    rw [hkind, List.map_nil, List.append_nil]
    exact cutContainer_of_unknown hnamespace
  | cons type types =>
    rw [h] at htype
    exact cutContainer_of_known d.kind _ hnamespace (htype type rfl)

end Declaration

/-- The ID of a declaration is read as the symbol that was declared. Its outermost type has to be
known, and no part of its namespace may be taken for a type. -/
theorem ofId_written (d : Declaration) (typeNames : List String)
    (hnamespace : ∀ outer, outer ≠ [] → outer <+: d.nameSpace.map (·.text) →
      dotted outer ∉ typeNames)
    (htype : ∀ type ∈ d.types.head?,
      dotted (d.nameSpace.map (·.text) ++ [type.written]) ∈ typeNames) :
    Symbol.ofId d.written typeNames = .ok d.symbol := by
  have hread := d.ofText?_written
  have hcut := d.cutContainer_container hnamespace htype
  cases hconstructor : d.name.isConstructor with
  | true =>
    have hkind := d.kind_of_isConstructor hconstructor
    have hne : d.types ≠ [] := d.types_ne_nil (hkind ▸ by decide)
    rw [hkind] at hcut
    have hlast : (WrittenId.cutContainer typeNames .method d.container).2.getLast? =
        some (d.types.getLast hne).written := by
      rw [hcut, List.getLast?_map, List.getLast?_eq_some_getLast hne, Option.map_some]
    rw [Symbol.ofId_constructor hread hkind (d.name.written_mem_constructorNames hconstructor) hlast,
      hcut, d.split_listed, d.stripped_types, GenericName.stripped_written]
    cases hname : d.name with
    | named name => rw [hname] at hconstructor; cases hconstructor
    | objectConstructor | typeConstructor =>
      simp [Declaration.symbol, hname, hkind, DeclaredName.isConstructor,
        List.getLast?_eq_some_getLast hne]
  | false =>
    obtain ⟨name, hname⟩ := d.name.exists_named hconstructor
    have hsharp : '#' ∉ name.written.toList := name.not_mem_written (by decide) (by decide)
    rw [Symbol.ofId_plain hread d.kind_ne.1 (hname ▸ hsharp), hcut, d.split_listed, d.stripped_types,
      hname]
    simp [Declaration.symbol, hname, DeclaredName.written, DeclaredName.isConstructor,
      name.stripped_written]

theorem ofId_written_generic_method :
    let d : Declaration := {
      kind := .method
      nameSpace := [{ text := "My" }, { text := "Ns" }]
      types := [{ text := "Outer", arity := some { digits := ['1'] } }, { text := "Inner" }]
      name := .named { text := "Map", arity := some { double := true, digits := ['2'] } }
      parameters := some
        [{ text := "Func\x7bA,\x600\x7d[0:,0:]" }, { text := "" }, { text := "System.Int32@" }]
      returns := some { text := "R (x)" } }
    (∀ outer, outer ≠ [] → outer <+: d.nameSpace.map (·.text) →
        dotted outer ∉ ["My.Ns.Outer\x601", "My.Ns.Outer\x601.Inner"]) ∧
      Symbol.ofId
          "M:My.Ns.Outer\x601.Inner.Map\x60\x602(Func\x7bA,\x600\x7d[0:,0:],,System.Int32@)~R (x)"
          ["My.Ns.Outer\x601", "My.Ns.Outer\x601.Inner"] =
        .ok {
          documentationId :=
            "M:My.Ns.Outer\x601.Inner.Map\x60\x602(Func\x7bA,\x600\x7d[0:,0:],,System.Int32@)~R (x)"
          kind := .method, name := "Map", nameSpace := ["My", "Ns"]
          containingTypes := ["Outer", "Inner"]
          parameters := some ["Func\x7bA,\x600\x7d[0:,0:]", "", "System.Int32@"] } := by
  intro d
  have hnamespace : ∀ outer, outer ≠ [] → outer <+: d.nameSpace.map (·.text) →
      dotted outer ∉ ["My.Ns.Outer\x601", "My.Ns.Outer\x601.Inner"] := by
    intro outer hne houter
    change outer <+: ["My", "Ns"] at houter
    rcases List.prefix_cons_iff.1 houter with rfl | ⟨t, rfl, ht⟩
    · exact absurd rfl hne
    · rcases List.prefix_cons_iff.1 ht with rfl | ⟨_, rfl, hnil⟩
      · decide
      · cases List.prefix_nil.1 hnil
        decide
  refine ⟨hnamespace, ?_⟩
  exact ofId_written d _ hnamespace (by decide)

end DocComment
