import DocComment.Proofs.Container
import DocComment.Proofs.DeclaredSymbol

/-!
# The grammar of documentation IDs

An ID is the letter of a kind, a colon, a dotted name and a tail: nothing, `(p)`, `(p)~r` or `~r`.
`ofText?_eq_some_iff`: exactly the texts of this form are cut into parts. Where what stands in
parentheses could end at several places, it ends at the first `)` that only a return type follows.
`ofId_grammar`: a text of this form becomes a symbol, whatever types are known, unless it is a
constructor without a container.
-/

namespace DocComment.WrittenId

/-- The letters of the kinds that IDs name. -/
def letters : List (Char × SymbolKind) :=
  [('N', .nameSpace), ('T', .type), ('M', .method), ('P', .property), ('F', .field), ('E', .event)]

/-- Nothing, or a return type: `~` and some text on one line. -/
inductive Return : List Char → Prop where
  | none : Return []
  | type {r : List Char} (ne_nil : r ≠ []) (line : '\n' ∉ r) : Return ('~' :: r)

/-- What stands behind the name of an ID. -/
inductive Tail : List Char → Prop where
  | bare {t : List Char} (h : Return t) : Tail t
  | parameters {p t : List Char} (line : '\n' ∉ p) (h : Return t) : Tail ('(' :: (p ++ ')' :: t))

/-- `p` is the text in front of the first `)` in `s` that only a return type follows. -/
structure FirstCut (s p : List Char) : Prop where
  cut : ∃ t, s = p ++ ')' :: t ∧ Return t
  first : ∀ q t, s = q ++ ')' :: t → Return t → p.length ≤ q.length

/-- A segment of a dotted name is some text without the characters that end it. -/
def IsSegment (g : String) : Prop :=
  g ≠ "" ∧ ∀ c ∈ g.toList, c ≠ '.' ∧ c ≠ '(' ∧ c ≠ '~'

/-- The form of an ID: the letter of its kind, a colon, the segments of its name with dots between
them, and a tail. -/
structure HasForm (s : List Char) (kind : SymbolKind) (segments : List String) (tail : List Char) :
    Prop where
  eq : ∃ letter, (letter, kind) ∈ letters ∧ s = letter :: ':' :: ((dotted segments).toList ++ tail)
  segments_ne_nil : segments ≠ []
  isSegment : ∀ g ∈ segments, IsSegment g
  tail : Tail tail

variable {s t p tail : List Char} {segments : List String} {w : WrittenId}

/-! ### Letters and names -/

theorem kindOf?_eq_some_iff {c : Char} {kind : SymbolKind} :
    kindOf? c = some kind ↔ (c, kind) ∈ letters := by
  constructor
  · intro h
    have hfound := List.find?_some h
    have hcode : kind.code = String.ofList [c] := of_decide_eq_true hfound
    have hlist : kind.code.toList = [c] := by rw [hcode, String.toList_ofList]
    cases kind <;> simp [SymbolKind.code] at hlist <;> subst hlist <;> decide
  · intro h
    simp only [letters, List.mem_cons, Prod.mk.injEq, List.not_mem_nil, or_false] at h
    rcases h with ⟨rfl, rfl⟩ | ⟨rfl, rfl⟩ | ⟨rfl, rfl⟩ | ⟨rfl, rfl⟩ | ⟨rfl, rfl⟩ | ⟨rfl, rfl⟩ <;> rfl

theorem exists_mem_letters {kind : SymbolKind} (h : kind ≠ .ctor) :
    ∃ letter, (letter, kind) ∈ letters ∧ kind.code.toList = [letter] := by
  cases kind with
  | ctor => exact absurd rfl h
  | nameSpace => exact ⟨'N', by decide, rfl⟩
  | type => exact ⟨'T', by decide, rfl⟩
  | method => exact ⟨'M', by decide, rfl⟩
  | property => exact ⟨'P', by decide, rfl⟩
  | field => exact ⟨'F', by decide, rfl⟩
  | event => exact ⟨'E', by decide, rfl⟩

theorem isBlank_of_mem_letters {letter : Char} {kind : SymbolKind} (h : (letter, kind) ∈ letters) :
    Text.isBlank letter = false := by
  have hletters : ∀ l ∈ letters, Text.isBlank l.1 = false := by decide
  exact hletters _ h

theorem toList_dotted (segments : List String) :
    (dotted segments).toList = ['.'].intercalate (segments.map String.toList) :=
  String.toList_intercalate

theorem isBlank_of_mem_dotted (h : ∀ g ∈ segments, ∀ c ∈ g.toList, Text.isBlank c = false)
    {c : Char} (hc : c ∈ (dotted segments).toList) : Text.isBlank c = false := by
  rw [toList_dotted] at hc
  rcases Text.eq_or_mem_of_mem_intercalate hc with rfl | ⟨part, hpart, hc⟩
  · decide
  · obtain ⟨g, hg, rfl⟩ := List.mem_map.1 hpart
    exact h g hg c hc

theorem separated_dotted (hne : segments ≠ []) (h : ∀ g ∈ segments, IsSegment g) :
    (Text.separated '.' (dotted segments).toList).map String.ofList = segments := by
  have hdot : ∀ part ∈ segments.map String.toList, '.' ∉ part := by
    intro part hpart hmem
    obtain ⟨g, hg, rfl⟩ := List.mem_map.1 hpart
    exact ((h g hg).2 '.' hmem).1 rfl
  rw [toList_dotted, Text.separated_intercalate (by simpa using hne) hdot]
  simp

theorem isNameChar_of_mem_dotted (h : ∀ g ∈ segments, IsSegment g) {c : Char}
    (hc : c ∈ (dotted segments).toList) : isNameChar c = true := by
  rw [toList_dotted] at hc
  rcases Text.eq_or_mem_of_mem_intercalate hc with rfl | ⟨part, hpart, hc⟩
  · rfl
  · obtain ⟨g, hg, rfl⟩ := List.mem_map.1 hpart
    obtain ⟨-, hopen, hreturn⟩ := (h g hg).2 c hc
    simp [isNameChar, hopen, hreturn]

/-- Where no segment is empty, the name that is read is a dotted one. -/
theorem isSegment_of_mem_separated (hs : ∀ c ∈ s, isNameChar c = true)
    (hempty : "" ∉ (Text.separated '.' s).map String.ofList) {g : String}
    (hg : g ∈ (Text.separated '.' s).map String.ofList) : IsSegment g := by
  refine ⟨fun h => hempty (h ▸ hg), fun c hc => ?_⟩
  obtain ⟨part, hpart, rfl⟩ := List.mem_map.1 hg
  rw [String.toList_ofList] at hc
  have hname : isNameChar c = true := by
    refine hs c ?_
    rw [← Text.intercalate_separated '.' s]
    exact Text.mem_intercalate_of_mem hpart hc
  have hdot : c ≠ '.' := fun h => Text.not_mem_of_mem_separated hpart (h ▸ hc)
  simp only [isNameChar, ne_eq, Bool.and_eq_true, decide_not, Bool.not_eq_true',
    decide_eq_false_iff_not] at hname
  exact ⟨hdot, hname.1, hname.2⟩

/-! ### Tails -/

theorem isReturn_iff : isReturn t = true ↔ Return t := by
  constructor
  · intro h
    cases t with
    | nil => exact .none
    | cons c r =>
      simp only [isReturn, Bool.and_eq_true, decide_eq_true_eq, Bool.not_eq_true',
        List.isEmpty_eq_false_iff, List.contains_eq_mem, decide_eq_false_iff_not] at h
      obtain ⟨⟨rfl, hne⟩, hline⟩ := h
      exact .type hne hline
  · rintro (_ | ⟨hne, hline⟩)
    · rfl
    · simp [isReturn, hne, hline]

theorem firstCut_close (h : Return t) : FirstCut (')' :: t) [] :=
  ⟨⟨t, rfl, h⟩, fun _ _ _ _ => Nat.zero_le _⟩

theorem firstCut_of_not_mem (hp : ')' ∉ p) (h : Return t) : FirstCut (p ++ ')' :: t) p := by
  refine ⟨⟨t, rfl, h⟩, fun q u hq _ => ?_⟩
  rcases List.append_eq_append_iff.1 hq with ⟨r, rfl, -⟩ | ⟨r, rfl, hr⟩
  · simp
  · cases r with
    | nil => simp
    | cons c r =>
      obtain rfl := (List.cons.inj hr).1
      exact absurd (by simp) hp

theorem firstCut_cons_iff {c : Char} (hc : ¬ (c = ')' ∧ Return s)) :
    FirstCut (c :: s) p ↔ ∃ p', p = c :: p' ∧ FirstCut s p' := by
  constructor
  · rintro ⟨⟨t, heq, ht⟩, hfirst⟩
    cases p with
    | nil =>
      obtain ⟨rfl, rfl⟩ := List.cons.inj heq
      exact absurd ⟨rfl, ht⟩ hc
    | cons d p =>
      obtain ⟨rfl, rfl⟩ := List.cons.inj heq
      refine ⟨p, rfl, ⟨t, rfl, ht⟩, fun q u hq hu => ?_⟩
      exact Nat.le_of_succ_le_succ (hfirst (c :: q) u (congrArg (c :: ·) hq) hu)
  · rintro ⟨p, rfl, ⟨t, rfl, ht⟩, hfirst⟩
    refine ⟨⟨t, rfl, ht⟩, fun q u hq hu => ?_⟩
    cases q with
    | nil =>
      obtain ⟨rfl, rfl⟩ := List.cons.inj hq
      exact absurd ⟨rfl, hu⟩ hc
    | cons d q =>
      exact Nat.succ_le_succ (hfirst q u (List.cons.inj hq).2 hu)

/-- What stands in parentheses is read up to the first `)` that only a return type follows. -/
theorem untilClose?_eq_some_iff : untilClose? s = some p ↔ '\n' ∉ p ∧ FirstCut s p := by
  induction s generalizing p with
  | nil =>
    refine ⟨fun h => (by cases h), fun ⟨_, ⟨t, ht, _⟩, _⟩ => ?_⟩
    simp at ht
  | cons c s ih =>
    rw [untilClose?]
    split
    · next h =>
      obtain ⟨rfl, hs⟩ := h
      have hcut := firstCut_close (isReturn_iff.1 hs)
      constructor
      · intro hp
        obtain rfl := Option.some.inj hp
        exact ⟨List.not_mem_nil, hcut⟩
      · -- the empty text is cut in front of this `)`, so the first cut is not longer
        rintro ⟨-, hp⟩
        have hlength := hp.first [] s rfl (isReturn_iff.1 hs)
        rw [List.eq_nil_of_length_eq_zero (Nat.le_zero.1 hlength)]
    · next h =>
      rw [isReturn_iff] at h
      rw [firstCut_cons_iff h]
      split
      · next hline =>
        refine ⟨fun h => (by cases h), ?_⟩
        rintro ⟨hp, p', rfl, -⟩
        exact absurd (hline ▸ List.mem_cons_self ..) hp
      · next hline =>
        rw [Option.map_eq_some_iff]
        constructor
        · rintro ⟨p', hp', rfl⟩
          obtain ⟨hp, hcut⟩ := ih.1 hp'
          exact ⟨List.not_mem_cons_of_ne_of_not_mem (Ne.symm hline) hp, p', rfl, hcut⟩
        · rintro ⟨hp, p', rfl, hcut⟩
          exact ⟨p', ih.2 ⟨fun h => hp (List.mem_cons_of_mem c h), hcut⟩, rfl⟩

/-- Some text that is on one line is read wherever there is a `)` to end it. -/
theorem exists_untilClose? (hline : '\n' ∉ p) (h : Return t) :
    ∃ q, untilClose? (p ++ ')' :: t) = some q := by
  induction p with
  | nil => exact ⟨[], by simp [untilClose?, isReturn_iff.2 h]⟩
  | cons c p ih =>
    simp only [List.mem_cons, not_or] at hline
    obtain ⟨q, hq⟩ := ih hline.2
    rw [List.cons_append, untilClose?, hq, if_neg (Ne.symm hline.1)]
    split
    · exact ⟨[], rfl⟩
    · exact ⟨c :: q, rfl⟩

theorem parameters?_of_return (h : Return t) : parameters? t = some none := by
  cases h with
  | none => rfl
  | type hne hline =>
    rw [parameters?, if_neg (by decide), if_pos (isReturn_iff.2 (.type hne hline))]

theorem parameters?_open (s : List Char) : parameters? ('(' :: s) = (untilClose? s).map some := by
  rw [parameters?, if_pos rfl]

theorem parameters?_of_not_mem (hline : '\n' ∉ p) (hclose : ')' ∉ p) (h : Return t) :
    parameters? ('(' :: (p ++ ')' :: t)) = some (some p) := by
  rw [parameters?_open, untilClose?_eq_some_iff.2 ⟨hline, firstCut_of_not_mem hclose h⟩]
  rfl

theorem exists_parameters?_iff : (∃ ps, parameters? tail = some ps) ↔ Tail tail := by
  constructor
  · rintro ⟨ps, h⟩
    cases tail with
    | nil => exact .bare .none
    | cons c s =>
      rw [parameters?] at h
      split at h
      · next hc =>
        obtain ⟨p, hp, -⟩ := Option.map_eq_some_iff.1 h
        obtain ⟨hline, ⟨t, rfl, ht⟩, -⟩ := untilClose?_eq_some_iff.1 hp
        exact hc ▸ .parameters hline ht
      · split at h
        · next hreturn => exact .bare (isReturn_iff.1 hreturn)
        · cases h
  · rintro (h | ⟨hline, h⟩)
    · exact ⟨none, parameters?_of_return h⟩
    · obtain ⟨q, hq⟩ := exists_untilClose? hline h
      exact ⟨some q, by rw [parameters?_open, hq]; rfl⟩

theorem Tail.takeWhile_isNameChar (h : Tail tail) : tail.takeWhile isNameChar = [] := by
  rcases h with ⟨_ | _⟩ | _ <;> rfl

theorem Tail.dropWhile_isNameChar (h : Tail tail) : tail.dropWhile isNameChar = tail := by
  rcases h with ⟨_ | _⟩ | _ <;> rfl

/-! ### Parts -/

theorem ofText?_of_hasForm {kind : SymbolKind} {parameters : Option (List Char)}
    (h : HasForm s kind segments tail) (hparameters : parameters? tail = some parameters) :
    ofText? s = some ⟨kind, segments.dropLast, segments.getLast?.getD "", parameters⟩ := by
  obtain ⟨⟨letter, hletter, rfl⟩, hne, hsegments, htail⟩ := h
  have hname : ∀ c ∈ (dotted segments).toList, isNameChar c = true :=
    fun c hc => isNameChar_of_mem_dotted hsegments hc
  have hempty : "" ∉ segments := fun hmem => (hsegments "" hmem).1 rfl
  -- all of the name belongs to the name, and the tail begins with what ends it
  rw [ofText?, List.takeWhile_append_of_pos hname, List.dropWhile_append_of_pos hname,
    htail.takeWhile_isNameChar, htail.dropWhile_isNameChar, List.append_nil,
    separated_dotted hne hsegments, kindOf?_eq_some_iff.2 hletter, hparameters]
  exact if_neg hempty

theorem hasForm_code {kind : SymbolKind} {tail : String} (hkind : kind ≠ .ctor)
    (hne : segments ≠ []) (hsegments : ∀ g ∈ segments, IsSegment g) (htail : Tail tail.toList) :
    HasForm (kind.code ++ ":" ++ dotted segments ++ tail).toList kind segments tail.toList := by
  obtain ⟨letter, hletter, hcode⟩ := exists_mem_letters hkind
  exact ⟨⟨letter, hletter, by simp [hcode]⟩, hne, hsegments, htail⟩

theorem hasForm_of_ofText? (h : ofText? s = some w) :
    ∃ tail, HasForm s w.kind (w.container ++ [w.name]) tail ∧
      parameters? tail = some w.parameters := by
  unfold ofText? at h
  split at h
  · next letter rest =>
    dsimp only at h
    split at h
    · next kind parameters hkind hparameters =>
      split at h
      · cases h
      · next hempty =>
        obtain rfl := Option.some.inj h
        have hne : (Text.separated '.' (rest.takeWhile isNameChar)).map String.ofList ≠ [] := by
          simp
        have hname : ∀ c ∈ rest.takeWhile isNameChar, isNameChar c = true :=
          List.all_eq_true.1 List.all_takeWhile
        have hsegments : ∀ g ∈ (Text.separated '.' (rest.takeWhile isNameChar)).map String.ofList,
            IsSegment g := fun g hg => isSegment_of_mem_separated hname hempty hg
        have htext : (dotted ((Text.separated '.' (rest.takeWhile isNameChar)).map
            String.ofList)).toList = rest.takeWhile isNameChar := by
          rw [toList_dotted, List.map_map]
          simpa using Text.intercalate_separated '.' (rest.takeWhile isNameChar)
        refine ⟨rest.dropWhile isNameChar, ?_, hparameters⟩
        dsimp only
        rw [List.getLast?_eq_some_getLast hne, Option.getD_some, List.dropLast_concat_getLast hne]
        refine ⟨⟨letter, kindOf?_eq_some_iff.1 hkind, ?_⟩, hne, hsegments,
          exists_parameters?_iff.1 ⟨_, hparameters⟩⟩
        rw [htext, List.takeWhile_append_dropWhile]
    · cases h
  · cases h

/-- The parts of an ID are those of its form. -/
theorem ofText?_eq_some_iff :
    ofText? s = some w ↔ ∃ tail, HasForm s w.kind (w.container ++ [w.name]) tail ∧
      parameters? tail = some w.parameters := by
  constructor
  · exact hasForm_of_ofText?
  · rintro ⟨tail, h, hparameters⟩
    simpa using ofText?_of_hasForm h hparameters

theorem HasForm.exists_parts {kind : SymbolKind} (h : HasForm s kind segments tail) :
    ∃ w, ofText? s = some w ∧ w.kind = kind ∧ w.container ++ [w.name] = segments ∧
      parameters? tail = some w.parameters := by
  obtain ⟨parameters, hparameters⟩ := exists_parameters?_iff.2 h.tail
  refine ⟨_, ofText?_of_hasForm h hparameters, rfl, ?_, hparameters⟩
  have hne := h.segments_ne_nil
  dsimp only
  rw [List.getLast?_eq_some_getLast hne, Option.getD_some, List.dropLast_concat_getLast hne]

/-- A text is cut into a letter, a name and a tail in one way only. -/
theorem HasForm.unique {kind kind' : SymbolKind} {segments' : List String} {tail' : List Char}
    (h : HasForm s kind segments tail) (h' : HasForm s kind' segments' tail') :
    kind = kind' ∧ segments = segments' := by
  obtain ⟨w, hw, rfl, rfl, -⟩ := h.exists_parts
  obtain ⟨w', hw', rfl, rfl, -⟩ := h'.exists_parts
  obtain rfl := Option.some.inj (hw.symm.trans hw')
  exact ⟨rfl, rfl⟩

theorem ofText?_eq_none_iff :
    ofText? s = none ↔ ¬ ∃ kind segments tail, HasForm s kind segments tail := by
  constructor
  · rintro h ⟨kind, segments, tail, hform⟩
    obtain ⟨w, hw, -⟩ := hform.exists_parts
    cases h.symm.trans hw
  · intro h
    cases hs : ofText? s with
    | none => rfl
    | some w =>
      obtain ⟨tail, hform, -⟩ := hasForm_of_ofText? hs
      exact absurd ⟨_, _, tail, hform⟩ h

/-- A method that is named like a constructor, without a type that it could construct. -/
def IsLoneConstructor (kind : SymbolKind) (segments : List String) : Prop :=
  kind = .method ∧ (segments = ["#ctor"] ∨ segments = ["#cctor"])

theorem isLoneConstructor_iff :
    IsLoneConstructor w.kind (w.container ++ [w.name]) ↔
      w.container = [] ∧ w.kind = .method ∧ w.name ∈ constructorNames := by
  cases hc : w.container with
  | nil => simp [IsLoneConstructor, constructorNames]
  | cons first rest => simp [IsLoneConstructor]

end DocComment.WrittenId

/-! ### Symbols -/

namespace DocComment.Symbol
open WrittenId

variable {id : String} {typeNames : List String} {w : WrittenId}

theorem ofId_of_ofText?_eq_none (h : ofText? (Text.trim id.toList) = none) :
    ofId id typeNames = .error (.invalid id) := by
  rw [ofId, h]

theorem ofId_nameSpace (h : ofText? (Text.trim id.toList) = some w) (hkind : w.kind = .nameSpace) :
    ofId id typeNames = .ok {
      documentationId := id, kind := .nameSpace, name := w.name, nameSpace := w.container } := by
  rw [ofId, h]
  exact if_pos hkind

theorem ofId_constructor (h : ofText? (Text.trim id.toList) = some w) (hkind : w.kind = .method)
    (hname : w.name ∈ constructorNames) {type : String}
    (htype : (cutContainer typeNames .method w.container).2.getLast? = some type) :
    ofId id typeNames = .ok {
      documentationId := id, kind := .ctor, name := Arity.stripped type
      nameSpace := (cutContainer typeNames .method w.container).1
      containingTypes := (cutContainer typeNames .method w.container).2.map Arity.stripped
      parameters := some
        ((w.parameters.map fun p => (Parameters.split p).map String.ofList).getD []) } := by
  rw [ofId, h]
  dsimp only
  rw [hkind, if_neg (by decide), if_pos ⟨rfl, hname⟩, htype]

theorem ofId_constructorWithoutType (h : ofText? (Text.trim id.toList) = some w)
    (hcontainer : w.container = []) (hkind : w.kind = .method) (hname : w.name ∈ constructorNames) :
    ofId id typeNames = .error (.constructorWithoutType id) := by
  rw [ofId, h]
  dsimp only
  rw [hkind, if_neg (by decide), if_pos ⟨rfl, hname⟩, hcontainer]
  rfl

theorem ofId_other (h : ofText? (Text.trim id.toList) = some w) (hkind : w.kind ≠ .nameSpace)
    (hname : ¬ (w.kind = .method ∧ w.name ∈ constructorNames)) :
    ofId id typeNames = .ok {
      documentationId := id, kind := w.kind, name := Arity.stripped (cutInterface w.name).1
      nameSpace := (cutContainer typeNames w.kind w.container).1
      containingTypes := (cutContainer typeNames w.kind w.container).2.map Arity.stripped
      parameters :=
        if w.kind = .method then
          some ((w.parameters.map fun p => (Parameters.split p).map String.ofList).getD [])
        else w.parameters.map fun p => (Parameters.split p).map String.ofList
      explicitInterface := (cutInterface w.name).2 } := by
  rw [ofId, h]
  dsimp only
  rw [if_neg hkind, if_neg hname]

theorem cutInterface_of_not_mem {name : String} (h : '#' ∉ name.toList) :
    cutInterface name = (name, none) := by
  unfold cutInterface
  rw [Text.separated_of_not_mem h]
  rfl

theorem ofId_plain (h : ofText? (Text.trim id.toList) = some w) (hkind : w.kind ≠ .nameSpace)
    (hname : '#' ∉ w.name.toList) :
    ofId id typeNames = .ok {
      documentationId := id, kind := w.kind, name := Arity.stripped w.name
      nameSpace := (cutContainer typeNames w.kind w.container).1
      containingTypes := (cutContainer typeNames w.kind w.container).2.map Arity.stripped
      parameters :=
        if w.kind = .method then
          some ((w.parameters.map fun p => (Parameters.split p).map String.ofList).getD [])
        else w.parameters.map fun p => (Parameters.split p).map String.ofList } := by
  have hconstructor : w.name ∉ constructorNames := by
    intro hmem
    simp only [constructorNames, List.mem_cons, List.not_mem_nil, or_false] at hmem
    rcases hmem with heq | heq <;> exact hname (heq ▸ by decide)
  rw [ofId_other h hkind fun hc => hconstructor hc.2, cutInterface_of_not_mem hname]

/-- The parts of an ID make a symbol with the listed parameters, unless they are those of a
constructor without a container. -/
theorem exists_ofId (h : ofText? (Text.trim id.toList) = some w)
    (hlone : ¬ IsLoneConstructor w.kind (w.container ++ [w.name])) (typeNames : List String) :
    ∃ s, ofId id typeNames = .ok s ∧ ∀ p, w.kind ≠ .nameSpace → w.parameters = some p →
      s.parameters = some ((Parameters.split p).map String.ofList) := by
  by_cases hkind : w.kind = .nameSpace
  · exact ⟨_, ofId_nameSpace h hkind, fun p hne _ => absurd hkind hne⟩
  · by_cases hname : w.kind = .method ∧ w.name ∈ constructorNames
    · have hcontainer : w.container ≠ [] :=
        fun hnil => hlone (isLoneConstructor_iff.2 ⟨hnil, hname⟩)
      have htypes : (cutContainer typeNames .method w.container).2 ≠ [] :=
        types_cutContainer_ne_nil typeNames (by decide) hcontainer
      refine ⟨_, ofId_constructor h hname.1 hname.2 (List.getLast?_eq_some_getLast htypes), ?_⟩
      intro p _ hp
      rw [hp]
      rfl
    · refine ⟨_, ofId_other h hkind hname, ?_⟩
      intro p _ hp
      dsimp only
      rw [hp]
      split <;> rfl

/-! ### Acceptance -/

variable (id typeNames)

/-- What becomes of a text depends on its form alone. -/
theorem ofId_cases :
    (∃ symbol kind segments tail, ofId id typeNames = .ok symbol ∧
        HasForm (Text.trim id.toList) kind segments tail ∧ ¬ IsLoneConstructor kind segments) ∨
      (∃ kind segments tail, ofId id typeNames = .error (.constructorWithoutType id) ∧
        HasForm (Text.trim id.toList) kind segments tail ∧ IsLoneConstructor kind segments) ∨
      (ofId id typeNames = .error (.invalid id) ∧
        ¬ ∃ kind segments tail, HasForm (Text.trim id.toList) kind segments tail) := by
  cases h : ofText? (Text.trim id.toList) with
  | none => exact .inr (.inr ⟨ofId_of_ofText?_eq_none h, ofText?_eq_none_iff.1 h⟩)
  | some w =>
    obtain ⟨tail, hform, -⟩ := hasForm_of_ofText? h
    by_cases hlone : IsLoneConstructor w.kind (w.container ++ [w.name])
    · obtain ⟨hcontainer, hkind, hname⟩ := isLoneConstructor_iff.1 hlone
      exact .inr (.inl ⟨_, _, tail, ofId_constructorWithoutType h hcontainer hkind hname, hform,
        hlone⟩)
    · obtain ⟨symbol, hsymbol, -⟩ := exists_ofId h hlone typeNames
      exact .inl ⟨symbol, _, _, tail, hsymbol, hform, hlone⟩

variable {id}

theorem exists_ofId_iff :
    (∃ symbol, ofId id typeNames = .ok symbol) ↔
      ∃ kind segments tail, HasForm (Text.trim id.toList) kind segments tail ∧
        ¬ IsLoneConstructor kind segments := by
  constructor
  · rintro ⟨symbol, h⟩
    rcases ofId_cases id typeNames with ⟨_, kind, segments, tail, -, hform, hlone⟩ |
      ⟨_, _, _, h', -⟩ | ⟨h', -⟩
    · exact ⟨kind, segments, tail, hform, hlone⟩
    · cases h.symm.trans h'
    · cases h.symm.trans h'
  · rintro ⟨kind, segments, tail, hform, hlone⟩
    rcases ofId_cases id typeNames with ⟨symbol, _, _, _, h, -⟩ | ⟨_, _, _, -, hform', hlone'⟩ |
      ⟨-, hnone⟩
    · exact ⟨symbol, h⟩
    · obtain ⟨rfl, rfl⟩ := hform.unique hform'
      exact absurd hlone' hlone
    · exact absurd ⟨kind, segments, tail, hform⟩ hnone

theorem ofId_eq_constructorWithoutType_iff :
    ofId id typeNames = .error (.constructorWithoutType id) ↔
      ∃ kind segments tail, HasForm (Text.trim id.toList) kind segments tail ∧
        IsLoneConstructor kind segments := by
  constructor
  · intro h
    rcases ofId_cases id typeNames with ⟨_, _, _, _, h', -⟩ |
      ⟨kind, segments, tail, -, hform, hlone⟩ | ⟨h', -⟩
    · cases h.symm.trans h'
    · exact ⟨kind, segments, tail, hform, hlone⟩
    · cases h.symm.trans h'
  · rintro ⟨kind, segments, tail, hform, hlone⟩
    rcases ofId_cases id typeNames with ⟨_, _, _, _, -, hform', hlone'⟩ | ⟨_, _, _, h, -⟩ |
      ⟨-, hnone⟩
    · obtain ⟨rfl, rfl⟩ := hform.unique hform'
      exact absurd hlone hlone'
    · exact h
    · exact absurd ⟨kind, segments, tail, hform⟩ hnone

theorem ofId_eq_invalid_iff :
    ofId id typeNames = .error (.invalid id) ↔
      ¬ ∃ kind segments tail, HasForm (Text.trim id.toList) kind segments tail := by
  rw [← ofText?_eq_none_iff]
  constructor
  · intro h
    rcases ofId_cases id typeNames with ⟨_, _, _, _, h', -⟩ | ⟨_, _, _, h', -⟩ | ⟨-, hnone⟩
    · cases h.symm.trans h'
    · cases h.symm.trans h'
    · exact ofText?_eq_none_iff.2 hnone
  · exact ofId_of_ofText?_eq_none

variable {typeNames}

/-- What stands in parentheses is read up to the first `)` that only a return type follows. -/
theorem parameters_of_ofId {symbol : Symbol} {kind : SymbolKind} {segments : List String}
    {inner : List Char} (h : ofId id typeNames = .ok symbol)
    (hform : HasForm (Text.trim id.toList) kind segments ('(' :: inner)) :
    ∃ p, FirstCut inner p ∧ (ofText? (Text.trim id.toList)).bind WrittenId.parameters = some p ∧
      (kind ≠ .nameSpace → symbol.parameters = some ((Parameters.split p).map String.ofList)) := by
  obtain ⟨w, hw, rfl, rfl, hparameters⟩ := hform.exists_parts
  have hlone : ¬ IsLoneConstructor w.kind (w.container ++ [w.name]) := by
    obtain ⟨_, _, _, hform', hlone⟩ := (exists_ofId_iff typeNames).1 ⟨symbol, h⟩
    obtain ⟨rfl, rfl⟩ := hform.unique hform'
    exact hlone
  obtain ⟨s, hs, hlisted⟩ := exists_ofId hw hlone typeNames
  obtain rfl := Except.ok.inj (h.symm.trans hs)
  rw [parameters?_open, Option.map_eq_some_iff] at hparameters
  obtain ⟨p, hp, hwp⟩ := hparameters
  refine ⟨p, (untilClose?_eq_some_iff.1 hp).2, ?_, fun hkind => hlisted p hkind hwp.symm⟩
  rw [hw, Option.bind_some, hwp]

/-- A text becomes a symbol exactly if it has the form of an ID, less the blanks around it, and is
no constructor without a container. Which types are known does not matter. -/
theorem ofId_grammar (id : String) (typeNames : List String) :
    ((∃ symbol, ofId id typeNames = .ok symbol) ↔
      ∃ kind segments tail, HasForm (Text.trim id.toList) kind segments tail ∧
        ¬ IsLoneConstructor kind segments) ∧
    (ofId id typeNames = .error (.constructorWithoutType id) ↔
      ∃ kind segments tail, HasForm (Text.trim id.toList) kind segments tail ∧
        IsLoneConstructor kind segments) ∧
    (ofId id typeNames = .error (.invalid id) ↔
      ¬ ∃ kind segments tail, HasForm (Text.trim id.toList) kind segments tail) ∧
    (IdError.constructorWithoutType id).message =
      "Constructor without a type: " ++ String.ofList (Text.quoted id.toList) ∧
    (IdError.invalid id).message =
      "Invalid documentation ID: " ++ String.ofList (Text.quoted id.toList) ∧
    ∀ symbol kind segments inner, ofId id typeNames = .ok symbol →
      HasForm (Text.trim id.toList) kind segments ('(' :: inner) →
      ∃ p, FirstCut inner p ∧ (ofText? (Text.trim id.toList)).bind WrittenId.parameters = some p ∧
        (kind ≠ .nameSpace →
          symbol.parameters = some ((Parameters.split p).map String.ofList)) :=
  ⟨exists_ofId_iff typeNames, ofId_eq_constructorWithoutType_iff typeNames,
    ofId_eq_invalid_iff typeNames, rfl, rfl,
    fun _ _ _ _ hsymbol hform => parameters_of_ofId hsymbol hform⟩

theorem ofId_two_cuts :
    HasForm (Text.trim " M:A.m(p)~q)~r".toList) .method ["A", "m"] "(p)~q)~r".toList ∧
      ∃ symbol, ofId " M:A.m(p)~q)~r" ["B"] = .ok symbol ∧ symbol.parameters = some ["p"] := by
  have hreturn : Return "~r".toList := .type (by decide) (by decide)
  have htail : Tail "(p)~q)~r".toList := .parameters (p := "p)~q".toList) (by decide) hreturn
  have hsegment : ∀ g ∈ ["A", "m"], IsSegment g := by
    unfold IsSegment
    decide
  have hform : HasForm (Text.trim " M:A.m(p)~q)~r".toList) .method ["A", "m"] "(p)~q)~r".toList :=
    ⟨⟨'M', by decide, rfl⟩, by decide, hsegment, htail⟩
  have hgrammar := ofId_grammar " M:A.m(p)~q)~r" ["B"]
  obtain ⟨symbol, hsymbol⟩ := hgrammar.1.2 ⟨_, _, _, hform, by unfold IsLoneConstructor; decide⟩
  obtain ⟨p, ⟨⟨t, hcut, -⟩, hfirst⟩, -, hparameters⟩ :=
    hgrammar.2.2.2.2.2 symbol _ _ "p)~q)~r".toList hsymbol hform
  have hlength := hfirst "p".toList "~q)~r".toList rfl (.type (by decide) (by decide))
  refine ⟨hform, symbol, hsymbol, ?_⟩
  match p, hlength, hcut with
  | [], _, hcut => cases (List.cons.inj hcut).1
  | [c], _, hcut =>
    obtain rfl := (List.cons.inj hcut).1
    exact hparameters (by decide)

end DocComment.Symbol
