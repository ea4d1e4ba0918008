import DocComment.Proofs.DeclaredIds
import DocComment.Proofs.Edited
import DocComment.Proofs.FullName
import DocComment.Proofs.Trimmed
import DocComment.Proofs.Walk

/-!
# References that read alike

The text of a comment depends on the texts of its references, not on their runs
(`textOf_nodeRuns_eq`). A full name reads like the ID that it belongs to. So with bare IDs a comment
has the same text whether its references are looked up or not, whichever types are declared
(`formatToString_ofIds`).
-/

namespace DocComment
open Xml

/-! ### Texts of references -/

section
variable {shown shown' : String → List Run} {es : List (Event String)}

/-- References with the same text make the same transcript if there is something to show of them. -/
theorem Transcript.run_map_eq (hne : ∀ identifier, shown identifier ≠ [])
    (hne' : ∀ identifier, shown' identifier ≠ [])
    (htext : ∀ identifier, .reference identifier ∈ es →
      Run.textOf (shown identifier) = Run.textOf (shown' identifier)) (t : Transcript) :
    t.run (es.map (Event.map shown)) = t.run (es.map (Event.map shown')) := by
  induction es generalizing t with
  | nil => rfl
  | cons e es ih =>
    have hstep : t.step (e.map shown) = t.step (e.map shown') := by
      cases e with
      | reference identifier =>
        -- a step reads the text of the runs, and of the runs only whether there are any
        have hempty : (shown identifier).isEmpty = (shown' identifier).isEmpty := by
          rw [List.isEmpty_eq_false_iff.2 (hne identifier),
            List.isEmpty_eq_false_iff.2 (hne' identifier)]
        rw [Event.map, Event.map, step, step, htext identifier (List.mem_cons_self ..), hempty]
      | text content => rfl
      | beginParagraph => rfl
      | endParagraph => rfl
    have hrest := ih (fun identifier hmem => htext identifier (List.mem_cons_of_mem _ hmem))
      (t.step (e.map shown))
    rw [List.map_cons, List.map_cons]
    exact hrest.trans (congrArg (fun u : Transcript => u.run (es.map (Event.map shown'))) hstep)

end

variable {v v' : View} {f : Formatter} {identifier raw : String} {ids : List String}
  {table : SymbolTable}

theorem View.OfIds.textOf_nodeRuns (h : v.OfIds) (lineBreak : String) (n : Node Name) :
    (Formatter.nodeRuns lineBreak v n).map Run.textOf =
      match n.unresolved? with
      | some name => .error (.unresolvedName name.tagPart)
      | none => .ok ((Progress.transcript { accumulator := { lineBreak } }).run
          (n.events.map (Event.map v.shown))).text := by
  have hfresh : Progress.Bounded { accumulator := { lineBreak } } :=
    fun _ hk => absurd hk List.not_mem_nil
  rw [h.nodeRuns_eq, ← Progress.transcript_run hfresh, Accumulator.run_events]
  cases n.unresolved? <;> rfl

theorem View.OfIds.textOf_nodeRuns_eq (h : v.OfIds) (h' : v'.OfIds) {n : Node Name}
    (htext : ∀ identifier, .reference identifier ∈ n.events →
      Run.textOf (v.shown identifier) = Run.textOf (v'.shown identifier)) (lineBreak : String) :
    (Formatter.nodeRuns lineBreak v n).map Run.textOf =
      (Formatter.nodeRuns lineBreak v' n).map Run.textOf := by
  rw [h.textOf_nodeRuns, h'.textOf_nodeRuns,
    Transcript.run_map_eq h.shown_ne_nil h'.shown_ne_nil htext]

theorem Formatter.formatToString_congr {t t' : Option SymbolTable}
    (h : ∀ root, Fragment.parse? raw = some root →
      (nodeRuns f.lineBreak (f.view t) root).map Run.textOf =
        (nodeRuns f.lineBreak (f.view t') root).map Run.textOf) :
    f.formatToString raw t = f.formatToString raw t' := by
  cases hparse : Fragment.parse? raw with
  | none => rw [formatToString, formatToString, viewedRuns, viewedRuns, hparse]
  | some root =>
    rw [formatToString_eq hparse, formatToString_eq hparse, h root hparse]

/-! ### Tables of bare IDs -/

theorem exists_ofIds (h : ∀ id ∈ ids, IsBareId id) :
    ∃ table, SymbolTable.ofIds ids = .ok table :=
  SymbolTable.exists_ofIds_iff.2 fun id hid => (h id hid).valid

/-- The symbols of bare IDs are shown as what their keys say behind the colon. -/
theorem exists_runs_of_mem_ofIds (h : ∀ id ∈ ids, IsBareId id)
    (htable : SymbolTable.ofIds ids = .ok table) {s : Symbol} (hs : s ∈ table.symbols) :
    s.isConstructor = false ∧
      ∃ rs, s.runs .fullName [] = .ok rs ∧ Run.textOf rs = Reference.withoutMarker s.key := by
  obtain ⟨id, hid, hofId⟩ := SymbolTable.exists_mem_of_mem_ofIds htable hs
  have htrim : Text.trim (trimmed id).toList = (trimmed id).toList := by
    rw [Text.trim_toList_trimmed, trimmed, String.toList_ofList]
  have hbare : ∀ c ∈ (trimmed id).toList, c ≠ '#' ∧ c ≠ Arity.mark ∧ c ≠ '(' ∧ c ≠ '~' := by
    intro c hc
    rw [trimmed, String.toList_ofList] at hc
    exact (h id hid).bare c (Text.mem_of_mem_trim hc)
  obtain ⟨hctor, -, rs, hrs, htext⟩ := Symbol.exists_runs_of_ofId hbare htrim hofId
  exact ⟨hctor, rs, hrs, by rw [htext, Symbol.key_of_ofId hofId]⟩

theorem View.textOf_shown_of_table_eq_none (h : v.table = none) :
    Run.textOf (v.shown identifier) = Reference.withoutMarker identifier := by
  have hlookup : v.lookup identifier = none := by
    rw [lookup, h]
    exact ite_self _
  rw [shown, referenceRuns_of_literal (.inr hlookup)]
  exact Run.textOf_singleton _

theorem textOf_shown_of_ofIds (h : ∀ id ∈ ids, IsBareId id)
    (htable : SymbolTable.ofIds ids = .ok table) (hformat : f.format = .fullName)
    (htrim : trimmed identifier = identifier) :
    Run.textOf ((f.view (some table)).shown identifier) = Reference.withoutMarker identifier := by
  have hofIds : (f.view (some table)).OfIds := fun t ht => ⟨ids, Option.some.inj ht ▸ htable⟩
  have hshows := hofIds.shows_shown identifier
  generalize (f.view (some table)).shown identifier = rs at hshows ⊢
  cases hshows with
  | @symbol s _ hrenders hlookup hrs =>
    obtain ⟨t, ht, hmem, hkey⟩ := View.exists_mem_of_lookup hlookup
    obtain rfl : table = t := Option.some.inj ht
    obtain ⟨hctor, rs', hrs', htext⟩ := exists_runs_of_mem_ofIds h htable hmem
    have hfull : (f.view (some table)).formatFor s = .fullName := by
      rw [View.formatFor, hctor]
      exact hformat
    rw [hfull] at hrs
    obtain rfl := Except.ok.inj (hrs.symm.trans hrs')
    rw [htext, hkey, htrim]
  | literal _ => exact Run.textOf_singleton _

/-- With full names a comment has the same text whether its references are looked up in a table of
bare IDs or not at all. There is a text if the comment is well formed and all elements that are met
have local names. -/
theorem formatToString_ofIds (ids : List String) (h : ∀ id ∈ ids, IsBareId id) (f : Formatter)
    (hformat : f.format = .fullName) (raw : String)
    (hraw : ∀ root, Fragment.parse? raw = some root → ∀ identifier,
      .reference identifier ∈ root.events →
        Text.startsBlank identifier.toList = false ∧ Text.endsBlank identifier.toList = false) :
    ∃ table, SymbolTable.ofIds ids = .ok table ∧
      f.formatToString raw (some table) = f.formatToString raw none ∧
      ∀ root, Fragment.parse? raw = some root → (∀ name ∈ root.metNames, name.isResolved) →
        ∃ text, f.formatToString raw none = .ok text := by
  obtain ⟨table, htable⟩ := exists_ofIds h
  have hnone : (f.view none).OfIds := View.ofIds_of_table_eq_none rfl
  have hsome : (f.view (some table)).OfIds := fun t ht => ⟨ids, Option.some.inj ht ▸ htable⟩
  refine ⟨table, htable, ?_, fun root hroot hnames => ?_⟩
  · refine Formatter.formatToString_congr fun root hroot =>
      hsome.textOf_nodeRuns_eq hnone (fun identifier hidentifier => ?_) f.lineBreak
    have htrim : trimmed identifier = identifier := by
      rw [trimmed, Text.trim_eq_self_iff.2 (hraw root hroot identifier hidentifier),
        String.ofList_toList]
    rw [textOf_shown_of_ofIds h htable hformat htrim, View.textOf_shown_of_table_eq_none rfl]
  · rw [Formatter.formatToString_eq hroot, hnone.textOf_nodeRuns,
      Node.unresolved?_eq_none_iff.2 hnames]
    exact ⟨_, rfl⟩

theorem formatToString_of_inner_type :
    let ids := [" T:My.Outer", "T:My.Outer.Inner\n", "M:My.Outer.Inner.Run"]
    let f : Formatter := { format := .fullName }
    let raw := "See <see cref=\"M:My.Outer.Inner.Run\"/>, <c>or</c> <see cref=\"T:Gone.A\"/>"
    (∀ id ∈ ids, IsBareId id) ∧ f.format = .fullName ∧
      (∀ root, Fragment.parse? raw = some root → ∀ identifier,
        .reference identifier ∈ root.events →
          Text.startsBlank identifier.toList = false ∧ Text.endsBlank identifier.toList = false) ∧
      ∃ table, SymbolTable.ofIds ids = .ok table ∧
        (f.formatToString raw (some table)).toOption = some "See My.Outer.Inner.Run, or Gone.A" ∧
        (f.formatToRuns raw (some (.ofScopes table [])) none none).toOption =
          some [.plain "See", .space, ⟨.namespaceName, "My"⟩, .punctuation ".",
            ⟨.typeName, "Outer"⟩, .punctuation ".", ⟨.typeName, "Inner"⟩, .punctuation ".",
            ⟨.memberName, "Run"⟩, .plain ",", .space, .plain "or", .space, .plain "Gone.A"] := by
  intro ids f raw
  have hids : ∀ id ∈ ids, IsBareId id := by
    intro id hid
    simp only [ids, List.mem_cons, List.not_mem_nil, or_false] at hid
    rcases hid with rfl | rfl | rfl <;> exact ⟨⟨_, rfl⟩, by decide⟩
  have hevents : (Fragment.parse? raw).map Node.events =
      some [.text "See ", .reference "M:My.Outer.Inner.Run", .text ", ", .text "or", .text " ",
        .reference "T:Gone.A"] := by
    decide +kernel
  have hraw : ∀ root, Fragment.parse? raw = some root → ∀ identifier,
      .reference identifier ∈ root.events →
        Text.startsBlank identifier.toList = false ∧ Text.endsBlank identifier.toList = false := by
    intro root hroot identifier hmem
    rw [hroot] at hevents
    rw [Option.some.inj hevents] at hmem
    simp only [List.mem_cons, List.not_mem_nil, or_false, Event.reference.injEq, reduceCtorEq,
      false_or] at hmem
    rcases hmem with rfl | rfl <;> decide
  obtain ⟨table, htable, htext, -⟩ := formatToString_ofIds ids hids f rfl raw hraw
  have hruns : (SymbolTable.ofIds ids).toOption.bind (fun table =>
      (f.formatToRuns raw (some (.ofScopes table [])) none none).toOption) =
        some [.plain "See", .space, ⟨.namespaceName, "My"⟩, .punctuation ".",
          ⟨.typeName, "Outer"⟩, .punctuation ".", ⟨.typeName, "Inner"⟩, .punctuation ".",
          ⟨.memberName, "Run"⟩, .plain ",", .space, .plain "or", .space, .plain "Gone.A"] := by
    decide +kernel
  rw [htable] at hruns
  refine ⟨hids, rfl, hraw, table, htable, ?_, hruns⟩
  rw [htext]
  decide +kernel

end DocComment
