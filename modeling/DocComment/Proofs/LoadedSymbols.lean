import DocComment.Proofs.DeclaredIds
import DocComment.Proofs.ImportedNamespaces
import DocComment.SymbolFile

/-!
# Loaded symbol files

A symbol file is loaded as a whole or not at all (`load_whole`). It fails at the first of these: it
is read, decoded, found to be of the right shape, and its IDs are read in their order. What is
loaded has the symbols of all IDs that the file lists, each once, and no others, and everything is
imported that the file lists for a position or an earlier one. How the text of a file lists IDs and
imports makes no difference to that, so the function that reads it is left open.
-/

namespace DocComment

section
variable {α β ε : Type} {f : α → Except ε β} {as : List α} {e : ε}

theorem map_eq_error_iff {g : α → β} {x : Except ε α} : x.map g = .error e ↔ x = .error e := by
  cases x <;> simp [Except.map]

theorem mapM_cons_eq_error_iff {a : α} :
    (a :: as).mapM f = .error e ↔
      f a = .error e ∨ (∃ c, f a = .ok c) ∧ as.mapM f = .error e := by
  rw [List.mapM_cons]
  cases f a with
  | error e' =>
    have hthrow : (do let c ← Except.error e'; let cs ← as.mapM f; pure (c :: cs)) =
        (.error e' : Except ε (List β)) := rfl
    rw [hthrow]
    simp
  | ok c =>
    have hrest : (do let cs ← as.mapM f; pure (c :: cs)) = .error e ↔ as.mapM f = .error e :=
      map_eq_error_iff (g := (c :: ·))
    exact hrest.trans (by simp)

/-- A list fails for the first of its elements that fails. -/
theorem mapM_eq_error_iff :
    as.mapM f = .error e ↔ ∃ before a after, as = before ++ a :: after ∧
      (∀ b ∈ before, ∃ c, f b = .ok c) ∧ f a = .error e := by
  induction as with
  | nil =>
    refine ⟨fun h => (by cases h), ?_⟩
    rintro ⟨before, a, after, h, -⟩
    simp at h
  | cons a as ih =>
    rw [mapM_cons_eq_error_iff, ih]
    constructor
    · rintro (ha | ⟨ha, before, b, after, rfl, hbefore, hb⟩)
      · exact ⟨[], a, as, rfl, fun _ hb => absurd hb List.not_mem_nil, ha⟩
      · exact ⟨a :: before, b, after, rfl, List.forall_mem_cons.2 ⟨ha, hbefore⟩, hb⟩
    · rintro ⟨before, b, after, heq, hbefore, hb⟩
      cases before with
      | nil =>
        obtain ⟨rfl, rfl⟩ := List.cons.inj heq
        exact .inl hb
      | cons first before =>
        obtain ⟨rfl, rfl⟩ := List.cons.inj heq
        obtain ⟨ha, hbefore⟩ := List.forall_mem_cons.1 hbefore
        exact .inr ⟨ha, before, b, after, rfl, hbefore, hb⟩

end

/-! ### Reading -/

namespace FileEntry

/-- There is a file in UTF-8, and `text` is what it holds, with lines that end in line feeds. -/
def Holds (entry : FileEntry) (text : String) : Prop :=
  ∃ s : String, entry = .file s.toUTF8 ∧ text = String.ofList (Text.unixLines s.toList)

/-- Why no text is read: there is no file, or no text has its bytes. -/
inductive Unreadable : FileEntry → ReadError → Prop where
  | missing : Unreadable .missing .missing
  | directory : Unreadable .directory .isDirectory
  | encoding {content : ByteArray} (h : ∀ s : String, s.toUTF8 ≠ content) :
    Unreadable (.file content) .notUtf8

variable {entry : FileEntry} {content : ByteArray} {text s : String} {e : ReadError}

theorem fromUTF8?_eq_some_iff : String.fromUTF8? content = some s ↔ s.toUTF8 = content := by
  unfold String.fromUTF8?
  constructor
  · intro h
    split at h
    · obtain rfl := Option.some.inj h
      rfl
    · cases h
  · rintro rfl
    rw [String.toUTF8_eq_toByteArray, dif_pos s.isValidUTF8]
    rfl

theorem text_eq_ok_iff : entry.text = .ok text ↔ entry.Holds text := by
  cases entry with
  | missing => exact iff_of_false (fun h => by cases h) (fun ⟨_, h, _⟩ => by cases h)
  | directory => exact iff_of_false (fun h => by cases h) (fun ⟨_, h, _⟩ => by cases h)
  | file content =>
    rw [FileEntry.text, decode]
    constructor
    · intro h
      split at h
      · cases h
      · next s hs =>
        exact ⟨s, congrArg _ (fromUTF8?_eq_some_iff.1 hs).symm, (Except.ok.inj h).symm⟩
    · rintro ⟨s, h, rfl⟩
      rw [fromUTF8?_eq_some_iff.2 (FileEntry.file.inj h).symm]

theorem text_eq_error_iff : entry.text = .error e ↔ entry.Unreadable e := by
  cases entry with
  | missing =>
    refine ⟨fun h => ?_, fun h => by cases h; rfl⟩
    obtain rfl := Except.error.inj h
    exact .missing
  | directory =>
    refine ⟨fun h => ?_, fun h => by cases h; rfl⟩
    obtain rfl := Except.error.inj h
    exact .directory
  | file content =>
    rw [FileEntry.text, decode]
    constructor
    · intro h
      split at h
      · next hnone =>
        obtain rfl := Except.error.inj h
        refine .encoding fun s hs => ?_
        rw [fromUTF8?_eq_some_iff.2 hs] at hnone
        cases hnone
      · cases h
    · intro h
      cases h with
      | encoding hnone =>
        cases hs : String.fromUTF8? content with
        | none => rfl
        | some s => exact absurd (fromUTF8?_eq_some_iff.1 hs) (hnone s)

end FileEntry

/-! ### IDs -/

/-- Why a text is refused does not depend on the known types. -/
theorem Symbol.ofId_eq_error_of {id : String} {typeNames : List String} {e : IdError}
    (h : ofId id typeNames = .error e) (typeNames' : List String) :
    ofId id typeNames' = .error e := by
  rcases ofId_cases id typeNames with ⟨s, _, _, _, hs, -⟩ | ⟨_, _, _, hs, hform, hlone⟩ |
    ⟨hs, hnone⟩
  · cases h.symm.trans hs
  · obtain rfl := Except.error.inj (h.symm.trans hs)
    exact (ofId_eq_constructorWithoutType_iff typeNames').2 ⟨_, _, _, hform, hlone⟩
  · obtain rfl := Except.error.inj (h.symm.trans hs)
    exact (ofId_eq_invalid_iff typeNames').2 hnone

namespace SymbolTable

variable {ids : List String} {t : SymbolTable} {e : IdError}

theorem ofIds_eq_error_iff :
    ofIds ids = .error e ↔ ∃ before id after, ids = before ++ id :: after ∧
      (∀ id' ∈ before, ∃ s, Symbol.ofId id' [] = .ok s) ∧
      Symbol.ofId (trimmed id) [] = .error e := by
  have htypes (id : String) (names : List String) :
      Symbol.ofId id names = .error e ↔ Symbol.ofId id [] = .error e :=
    ⟨fun h => Symbol.ofId_eq_error_of h [], fun h => Symbol.ofId_eq_error_of h names⟩
  rw [ofIds, map_eq_error_iff, List.mapM_map, mapM_eq_error_iff]
  have haccepted (id : String) (names : List String) :
      (∃ s, Symbol.ofId (trimmed id) names = .ok s) ↔ ∃ s, Symbol.ofId id [] = .ok s :=
    Symbol.exists_ofId_trimmed_iff
  simp only [Function.comp_apply, htypes, haccepted]

end SymbolTable

/-! ### Loading -/

namespace SymbolFile

section
variable (read : String → Option SymbolFile)

/-- What is found is a symbol file that lists what `file` says. -/
def IsIn (file : SymbolFile) (entry : FileEntry) : Prop :=
  ∃ text, entry.Holds text ∧ read text = some file

/-- Why a symbol file is not loaded: it cannot be read, it is not of the right shape, or some text
that it lists is the first that is not the ID of a symbol. -/
inductive Fails (entry : FileEntry) : SymbolFileError → Prop where
  | unreadable {cause : ReadError} (h : entry.Unreadable cause) : Fails entry (.unreadable cause)
  | invalid {text : String} (h : entry.Holds text) (shape : read text = none) :
    Fails entry .invalid
  | badId {file : SymbolFile} {before after : List String} {id : String} {cause : IdError}
    (h : file.IsIn read entry) (cut : file.symbols = before ++ id :: after)
    (accepted : ∀ id' ∈ before, ∃ s, Symbol.ofId id' [] = .ok s)
    (refused : Symbol.ofId (trimmed id) [] = .error cause) : Fails entry (.badId cause)

end

/-- A model has all that a file lists, and nothing else. -/
structure IsLoaded (file : SymbolFile) (m : SemanticModel) : Prop where
  resolves : ∀ id ∈ file.symbols, ∃ s, m.table.resolve id = some s ∧ s.documentationId = trimmed id
  listed : ∀ x s, m.table.resolve x = some s → trimmed x ∈ file.symbols.map trimmed
  size : m.table.size = (file.symbols.map trimmed).dedup.length
  imports : ∀ position name, name ∈ m.importsAt (some position) ↔
    ∃ scope ∈ file.imports, scope.position ≤ position ∧ name ∈ scope.namespaces

variable {read : String → Option SymbolFile} {entry : FileEntry} {file : SymbolFile}
  {m : SemanticModel} {e : SymbolFileError}

theorem IsIn.eq {file' : SymbolFile} (h : file.IsIn read entry) (h' : file'.IsIn read entry) :
    file = file' := by
  obtain ⟨text, htext, hfile⟩ := h
  obtain ⟨text', htext', hfile'⟩ := h'
  have heq : text = text' := Except.ok.inj
    ((FileEntry.text_eq_ok_iff.2 htext).symm.trans (FileEntry.text_eq_ok_iff.2 htext'))
  rw [heq] at hfile
  exact Option.some.inj (hfile.symm.trans hfile')

theorem loadWith_of_unreadable {cause : ReadError} (h : entry.Unreadable cause) :
    loadWith read entry = .error (.unreadable cause) := by
  rw [loadWith, FileEntry.text_eq_error_iff.2 h]

theorem loadWith_of_holds {text : String} (h : entry.Holds text) (shape : read text = none) :
    loadWith read entry = .error .invalid := by
  rw [loadWith, FileEntry.text_eq_ok_iff.2 h]
  dsimp only
  rw [shape]

theorem loadWith_of_table {table : SymbolTable} (h : file.IsIn read entry)
    (htable : SymbolTable.ofIds file.symbols = .ok table) :
    loadWith read entry = .ok (.ofScopes table file.imports) := by
  obtain ⟨text, htext, hfile⟩ := h
  rw [loadWith, FileEntry.text_eq_ok_iff.2 htext]
  dsimp only
  rw [hfile]
  dsimp only
  rw [htable]

theorem loadWith_of_refused {cause : IdError} (h : file.IsIn read entry)
    (hcause : SymbolTable.ofIds file.symbols = .error cause) :
    loadWith read entry = .error (.badId cause) := by
  obtain ⟨text, htext, hfile⟩ := h
  rw [loadWith, FileEntry.text_eq_ok_iff.2 htext]
  dsimp only
  rw [hfile]
  dsimp only
  rw [hcause]

/-- A file cannot be read, or it is not of the right shape, or it lists something. -/
theorem stage_cases (read : String → Option SymbolFile) (entry : FileEntry) :
    (∃ cause, entry.Unreadable cause) ∨ (∃ text, entry.Holds text ∧ read text = none) ∨
      ∃ file : SymbolFile, file.IsIn read entry := by
  cases htext : entry.text with
  | error cause => exact .inl ⟨cause, FileEntry.text_eq_error_iff.1 htext⟩
  | ok text =>
    have hholds := FileEntry.text_eq_ok_iff.1 htext
    cases hfile : read text with
    | none => exact .inr (.inl ⟨text, hholds, hfile⟩)
    | some file => exact .inr (.inr ⟨file, text, hholds, hfile⟩)

theorem loadWith_eq_ok_iff :
    loadWith read entry = .ok m ↔ ∃ (file : SymbolFile) (table : SymbolTable), file.IsIn read entry ∧
      SymbolTable.ofIds file.symbols = .ok table ∧ m = .ofScopes table file.imports := by
  constructor
  · intro h
    rcases stage_cases read entry with ⟨cause, hread⟩ | ⟨text, hholds, hshape⟩ | ⟨file, hin⟩
    · rw [loadWith_of_unreadable hread] at h
      cases h
    · rw [loadWith_of_holds hholds hshape] at h
      cases h
    · cases htable : SymbolTable.ofIds file.symbols with
      | error cause =>
        rw [loadWith_of_refused hin htable] at h
        cases h
      | ok table =>
        have hm := Except.ok.inj ((loadWith_of_table hin htable).symm.trans h)
        exact ⟨file, table, hin, htable, hm.symm⟩
  · rintro ⟨file, table, hin, htable, rfl⟩
    exact loadWith_of_table hin htable

theorem loadWith_eq_error_iff : loadWith read entry = .error e ↔ Fails read entry e := by
  constructor
  · intro h
    rcases stage_cases read entry with ⟨cause, hread⟩ | ⟨text, hholds, hshape⟩ | ⟨file, hin⟩
    · obtain rfl := Except.error.inj ((loadWith_of_unreadable hread).symm.trans h)
      exact .unreadable hread
    · obtain rfl := Except.error.inj ((loadWith_of_holds hholds hshape).symm.trans h)
      exact .invalid hholds hshape
    · cases htable : SymbolTable.ofIds file.symbols with
      | error cause =>
        obtain rfl := Except.error.inj ((loadWith_of_refused hin htable).symm.trans h)
        obtain ⟨before, id, after, hcut, haccepted, hrefused⟩ :=
          SymbolTable.ofIds_eq_error_iff.1 htable
        exact .badId hin hcut haccepted hrefused
      | ok table =>
        rw [loadWith_of_table hin htable] at h
        cases h
  · rintro (hread | ⟨hholds, hshape⟩ | ⟨hin, hcut, haccepted, hrefused⟩)
    · exact loadWith_of_unreadable hread
    · exact loadWith_of_holds hholds hshape
    · exact loadWith_of_refused hin
        (SymbolTable.ofIds_eq_error_iff.2 ⟨_, _, _, hcut, haccepted, hrefused⟩)

theorem exists_loadWith_iff : (∃ m, loadWith read entry = .ok m) ↔
    ∃ file : SymbolFile, file.IsIn read entry ∧ ∀ id ∈ file.symbols, ∃ s, Symbol.ofId id [] = .ok s := by
  constructor
  · rintro ⟨m, h⟩
    obtain ⟨file, table, hin, htable, -⟩ := loadWith_eq_ok_iff.1 h
    exact ⟨file, hin, SymbolTable.exists_ofIds_iff.1 ⟨table, htable⟩⟩
  · rintro ⟨file, hin, haccepted⟩
    obtain ⟨table, htable⟩ := SymbolTable.exists_ofIds_iff.2 haccepted
    exact ⟨_, loadWith_eq_ok_iff.2 ⟨file, table, hin, htable, rfl⟩⟩

theorem isLoaded_ofScopes {table : SymbolTable} (h : SymbolTable.ofIds file.symbols = .ok table) :
    IsLoaded file (.ofScopes table file.imports) where
  resolves id hid := by
    have hmem : trimmed id ∈ file.symbols.map trimmed := List.mem_map_of_mem hid
    obtain ⟨s, hs⟩ := SymbolTable.exists_resolve_ofIds h hmem
    obtain ⟨-, hofId⟩ := (SymbolTable.resolve_ofIds_eq_some_iff h).1 hs
    exact ⟨s, hs, Symbol.documentationId_of_ofId hofId⟩
  listed x s hs := ((SymbolTable.resolve_ofIds_eq_some_iff h).1 hs).1
  size := SymbolTable.size_ofIds h
  imports position name := SemanticModel.mem_importsAt_ofScopes

/-- A symbol file is loaded if it is in UTF-8, of the right shape, and lists nothing but IDs of
symbols. Otherwise the first of these that fails is the reason, and of several texts that are no IDs
the first. What is loaded has all that the file lists, and nothing else. That is so with any way to
read a text, and `load` is the case of `ofText?`. -/
theorem load_whole (read : String → Option SymbolFile) (entry : FileEntry) :
    ((∃ m, loadWith read entry = .ok m) ↔ ∃ file : SymbolFile, file.IsIn read entry ∧
      ∀ id ∈ file.symbols, ∃ s, Symbol.ofId id [] = .ok s) ∧
    (∀ e, loadWith read entry = .error e ↔ Fails read entry e) ∧
    ∀ m file, loadWith read entry = .ok m → file.IsIn read entry → IsLoaded file m := by
  refine ⟨exists_loadWith_iff, fun e => loadWith_eq_error_iff, fun m file h hin => ?_⟩
  obtain ⟨file', table, hin', htable, rfl⟩ := loadWith_eq_ok_iff.1 h
  obtain rfl := hin.eq hin'
  exact isLoaded_ofScopes htable

theorem load_whole_unsorted :
    let text := "\x7b\"symbols\": [\"M:A.B.m\", \" T:A.B \", \"T:A.B\"],\r\n" ++
      "\"imports\": [[5, [\"C\"]], [-1, [\"D\", \"C\"]]]\x7d"
    let file : SymbolFile := {
      symbols := ["M:A.B.m", " T:A.B ", "T:A.B"], imports := [⟨5, ["C"]⟩, ⟨-1, ["D", "C"]⟩] }
    file.IsIn ofText? (.file text.toUTF8) ∧
      ∃ m, load (.file text.toUTF8) = .ok m ∧ IsLoaded file m ∧ m.table.size = 2 := by
  intro text file
  have hin : file.IsIn ofText? (.file text.toUTF8) := ⟨_, ⟨text, rfl, rfl⟩, by decide +kernel⟩
  obtain ⟨hload, -, hloaded⟩ := load_whole ofText? (.file text.toUTF8)
  have hread : (SymbolTable.ofIds file.symbols).toOption.isSome = true := by decide +kernel
  obtain ⟨table, htable⟩ := Option.isSome_iff_exists.1 hread
  have haccepted := SymbolTable.exists_ofIds_iff.1 ⟨table, eq_ok_of_toOption htable⟩
  obtain ⟨m, hm⟩ := hload.2 ⟨file, hin, haccepted⟩
  have h := hloaded m file hm hin
  exact ⟨hin, m, hm, h, h.size.trans (by decide +kernel)⟩

end SymbolFile

end DocComment
