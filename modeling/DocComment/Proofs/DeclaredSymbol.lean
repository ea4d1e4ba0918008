import DocComment.View

/-!
# Showing declared symbols

A symbol that was made from an ID can be shown in every format, and there is something to show. So a
view of a table of such symbols shows every reference by at least one run (`exists_referenceRuns`).
-/

namespace DocComment

variable {α β ε : Type}

theorem map_eq_ok_iff {f : α → β} {x : Except ε α} {b : β} :
    x.map f = .ok b ↔ ∃ a, x = .ok a ∧ f a = b := by
  cases x <;> simp [Except.map]

theorem eq_ok_of_toOption {x : Except ε α} {a : α} (h : x.toOption = some a) : x = .ok a := by
  cases x with
  | error e => cases h
  | ok b => exact congrArg Except.ok (Option.some.inj h)

theorem mapM_eq_ok_map {f : α → Except ε β} {g : α → β} (h : ∀ a, f a = .ok (g a)) (as : List α) :
    as.mapM f = .ok (as.map g) := by
  rw [funext h]
  exact List.mapM_pure

theorem exists_of_mem_mapM {f : α → Except ε β} {as : List α} {bs : List β}
    (h : as.mapM f = .ok bs) {b : β} (hb : b ∈ bs) : ∃ a ∈ as, f a = .ok b := by
  induction as generalizing bs with
  | nil =>
    cases h
    exact absurd hb List.not_mem_nil
  | cons a as ih =>
    rw [List.mapM_cons] at h
    cases ha : f a with
    | error e => rw [ha] at h; cases h
    | ok c =>
      cases has : as.mapM f with
      | error e => rw [ha, has] at h; cases h
      | ok cs =>
        rw [ha, has] at h
        cases h
        rcases List.mem_cons.1 hb with rfl | hb
        · exact ⟨a, List.mem_cons_self .., ha⟩
        · obtain ⟨a', ha', hf⟩ := ih has hb
          exact ⟨a', List.mem_cons_of_mem _ ha', hf⟩

theorem exists_mapM_eq_ok {f : α → Except ε β} {as : List α} (h : ∀ a ∈ as, ∃ b, f a = .ok b) :
    ∃ bs, as.mapM f = .ok bs := by
  induction as with
  | nil => exact ⟨[], rfl⟩
  | cons a as ih =>
    obtain ⟨b, hb⟩ := h a (List.mem_cons_self ..)
    obtain ⟨bs, hbs⟩ := ih fun a ha => h a (List.mem_cons_of_mem _ ha)
    refine ⟨b :: bs, ?_⟩
    rw [List.mapM_cons, hb, hbs]
    rfl

/-! ### Symbols of IDs -/

theorem WrittenId.kindOf?_ne_ctor (c : Char) : kindOf? c ≠ some .ctor := by
  intro h
  have hcode := List.find?_some h
  have hlength := congrArg (·.toList.length) (of_decide_eq_true hcode)
  simp [SymbolKind.code] at hlength

theorem WrittenId.kind_ne_ctor {s : List Char} {written : WrittenId} (h : ofText? s = some written) :
    written.kind ≠ .ctor := by
  unfold ofText? at h
  split at h
  · next letter s =>
    dsimp only at h
    split at h
    · next kind parameters hkind _ =>
      split at h
      · cases h
      · cases h
        exact fun hk => kindOf?_ne_ctor letter (hk ▸ hkind)
    · cases h
  · cases h

namespace Symbol

/-- The constructor of an ID has the type that it is a constructor of. -/
theorem containingTypes_ne_nil_of_ofId {id : String} {typeNames : List String} {s : Symbol}
    (h : ofId id typeNames = .ok s) (hs : s.kind = .ctor) : s.containingTypes ≠ [] := by
  unfold ofId at h
  split at h
  · cases h
  · next written hwritten =>
    dsimp only at h
    split at h
    · cases h
      cases hs
    · split at h
      · split at h
        · cases h
        · next type htype =>
          cases h
          intro hnil
          rw [List.map_eq_nil_iff] at hnil
          rw [hnil] at htype
          cases htype
      · cases h
        exact absurd hs (WrittenId.kind_ne_ctor hwritten)

theorem documentationId_of_ofId {id : String} {typeNames : List String} {s : Symbol}
    (h : ofId id typeNames = .ok s) : s.documentationId = id := by
  unfold ofId at h
  split at h
  · cases h
  · dsimp only at h
    split at h
    · cases h
      rfl
    · split at h
      · split at h
        · cases h
        · cases h
          rfl
      · cases h
        rfl

end Symbol

/-! ### Their runs -/

theorem dottedRuns_ne_nil {kind : RunKind} {names : List String} (h : names ≠ []) :
    dottedRuns kind names ≠ [] := by
  match names with
  | [] => exact absurd rfl h
  | [_] => exact List.cons_ne_nil _ _
  | _ :: _ :: _ => exact List.cons_ne_nil _ _

variable (format : DisplayFormat) (imported : List String)

theorem exists_typeRuns (nameSpace : List String) {types : List String} (h : types ≠ []) :
    ∃ rs, typeRuns format imported nameSpace types = .ok rs ∧ rs ≠ [] := by
  unfold typeRuns
  split
  · rw [List.getLast?_eq_some_getLast h]
    exact ⟨_, rfl, List.cons_ne_nil _ _⟩
  · exact ⟨_, rfl, dottedRuns_ne_nil h⟩
  · split
    · exact ⟨_, rfl, dottedRuns_ne_nil h⟩
    · exact ⟨_, rfl, by simp⟩

namespace Symbol

theorem exists_memberRuns (s : Symbol) :
    ∃ rs, s.memberRuns format imported = .ok rs ∧ rs ≠ [] := by
  by_cases h : format.members.containingType = true ∧ s.containingTypes ≠ []
  · obtain ⟨rs, hrs, -⟩ := exists_typeRuns format imported s.nameSpace h.2
    simp only [memberRuns, if_pos h, hrs]
    exact ⟨_, rfl, by simp⟩
  · simp only [memberRuns, if_neg h]
    exact ⟨_, rfl, by simp⟩

/-- A symbol can be shown if it is no constructor without a type. -/
theorem exists_runs {s : Symbol} (h : s.kind = .ctor → s.containingTypes ≠ []) :
    ∃ rs, s.runs format imported = .ok rs ∧ rs ≠ [] := by
  unfold runs
  dsimp only
  split
  · split
    · exact ⟨_, rfl, dottedRuns_ne_nil (by simp)⟩
    · exact ⟨_, rfl, List.cons_ne_nil _ _⟩
  · exact exists_typeRuns format imported s.nameSpace (by simp)
  · next hk =>
    obtain ⟨rs, hrs, hne⟩ := exists_typeRuns format imported s.nameSpace (h hk)
    rw [hrs]
    exact ⟨_, rfl, by simp [hne]⟩
  · obtain ⟨rs, hrs, hne⟩ := s.exists_memberRuns format imported
    rw [hrs]
    exact ⟨_, rfl, by simp [hne]⟩

end Symbol

/-! ### Tables and views -/

namespace SymbolTable

theorem mem_of_mem_add {t : SymbolTable} {s r : Symbol} (h : r ∈ (t.add s).symbols) :
    r ∈ t.symbols ∨ r = s := by
  rw [symbols_add] at h
  split at h
  · exact .inl h
  · simpa using h

theorem mem_of_mem_foldl_add {symbols : List Symbol} {t : SymbolTable} {r : Symbol}
    (h : r ∈ (symbols.foldl add t).symbols) : r ∈ t.symbols ∨ r ∈ symbols := by
  induction symbols generalizing t with
  | nil => exact .inl h
  | cons s symbols ih =>
    rcases ih h with h | h
    · rcases mem_of_mem_add h with h | rfl
      · exact .inl h
      · exact .inr (List.mem_cons_self ..)
    · exact .inr (List.mem_cons_of_mem _ h)

/-- The symbols of a table of IDs were made from these IDs. -/
theorem exists_mem_of_mem_ofIds {ids : List String} {t : SymbolTable} (h : ofIds ids = .ok t)
    {s : Symbol} (hs : s ∈ t.symbols) :
    ∃ id ∈ ids, Symbol.ofId (trimmed id) (typeNames (ids.map trimmed)) = .ok s := by
  obtain ⟨symbols, hsymbols, rfl⟩ := map_eq_ok_iff.1 h
  rcases mem_of_mem_foldl_add hs with hs | hs
  · exact absurd hs List.not_mem_nil
  · obtain ⟨id, hid, hs⟩ := exists_of_mem_mapM hsymbols hs
    obtain ⟨id, hmem, rfl⟩ := List.mem_map.1 hid
    exact ⟨id, hmem, hs⟩

theorem exists_ofId_of_mem {ids : List String} {t : SymbolTable} (h : ofIds ids = .ok t) {s : Symbol}
    (hs : s ∈ t.symbols) : ∃ id typeNames, Symbol.ofId id typeNames = .ok s := by
  obtain ⟨id, -, hid⟩ := exists_mem_of_mem_ofIds h hs
  exact ⟨trimmed id, _, hid⟩

end SymbolTable

namespace View

variable {v : View} {identifier : String}

/-- The table of the view, if it has one, was made from IDs. -/
def OfIds (v : View) : Prop :=
  ∀ table, v.table = some table → ∃ ids, SymbolTable.ofIds ids = .ok table

/-- The runs that a reference is to be shown by: those of the symbol that it refers to, or else its
identifier. -/
inductive Shows (v : View) (identifier : String) : List Run → Prop where
  | symbol {s : Symbol} {rs : List Run} (renders : v.renders = true)
      (lookup : v.lookup identifier = some s)
      (runs : s.runs (v.formatFor s) v.imported = .ok rs) : Shows v identifier rs
  | literal (h : v.renders = false ∨ v.lookup identifier = none) :
      Shows v identifier [Run.plain (Reference.withoutMarker identifier)]

/-- The runs that show a reference, or none where it cannot be shown. -/
def shown (v : View) (identifier : String) : List Run :=
  match v.referenceRuns identifier with
  | .ok rs => rs
  | .error _ => []

theorem ofIds_of_table_eq_none (h : v.table = none) : v.OfIds := by
  intro table htable
  rw [h] at htable
  cases htable

theorem OfIds.of_toOption (ids : List String) (h : v.table = (SymbolTable.ofIds ids).toOption) :
    v.OfIds := by
  intro table htable
  refine ⟨ids, ?_⟩
  rw [h] at htable
  cases hids : SymbolTable.ofIds ids with
  | error e => rw [hids] at htable; cases htable
  | ok t =>
    rw [hids] at htable
    rw [Option.some.inj htable]

/-- What is looked up is in the table, under the identifier without the blanks around it. -/
theorem exists_mem_of_lookup {s : Symbol} (h : v.lookup identifier = some s) :
    ∃ table, v.table = some table ∧ s ∈ table.symbols ∧ s.key = trimmed identifier := by
  unfold lookup at h
  split at h
  · obtain ⟨table, htable, hs⟩ := Option.bind_eq_some_iff.1 h
    unfold Reference.lookup SymbolTable.resolve at hs
    split at hs
    · exact ⟨table, htable, List.mem_of_find?_eq_some hs, by simpa using List.find?_some hs⟩
    · cases hs
  · cases h

theorem OfIds.exists_ofId (h : v.OfIds) {s : Symbol} (hs : v.lookup identifier = some s) :
    ∃ id typeNames, Symbol.ofId id typeNames = .ok s := by
  obtain ⟨table, htable, hmem, -⟩ := exists_mem_of_lookup hs
  obtain ⟨ids, hids⟩ := h table htable
  exact SymbolTable.exists_ofId_of_mem hids hmem

theorem referenceRuns_of_literal (h : v.renders = false ∨ v.lookup identifier = none) :
    v.referenceRuns identifier = .ok [Run.plain (Reference.withoutMarker identifier)] := by
  have hs : v.symbolRuns (v.lookup identifier) = .ok none := by
    unfold symbolRuns
    split
    · rfl
    · next s hs =>
      rcases h with h | h
      · rw [h]; rfl
      · rw [h] at hs; cases hs
  rw [referenceRuns, hs]
  rfl

/-- Every reference is shown, and by at least one run. -/
theorem OfIds.exists_referenceRuns (h : v.OfIds) (identifier : String) :
    ∃ rs, v.referenceRuns identifier = .ok rs ∧ v.Shows identifier rs ∧ rs ≠ [] := by
  cases hr : v.renders with
  | false => exact ⟨_, referenceRuns_of_literal (.inl hr), .literal (.inl hr), List.cons_ne_nil _ _⟩
  | true =>
    cases hs : v.lookup identifier with
    | none => exact ⟨_, referenceRuns_of_literal (.inr hs), .literal (.inr hs), List.cons_ne_nil _ _⟩
    | some s =>
      obtain ⟨id, typeNames, hid⟩ := h.exists_ofId hs
      obtain ⟨rs, hrs, hne⟩ := Symbol.exists_runs (v.formatFor s) v.imported
        (Symbol.containingTypes_ne_nil_of_ofId hid)
      refine ⟨rs, ?_, .symbol hr hs hrs, hne⟩
      rw [referenceRuns, hs, symbolRuns, hr]
      show (Except.map some (s.runs _ _)).map _ = _
      rw [hrs]
      rfl

theorem OfIds.referenceRuns_eq (h : v.OfIds) (identifier : String) :
    v.referenceRuns identifier = .ok (v.shown identifier) := by
  obtain ⟨rs, hrs, -⟩ := h.exists_referenceRuns identifier
  rw [shown, hrs]

theorem OfIds.shows_shown (h : v.OfIds) (identifier : String) : v.Shows identifier (v.shown identifier) := by
  obtain ⟨rs, hrs, hshows, -⟩ := h.exists_referenceRuns identifier
  rw [shown, hrs]
  exact hshows

theorem OfIds.shown_ne_nil (h : v.OfIds) (identifier : String) : v.shown identifier ≠ [] := by
  obtain ⟨rs, hrs, -, hne⟩ := h.exists_referenceRuns identifier
  rw [shown, hrs]
  exact hne

end View

end DocComment
