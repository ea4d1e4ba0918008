import DocComment.Proofs.IdGrammar
import DocComment.Proofs.Trimmed
import Mathlib.Data.List.Dedup

/-!
# Tables of declared IDs

A table keeps the first symbol that is declared under each key (`resolve_ofSymbols`). An ID is read
by asking which types are known, and never in which order (`ofId_congr`). So a table of IDs finds
under an identifier what the identifier itself is read as (`resolve_ofIds_eq_some_iff`), and nothing
else of the list matters than which IDs it has (`resolve_of_same_ids`).
-/

namespace DocComment

section
variable {α β ε : Type} {f : α → Except ε β} {as : List α} {bs : List β}

theorem exists_error_iff {x : Except ε α} : (∃ e, x = .error e) ↔ ¬ ∃ a, x = .ok a := by
  cases x <;> simp

theorem exists_mem_of_mapM (h : as.mapM f = .ok bs) {a : α} (ha : a ∈ as) :
    ∃ b ∈ bs, f a = .ok b := by
  induction as generalizing bs with
  | nil => exact absurd ha List.not_mem_nil
  | cons a' as ih =>
    rw [List.mapM_cons] at h
    cases ha' : f a' with
    | error e => rw [ha'] at h; cases h
    | ok c =>
      cases has : as.mapM f with
      | error e => rw [ha', has] at h; cases h
      | ok cs =>
        rw [ha', has] at h
        cases h
        rcases List.mem_cons.1 ha with rfl | ha
        · exact ⟨c, List.mem_cons_self .., ha'⟩
        · obtain ⟨b, hb, hf⟩ := ih has ha
          exact ⟨b, List.mem_cons_of_mem _ hb, hf⟩

theorem exists_mapM_iff : (∃ bs, as.mapM f = .ok bs) ↔ ∀ a ∈ as, ∃ b, f a = .ok b := by
  constructor
  · rintro ⟨bs, h⟩ a ha
    obtain ⟨b, -, hb⟩ := exists_mem_of_mapM h ha
    exact ⟨b, hb⟩
  · exact exists_mapM_eq_ok

end

/-! ### First declarations -/

namespace SymbolTable

variable {t : SymbolTable} {symbols : List Symbol} {k x : String}

theorem mem_of_resolve {s : Symbol} (h : t.resolve x = some s) :
    s ∈ t.symbols ∧ s.key = trimmed x :=
  ⟨List.mem_of_find?_eq_some h, by simpa using List.find?_some h⟩

/-- A table with certain keys has as many symbols as there are different ones among them. -/
theorem size_eq_length_dedup {keys : List String}
    (h : ∀ k, k ∈ t.symbols.map Symbol.key ↔ k ∈ keys) : t.size = keys.dedup.length := by
  have hkeys (k : String) : k ∈ t.symbols.map Symbol.key ↔ k ∈ keys.dedup := by
    rw [h, List.mem_dedup]
  have hperm := (List.perm_ext_iff_of_nodup t.nodup_keys (List.nodup_dedup keys)).2 hkeys
  rw [← hperm.length_eq, List.length_map, size]

theorem mem_keys_add (t : SymbolTable) (s : Symbol) :
    k ∈ (t.add s).symbols.map Symbol.key ↔ k ∈ t.symbols.map Symbol.key ∨ k = s.key := by
  rw [symbols_add]
  split
  · next h =>
    constructor
    · exact .inl
    · rintro (hk | rfl)
      · exact hk
      · exact h
  · simp

theorem mem_keys_foldl_add :
    k ∈ (symbols.foldl add t).symbols.map Symbol.key ↔
      k ∈ t.symbols.map Symbol.key ∨ k ∈ symbols.map Symbol.key := by
  induction symbols generalizing t with
  | nil => simp
  | cons s symbols ih => rw [List.foldl_cons, ih, mem_keys_add, List.map_cons, List.mem_cons, or_assoc]

theorem mem_keys_ofSymbols :
    k ∈ (ofSymbols symbols).symbols.map Symbol.key ↔ k ∈ symbols.map Symbol.key := by
  rw [ofSymbols, mem_keys_foldl_add]
  simp [empty]

/-- A new declaration is found where there was none. -/
theorem resolve_add (t : SymbolTable) (s : Symbol) (x : String) :
    (t.add s).resolve x = (t.resolve x).or (if s.key = trimmed x then some s else none) := by
  rw [resolve, resolve, symbols_add]
  split
  · next h =>
    -- the key of `s` is taken: whoever asks for it finds the symbol that took it
    split
    · next hx =>
      obtain ⟨r, hr, hkey⟩ := List.mem_map.1 h
      cases hfind : t.symbols.find? fun s => s.key = trimmed x with
      | some r => rfl
      | none =>
        have hne := List.find?_eq_none.1 hfind r hr
        exact absurd (decide_eq_true (hkey.trans hx)) hne
    · rw [Option.or_none]
  · rw [List.find?_append, List.find?_singleton]
    simp only [decide_eq_true_eq]

theorem resolve_foldl_add :
    (symbols.foldl add t).resolve x =
      (t.resolve x).or (symbols.find? fun s => s.key = trimmed x) := by
  induction symbols generalizing t with
  | nil => exact (Option.or_none).symm
  | cons s symbols ih =>
    rw [List.foldl_cons, ih, resolve_add, Option.or_assoc, List.find?_cons]
    by_cases hs : s.key = trimmed x <;> simp [hs]

theorem resolve_ofSymbols :
    (ofSymbols symbols).resolve x = symbols.find? fun s => s.key = trimmed x := by
  rw [ofSymbols, resolve_foldl_add]
  rfl

end SymbolTable

/-! ### Known types -/

section
variable {typeNames typeNames' : List String} (h : ∀ name, name ∈ typeNames ↔ name ∈ typeNames')
include h

theorem WrittenId.cutAtType?_congr (before segments : List String) :
    cutAtType? typeNames before segments = cutAtType? typeNames' before segments := by
  induction segments generalizing before with
  | nil => rfl
  | cons segment rest ih => rw [cutAtType?, cutAtType?, ih]; simp only [h]

/-- Of the known types it matters only which they are. -/
theorem Symbol.ofId_congr (id : String) : ofId id typeNames = ofId id typeNames' := by
  have hcut (kind : SymbolKind) (container : List String) :
      WrittenId.cutContainer typeNames kind container =
        WrittenId.cutContainer typeNames' kind container := by
    rw [WrittenId.cutContainer, WrittenId.cutContainer, WrittenId.cutAtType?_congr h]
  simp only [ofId, hcut]

end

theorem toList_typeId (name : String) : ("T:" ++ name).toList = 'T' :: ':' :: name.toList :=
  String.toList_append

theorem SymbolTable.mem_typeNames_iff {ids : List String} {name : String} :
    name ∈ typeNames ids ↔ "T:" ++ name ∈ ids := by
  unfold typeNames
  rw [List.mem_filterMap]
  constructor
  · rintro ⟨id, hid, hname⟩
    split at hname
    · next rest hrest =>
      obtain rfl := Option.some.inj hname
      have hid' : id = "T:" ++ String.ofList rest := by
        apply String.toList_inj.1
        rw [hrest, toList_typeId, String.toList_ofList]
      exact hid' ▸ hid
    · cases hname
  · intro hmem
    refine ⟨_, hmem, ?_⟩
    rw [toList_typeId]
    exact congrArg some String.ofList_toList

/-! ### What a table of IDs holds -/

namespace Symbol

variable {id : String} {typeNames typeNames' : List String} {s : Symbol}

theorem key_of_ofId (h : ofId (trimmed id) typeNames = .ok s) : s.key = trimmed id := by
  rw [key, documentationId_of_ofId h, trimmed_trimmed]

/-- Whether a text is the ID of a symbol depends neither on the blanks around it nor on the known
types. -/
theorem exists_ofId_trimmed_iff :
    (∃ s, ofId (trimmed id) typeNames = .ok s) ↔ ∃ s, ofId id typeNames' = .ok s := by
  rw [exists_ofId_iff, exists_ofId_iff, Text.trim_toList_trimmed]

end Symbol

namespace SymbolTable

variable {ids ids' : List String} {t t' : SymbolTable} {x : String} {s : Symbol}

theorem exists_ofIds_iff :
    (∃ t, ofIds ids = .ok t) ↔ ∀ id ∈ ids, ∃ s, Symbol.ofId id [] = .ok s := by
  have hmap : (∃ t, ofIds ids = .ok t) ↔
      ∃ symbols, (ids.map trimmed).mapM
        (fun id => Symbol.ofId id (typeNames (ids.map trimmed))) = .ok symbols := by
    simp only [ofIds, map_eq_ok_iff]
    constructor
    · rintro ⟨_, symbols, hsymbols, -⟩
      exact ⟨symbols, hsymbols⟩
    · rintro ⟨symbols, hsymbols⟩
      exact ⟨_, symbols, hsymbols, rfl⟩
  rw [hmap, exists_mapM_iff]
  constructor
  · intro h id hid
    exact Symbol.exists_ofId_trimmed_iff.1 (h (trimmed id) (List.mem_map_of_mem hid))
  · intro h id hid
    obtain ⟨id', hid', rfl⟩ := List.mem_map.1 hid
    exact Symbol.exists_ofId_trimmed_iff.2 (h id' hid')

theorem exists_ofIds_error_iff :
    (∃ e, ofIds ids = .error e) ↔ ∃ id ∈ ids, ∃ e, Symbol.ofId id [] = .error e := by
  rw [exists_error_iff, exists_ofIds_iff]
  simp only [exists_error_iff, Classical.not_forall, exists_prop]

theorem mem_keys_ofIds (h : ofIds ids = .ok t) {k : String} :
    k ∈ t.symbols.map Symbol.key ↔ k ∈ ids.map trimmed := by
  obtain ⟨symbols, hsymbols, rfl⟩ := map_eq_ok_iff.1 h
  rw [mem_keys_ofSymbols, List.mem_map]
  constructor
  · rintro ⟨s, hs, rfl⟩
    obtain ⟨id, hid, hofId⟩ := exists_of_mem_mapM hsymbols hs
    obtain ⟨id, hmem, rfl⟩ := List.mem_map.1 hid
    rwa [Symbol.key_of_ofId hofId]
  · intro hk
    obtain ⟨s, hs, hofId⟩ := exists_mem_of_mapM hsymbols hk
    obtain ⟨id, hmem, rfl⟩ := List.mem_map.1 hk
    exact ⟨s, hs, Symbol.key_of_ofId hofId⟩

theorem size_ofIds (h : ofIds ids = .ok t) : t.size = (ids.map trimmed).dedup.length :=
  size_eq_length_dedup fun _ => mem_keys_ofIds h

/-- A table of IDs finds the symbol of each of them, and nothing else. -/
theorem resolve_ofIds_eq_some_iff (h : ofIds ids = .ok t) :
    t.resolve x = some s ↔ trimmed x ∈ ids.map trimmed ∧
      Symbol.ofId (trimmed x) (typeNames (ids.map trimmed)) = .ok s := by
  constructor
  · intro hs
    obtain ⟨hmem, hkey⟩ := mem_of_resolve hs
    obtain ⟨id, hid, hofId⟩ := exists_mem_of_mem_ofIds h hmem
    rw [Symbol.key_of_ofId hofId] at hkey
    exact ⟨hkey ▸ List.mem_map_of_mem hid, hkey ▸ hofId⟩
  · rintro ⟨hx, hofId⟩
    -- what is found instead of `s` was read from the same ID, so it is `s`
    cases hfind : t.resolve x with
    | none =>
      obtain ⟨r, hr, hkey⟩ := List.mem_map.1 ((mem_keys_ofIds h).2 hx)
      exact absurd (decide_eq_true hkey) (List.find?_eq_none.1 hfind r hr)
    | some r =>
      obtain ⟨hmem, hkey⟩ := mem_of_resolve hfind
      obtain ⟨id, -, hofId'⟩ := exists_mem_of_mem_ofIds h hmem
      rw [← Symbol.key_of_ofId hofId', hkey, hofId] at hofId'
      rw [Except.ok.inj hofId']

theorem exists_resolve_ofIds (h : ofIds ids = .ok t) (hx : trimmed x ∈ ids.map trimmed) :
    ∃ s, t.resolve x = some s := by
  obtain ⟨id, hid, htrim⟩ := List.mem_map.1 hx
  obtain ⟨s, hs⟩ := Symbol.exists_ofId_trimmed_iff.2 (exists_ofIds_iff.1 ⟨t, h⟩ id hid)
  exact ⟨s, (resolve_ofIds_eq_some_iff h).2 ⟨hx, htrim ▸ hs⟩⟩

/-- An ID that two tables declare is found as one symbol where they declare the same types. -/
theorem resolve_eq_some_of_types (h : ofIds ids = .ok t) (h' : ofIds ids' = .ok t')
    (htypes : ∀ name, "T:" ++ name ∈ ids.map trimmed ↔ "T:" ++ name ∈ ids'.map trimmed)
    (hx : trimmed x ∈ ids'.map trimmed) (hs : t.resolve x = some s) : t'.resolve x = some s := by
  obtain ⟨-, hofId⟩ := (resolve_ofIds_eq_some_iff h).1 hs
  have hnames (name : String) :
      name ∈ typeNames (ids.map trimmed) ↔ name ∈ typeNames (ids'.map trimmed) := by
    rw [mem_typeNames_iff, mem_typeNames_iff, htypes]
  rw [Symbol.ofId_congr hnames] at hofId
  exact (resolve_ofIds_eq_some_iff h').2 ⟨hx, hofId⟩

/-! ### The same IDs -/

section
variable (hsame : ∀ id, id ∈ ids.map trimmed ↔ id ∈ ids'.map trimmed)
include hsame

theorem exists_ofIds_of_same (h : ∃ t, ofIds ids = .ok t) : ∃ t, ofIds ids' = .ok t := by
  rw [exists_ofIds_iff] at h ⊢
  intro id hid
  obtain ⟨id', hid', htrim⟩ := List.mem_map.1 ((hsame _).2 (List.mem_map_of_mem hid))
  have hread : ∃ s, Symbol.ofId (trimmed id') [] = .ok s :=
    Symbol.exists_ofId_trimmed_iff.2 (h id' hid')
  rw [htrim] at hread
  exact Symbol.exists_ofId_trimmed_iff.1 hread

theorem size_eq_of_same (h : ofIds ids = .ok t) (h' : ofIds ids' = .ok t') : t.size = t'.size := by
  have hkeys (k : String) : k ∈ t'.symbols.map Symbol.key ↔ k ∈ ids.map trimmed := by
    rw [mem_keys_ofIds h', hsame]
  rw [size_ofIds h, size_eq_length_dedup hkeys]

theorem resolve_eq_some_of_same (h : ofIds ids = .ok t) (h' : ofIds ids' = .ok t')
    (hs : t.resolve x = some s) : t'.resolve x = some s := by
  obtain ⟨hx, -⟩ := (resolve_ofIds_eq_some_iff h).1 hs
  exact resolve_eq_some_of_types h h' (fun name => hsame _) ((hsame _).1 hx) hs

end

/-- IDs that name no types add their own symbols and change no other. -/
theorem exists_ofIds_append {more : List String} (h : ofIds ids = .ok t)
    (hmore : ∀ id ∈ more, (∃ s, Symbol.ofId id [] = .ok s) ∧ ∀ name, trimmed id ≠ "T:" ++ name) :
    ∃ t', ofIds (ids ++ more) = .ok t' ∧ ∀ x, trimmed x ∈ ids.map trimmed →
      ∃ s, t.resolve x = some s ∧ t'.resolve x = some s := by
  have hread : ∀ id ∈ ids ++ more, ∃ s, Symbol.ofId id [] = .ok s := by
    intro id hid
    rcases List.mem_append.1 hid with hid | hid
    · exact exists_ofIds_iff.1 ⟨t, h⟩ id hid
    · exact (hmore id hid).1
  obtain ⟨t', h'⟩ := exists_ofIds_iff.2 hread
  have htypes (name : String) :
      "T:" ++ name ∈ ids.map trimmed ↔ "T:" ++ name ∈ (ids ++ more).map trimmed := by
    rw [List.map_append, List.mem_append]
    refine ⟨.inl, fun hname => hname.resolve_right fun hname => ?_⟩
    obtain ⟨id, hid, htrim⟩ := List.mem_map.1 hname
    exact (hmore id hid).2 name htrim
  refine ⟨t', h', fun x hx => ?_⟩
  have hx' : trimmed x ∈ (ids ++ more).map trimmed := by
    rw [List.map_append]
    exact List.mem_append_left _ hx
  obtain ⟨s, hs⟩ := exists_resolve_ofIds h hx
  exact ⟨s, hs, resolve_eq_some_of_types h h' htypes hx' hs⟩

/-- Tables of the same IDs, in any order, repeated or not, and with any blanks around them, hold the
same symbols. There is a table unless some ID is refused by itself. More IDs that name no types
change nothing of what was declared before. -/
theorem resolve_of_same_ids (ids : List String) :
    ((∃ e, ofIds ids = .error e) ↔ ∃ id ∈ ids, ∃ e, Symbol.ofId id [] = .error e) ∧
    (∀ ids' : List String, (∀ id, id ∈ ids.map trimmed ↔ id ∈ ids'.map trimmed) →
      ((∃ e, ofIds ids = .error e) ↔ ∃ e, ofIds ids' = .error e) ∧
      ∀ t t', ofIds ids = .ok t → ofIds ids' = .ok t' →
        t.size = t'.size ∧ ∀ x, t.resolve x = t'.resolve x) ∧
    ∀ (t : SymbolTable) (more : List String), ofIds ids = .ok t →
      (∀ id ∈ more, (∃ s, Symbol.ofId id [] = .ok s) ∧ ∀ name, trimmed id ≠ "T:" ++ name) →
      ∃ t', ofIds (ids ++ more) = .ok t' ∧ ∀ x, trimmed x ∈ ids.map trimmed →
        ∃ s, t.resolve x = some s ∧ t'.resolve x = some s := by
  refine ⟨exists_ofIds_error_iff, fun ids' hsame => ?_, fun t more h hmore =>
    exists_ofIds_append h hmore⟩
  have hsame' (id : String) : id ∈ ids'.map trimmed ↔ id ∈ ids.map trimmed := (hsame id).symm
  refine ⟨?_, fun t t' h h' => ⟨size_eq_of_same hsame h h', fun x => Option.ext fun s => ?_⟩⟩
  · rw [exists_error_iff, exists_error_iff]
    exact not_congr ⟨exists_ofIds_of_same hsame, exists_ofIds_of_same hsame'⟩
  · exact ⟨resolve_eq_some_of_same hsame h h', resolve_eq_some_of_same hsame' h' h⟩

theorem resolve_of_shuffled_ids :
    let ids := ["T:A.B ", "M:A.B.m"]
    let ids' := ["M:A.B.m", "\tT:A.B", "M:A.B.m\n"]
    let more := ["P:A.B.Inner.p"]
    (∀ id, id ∈ ids.map trimmed ↔ id ∈ ids'.map trimmed) ∧
      (∀ id ∈ more, (∃ s, Symbol.ofId id [] = .ok s) ∧ ∀ name, trimmed id ≠ "T:" ++ name) ∧
      ∃ t t' t'' s, ofIds ids = .ok t ∧ ofIds ids' = .ok t' ∧ ofIds (ids ++ more) = .ok t'' ∧
        t.size = t'.size ∧ t'.resolve "M:A.B.m" = some s ∧ t''.resolve "M:A.B.m" = some s ∧
        s.nameSpace = ["A"] := by
  intro ids ids' more
  have htrim : ids.map trimmed = ["T:A.B", "M:A.B.m"] := rfl
  have htrim' : ids'.map trimmed = ["M:A.B.m", "T:A.B", "M:A.B.m"] := rfl
  have hsame : ∀ id, id ∈ ids.map trimmed ↔ id ∈ ids'.map trimmed := by
    intro id
    rw [htrim, htrim']
    simp only [List.mem_cons, List.not_mem_nil, or_false]
    constructor
    · rintro (h | h)
      · exact .inr (.inl h)
      · exact .inl h
    · rintro (h | h | h)
      · exact .inr h
      · exact .inl h
      · exact .inr h
  have hmore : ∀ id ∈ more, (∃ s, Symbol.ofId id [] = .ok s) ∧ ∀ name, trimmed id ≠ "T:" ++ name := by
    intro id hid
    obtain rfl := List.mem_singleton.1 hid
    refine ⟨⟨_, rfl⟩, fun name hname => ?_⟩
    have hhead := congrArg (·.toList.head?) hname
    rw [toList_typeId] at hhead
    cases hhead
  obtain ⟨t, h⟩ : ∃ t, ofIds ids = .ok t := ⟨_, rfl⟩
  obtain ⟨t', h'⟩ : ∃ t, ofIds ids' = .ok t := ⟨_, rfl⟩
  obtain ⟨-, hequal, hadd⟩ := resolve_of_same_ids ids
  obtain ⟨hsize, hresolve⟩ := (hequal ids' hsame).2 t t' h h'
  obtain ⟨t'', h'', hkept⟩ := hadd t more h hmore
  have hdeclared : trimmed "M:A.B.m" ∈ ids.map trimmed := by
    rw [htrim]
    exact List.mem_cons_of_mem _ (List.mem_singleton_self _)
  obtain ⟨s, hs, hs'⟩ := hkept "M:A.B.m" hdeclared
  obtain ⟨-, hofId⟩ := (resolve_ofIds_eq_some_iff h).1 hs
  have hnamespace : some ["A"] = some s.nameSpace :=
    congrArg (fun r => r.toOption.map Symbol.nameSpace) hofId
  exact ⟨hsame, hmore, t, t', t'', s, h, h', h'', hsize, hresolve _ ▸ hs, hs',
    (Option.some.inj hnamespace).symm⟩

end SymbolTable

end DocComment
