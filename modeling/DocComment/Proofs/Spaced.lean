import DocComment.Proofs.Phrase

/-!
# Spaced texts

A text is spaced by some gaps if there are no blanks at its ends and every longest stretch of blanks
in it is one of the gaps. Two spaced texts with a gap between them, or without, make a spaced text
(`Spaced.join`). The texts that collapsing does not change are those that single spaces space
(`collapse_eq_self_iff`).
-/

namespace DocComment.Text

variable {gaps : List (List Char)} {c : Char} {s t g before after : List Char}

/-- No blank stands at the start or at the end, and blanks that have no more blanks beside them are
one of the gaps. -/
structure Spaced (gaps : List (List Char)) (s : List Char) : Prop where
  startsBlank : startsBlank s = false
  endsBlank : endsBlank s = false
  gap : ∀ {before g after : List Char}, s = before ++ g ++ after → g ≠ [] →
    (∀ c ∈ g, isBlank c = true) → Text.endsBlank before = false → Text.startsBlank after = false →
      g ∈ gaps

/-! ### Blanks at a seam -/

theorem startsBlank_append_of_blank (hne : s ≠ []) (h : ∀ c ∈ s, isBlank c = true) :
    startsBlank (s ++ t) = true := by
  obtain ⟨c, s, rfl⟩ := List.exists_cons_of_ne_nil hne
  rw [List.cons_append, startsBlank_cons]
  exact h c (List.mem_cons_self ..)

theorem endsBlank_append_of_blank (hne : t ≠ []) (h : ∀ c ∈ t, isBlank c = true) :
    endsBlank (s ++ t) = true := by
  rw [endsBlank_append, if_neg hne, endsBlank_of_hasWord_eq_false (hasWord_eq_false_iff.2 h)]
  simpa using hne

theorem startsBlank_of_append (h : startsBlank (s ++ t) = false) : startsBlank s = false := by
  cases s with
  | nil => rfl
  | cons c s => simpa using h

theorem endsBlank_of_append (h : endsBlank (s ++ t) = false) : endsBlank t = false := by
  rw [endsBlank_append] at h
  split at h
  · next ht => rw [ht, endsBlank_nil]
  · exact h

/-- Blanks in front of a text that starts with none end where they end. -/
theorem eq_of_append_eq_append (hg : ∀ c ∈ g, isBlank c = true) (hs : ∀ c ∈ s, isBlank c = true)
    (hafter : startsBlank after = false) (ht : startsBlank t = false)
    (h : g ++ after = s ++ t) : g = s := by
  rcases List.append_eq_append_iff.1 h with ⟨d, rfl, rfl⟩ | ⟨d, rfl, rfl⟩
  · by_cases hd : d = []
    · rw [hd, List.append_nil]
    · have hblank := startsBlank_append_of_blank (t := t) hd fun c hc =>
        hs c (List.mem_append_right _ hc)
      exact absurd (hafter.symm.trans hblank) Bool.false_ne_true
  · by_cases hd : d = []
    · rw [hd, List.append_nil]
    · have hblank := startsBlank_append_of_blank (t := after) hd fun c hc =>
        hg c (List.mem_append_right _ hc)
      exact absurd (ht.symm.trans hblank) Bool.false_ne_true

/-! ### Putting spaced texts together -/

namespace Spaced

theorem nil : Spaced gaps [] := by
  refine ⟨rfl, rfl, fun h hg _ _ _ => ?_⟩
  have hnil := List.append_eq_nil_iff.1 h.symm
  exact absurd (List.append_eq_nil_iff.1 hnil.1).2 hg

theorem mono {gaps' : List (List Char)} (h : Spaced gaps s) (hsub : gaps ⊆ gaps') :
    Spaced gaps' s :=
  ⟨h.startsBlank, h.endsBlank, fun heq hne hg hbefore hafter =>
    hsub (h.gap heq hne hg hbefore hafter)⟩

/-- A text without blanks is spaced by any gaps. -/
theorem of_noBlank (h : ∀ c ∈ s, isBlank c = false) : Spaced gaps s := by
  refine ⟨?_, ?_, fun hs hne hg _ _ => ?_⟩
  · cases s with
    | nil => rfl
    | cons c s => simpa using h c (List.mem_cons_self ..)
  · rcases List.eq_nil_or_concat s with rfl | ⟨s, c, rfl⟩
    · rfl
    · simpa [Text.endsBlank] using h c (by simp)
  · obtain ⟨c, g, rfl⟩ := List.exists_cons_of_ne_nil hne
    have hc : c ∈ s := by simp [hs]
    exact absurd ((h c hc).symm.trans (hg c (List.mem_cons_self ..))) Bool.false_ne_true

/-- A stretch of blanks behind the text does not start in it. -/
theorem exists_of_append_eq_append (hs : Spaced gaps s) (hg : ∀ c ∈ g, isBlank c = true)
    (h : before ++ g = s ++ t) : ∃ b, before = s ++ b ∧ t = b ++ g := by
  rcases List.append_eq_append_iff.1 h with ⟨b, rfl, rfl⟩ | hb
  · by_cases hb : b = []
    · exact ⟨[], by simp [hb], by simp [hb]⟩
    · have hblank := endsBlank_append_of_blank (s := before) hb fun c hc =>
        hg c (List.mem_append_left _ hc)
      exact absurd (hs.endsBlank.symm.trans hblank) Bool.false_ne_true
  · exact hb

/-- A longest stretch of blanks is in one of the two parts, or it is the one between them. -/
theorem join (hs : Spaced gaps s) (ht : Spaced gaps t) (hsne : s ≠ []) (htne : t ≠ [])
    (hg : ∀ c ∈ g, isBlank c = true) (hmem : g ≠ [] → g ∈ gaps) : Spaced gaps (s ++ (g ++ t)) := by
  refine ⟨?_, ?_, fun {before g' after} h hne hg' hbefore hafter => ?_⟩
  · rw [startsBlank_append, if_neg hsne, hs.startsBlank]
  · rw [← List.append_assoc, endsBlank_append, if_neg htne, ht.endsBlank]
  rcases List.append_eq_append_iff.1 h with ⟨d, hd, hrest⟩ | ⟨d, rfl, rfl⟩
  · obtain ⟨b, rfl, rfl⟩ := hs.exists_of_append_eq_append hg' hd
    rw [List.append_assoc] at hrest
    rcases List.append_eq_append_iff.1 hrest with ⟨e, rfl, rfl⟩ | ⟨e, rfl, he⟩
    · have he := endsBlank_of_append (endsBlank_of_append hbefore)
      exact ht.gap (List.append_assoc ..).symm hne hg' he hafter
    · by_cases hb : b = []
      · subst hb
        obtain rfl := eq_of_append_eq_append hg' hg hafter ht.startsBlank he
        exact hmem hne
      · have hblank := endsBlank_append_of_blank (s := s) hb fun c hc =>
          hg c (List.mem_append_left _ hc)
        exact absurd (hbefore.symm.trans hblank) Bool.false_ne_true
  · exact hs.gap rfl hne hg' hbefore (startsBlank_of_append hafter)

/-- The end of a spaced text is spaced, unless it starts with a blank. -/
theorem of_append (h : Spaced gaps (s ++ t)) (ht : Text.startsBlank t = false) : Spaced gaps t := by
  refine ⟨ht, endsBlank_of_append h.endsBlank, fun {before g after} heq hne hg hbefore hafter => ?_⟩
  have hbefore' : Text.endsBlank (s ++ before) = false := by
    rw [endsBlank_append]
    split
    · next hnil =>
      rw [heq, hnil, List.nil_append, startsBlank_append_of_blank hne hg] at ht
      cases ht
    · exact hbefore
  exact h.gap (by simp [heq]) hne hg hbefore' hafter

end Spaced

/-! ### Single spaces -/

theorem spaced_collapse (s : List Char) : Spaced [[' ']] (collapse s) := by
  induction s with
  | nil => exact .nil
  | cons c s ih =>
    cases hc : isBlank c with
    | true => rwa [collapse_cons_of_isBlank hc]
    | false =>
      have hfirst : Spaced [[' ']] [c] := .of_noBlank (List.forall_mem_singleton.2 hc)
      rw [collapse_cons hc]
      by_cases hs : collapse s = []
      · rw [seam, collapse_eq_nil_iff.1 hs, hs]
        simpa using hfirst
      · refine hfirst.join ih (List.cons_ne_nil _ _) hs ?_ ?_
        · unfold seam
          split
          · decide
          · exact fun _ h => absurd h List.not_mem_nil
        · unfold seam
          split
          · exact fun _ => List.mem_singleton_self _
          · exact fun h => absurd rfl h

/-- Behind its first character, a text spaced by single spaces goes on without a blank, or with a
space and a text that starts with none. -/
theorem Spaced.tail_cases (h : Spaced [[' ']] (c :: s)) :
    Text.startsBlank s = false ∨ ∃ t, s = ' ' :: t ∧ t ≠ [] ∧ Text.startsBlank t = false := by
  cases hs : Text.startsBlank s with
  | false => exact .inl rfl
  | true =>
    right
    have hne : s.takeWhile isBlank ≠ [] := by
      cases s with
      | nil => cases hs
      | cons d s => simpa [List.takeWhile_cons] using hs
    have hrest : Text.startsBlank (s.dropWhile isBlank) = false := by
      have hnot := List.head?_dropWhile_not isBlank s
      unfold Text.startsBlank
      cases hd : (s.dropWhile isBlank).head? with
      | none => rfl
      | some d => simpa [hd] using hnot
    have hparts : c :: s = [c] ++ s.takeWhile isBlank ++ s.dropWhile isBlank := by simp
    have hc : Text.endsBlank [c] = false := by simpa [Text.endsBlank] using h.startsBlank
    have hgap : s.takeWhile isBlank ∈ [[' ']] :=
      h.gap hparts hne (List.all_eq_true.1 List.all_takeWhile) hc hrest
    have hsplit : s = ' ' :: s.dropWhile isBlank := by
      rw [List.mem_singleton.1 hgap] at hparts
      exact (List.cons.inj hparts).2
    refine ⟨_, hsplit, fun hnil => ?_, hrest⟩
    have hend := h.endsBlank
    rw [hsplit, hnil] at hend
    cases hend

/-- The texts that are collapsed are those in which nothing but single spaces keeps words apart. -/
theorem collapse_eq_self_iff : collapse s = s ↔ Spaced [[' ']] s := by
  refine ⟨fun h => h ▸ spaced_collapse s, fun h => ?_⟩
  induction hn : s.length using Nat.strongRecOn generalizing s with
  | _ n ih =>
    cases s with
    | nil => rfl
    | cons c s =>
      have hc : isBlank c = false := by simpa using h.startsBlank
      rw [List.length_cons] at hn
      rw [collapse_cons hc]
      rcases h.tail_cases with hs | ⟨t, rfl, hne, ht⟩
      · have hrest : Spaced [[' ']] s := Spaced.of_append (s := [c]) h hs
        rw [ih s.length (by omega) hrest rfl, hs]
        rfl
      · have hrest : Spaced [[' ']] t := Spaced.of_append (s := [c, ' ']) h ht
        have hspace : isBlank ' ' = true := by decide
        have hshort : t.length < n := by
          rw [List.length_cons] at hn
          omega
        have hword : hasWord t = true := by
          cases t with
          | nil => exact absurd rfl hne
          | cons d t =>
            have hd : isBlank d = false := by simpa using ht
            rw [hasWord_cons, hd]
            rfl
        rw [collapse_cons_of_isBlank hspace, ih t.length hshort hrest rfl]
        simp [seam, hspace, hc, hword]

end DocComment.Text
