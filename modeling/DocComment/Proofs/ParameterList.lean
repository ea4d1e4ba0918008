import DocComment.Proofs.Trimmed
import DocComment.Symbol.Parameters

/-!
# Cutting lists of parameters

`depth` counts the braces and brackets that a text leaves open. `split_intercalate`: texts that
close all they open, and have their commas inside, are found again in the text that lists them.
-/

namespace DocComment.Parameters

/-- How many more braces and brackets are opened in a text than closed. -/
def depth (s : List Char) : Int :=
  s.countP (fun c => c = '\x7b' ∨ c = '[') - s.countP (fun c => c = '\x7d' ∨ c = ']')

/-- As many braces and brackets are closed as opened, but not so in front of any comma. -/
structure Closed (s : List Char) : Prop where
  depth_eq : depth s = 0
  comma : ∀ q t, s = q ++ ',' :: t → depth q ≠ 0

variable {s t : List Char} {parts : List (List Char)}

@[simp] theorem depth_nil : depth [] = 0 := rfl

@[simp] theorem depth_cons (c : Char) (s : List Char) : depth (c :: s) = step c + depth s := by
  have hdisjoint : (c = '\x7b' ∨ c = '[') → ¬ (c = '\x7d' ∨ c = ']') := by
    rintro (rfl | rfl) <;> decide
  unfold depth step
  simp only [List.countP_cons, decide_eq_true_eq]
  by_cases hopen : c = '\x7b' ∨ c = '['
  · rw [if_pos hopen, if_neg (hdisjoint hopen), if_pos hopen]
    omega
  · by_cases hclose : c = '\x7d' ∨ c = ']'
    · rw [if_neg hopen, if_pos hclose, if_neg hopen, if_pos hclose]
      omega
    · rw [if_neg hopen, if_neg hclose, if_neg hopen, if_neg hclose]
      omega

/-- Reads whether a text is closed that starts at depth `d`. -/
def closedFrom (d : Int) : List Char → Bool
  | [] => d = 0
  | c :: rest => !(c = ',' && d = 0) && closedFrom (d + step c) rest

theorem closedFrom_iff {d : Int} : closedFrom d s = true ↔
    d + depth s = 0 ∧ ∀ q t, s = q ++ ',' :: t → d + depth q ≠ 0 := by
  induction s generalizing d with
  | nil => simp [closedFrom]
  | cons c s ih =>
    rw [closedFrom, Bool.and_eq_true, ih, depth_cons, Int.add_assoc]
    constructor
    · rintro ⟨hc, hdepth, hcomma⟩
      refine ⟨hdepth, fun q t hq => ?_⟩
      cases q with
      | nil =>
        obtain ⟨rfl, rfl⟩ := List.cons.inj hq
        simpa using hc
      | cons c' q =>
        obtain ⟨rfl, rfl⟩ := List.cons.inj hq
        rw [depth_cons, ← Int.add_assoc]
        exact hcomma q t rfl
    · rintro ⟨hdepth, hcomma⟩
      refine ⟨?_, hdepth, fun q t hq => ?_⟩
      · by_cases hc : c = ','
        · simpa [hc] using hcomma [] s (by rw [hc]; rfl)
        · simp [hc]
      · have := hcomma (c :: q) t (by rw [hq]; rfl)
        rwa [depth_cons, ← Int.add_assoc] at this

/-- A text that opens and closes nothing does not count, nor do its commas inside of something. -/
theorem closedFrom_append {d : Int} (h : ∀ c ∈ s, step c = 0 ∧ (c = ',' → d ≠ 0)) (t : List Char) :
    closedFrom d (s ++ t) = closedFrom d t := by
  induction s with
  | nil => rfl
  | cons c s ih =>
    obtain ⟨hstep, hcomma⟩ := h c (List.mem_cons_self ..)
    rw [List.cons_append, closedFrom, hstep, Int.add_zero,
      ih fun c hc => h c (List.mem_cons_of_mem _ hc)]
    have hc : (c = ',' && d = 0) = false := by simpa using hcomma
    rw [hc]
    rfl

theorem closedFrom_append_plain (h : ∀ c ∈ s, step c = 0 ∧ c ≠ ',') (d : Int) (t : List Char) :
    closedFrom d (s ++ t) = closedFrom d t :=
  closedFrom_append (fun c hc => ⟨(h c hc).1, fun heq => absurd heq (h c hc).2⟩) t

theorem closed_iff : Closed s ↔ closedFrom 0 s = true := by
  rw [closedFrom_iff]
  simp only [Int.zero_add]
  exact ⟨fun h => ⟨h.depth_eq, h.comma⟩, fun ⟨hdepth, hcomma⟩ => ⟨hdepth, hcomma⟩⟩

instance : Decidable (Closed s) := decidable_of_iff _ closed_iff.symm

theorem cutFrom_append (d : Int) (h : ∀ q u, s = q ++ ',' :: u → d + depth q ≠ 0) (t : List Char) :
    cutFrom d (s ++ t) = s.foldr Text.consToFirst (cutFrom (d + depth s) t) := by
  induction s generalizing d with
  | nil => simp
  | cons c s ih =>
    have hcomma : ¬ (c = ',' ∧ d = 0) := by
      rintro ⟨rfl, rfl⟩
      exact h [] s rfl (by simp)
    have hrest : ∀ q u, s = q ++ ',' :: u → d + step c + depth q ≠ 0 := by
      rintro q u rfl
      rw [Int.add_assoc, ← depth_cons]
      exact h (c :: q) u rfl
    rw [List.cons_append, cutFrom, if_neg hcomma, ih (d + step c) hrest, List.foldr_cons, depth_cons,
      Int.add_assoc]

theorem foldr_consToFirst (s first : List Char) :
    s.foldr Text.consToFirst (first :: parts) = (s ++ first) :: parts := by
  induction s with
  | nil => rfl
  | cons c s ih => rw [List.foldr_cons, ih]; rfl

theorem cutFrom_intercalate (hne : parts ≠ []) (h : ∀ part ∈ parts, Closed part) :
    cutFrom 0 ([','].intercalate parts) = parts := by
  induction parts with
  | nil => exact absurd rfl hne
  | cons part parts ih =>
    have hpart := h part (List.mem_cons_self ..)
    have hcomma : ∀ q u, part = q ++ ',' :: u → 0 + depth q ≠ 0 := by
      intro q u hq
      rw [Int.zero_add]
      exact hpart.comma q u hq
    cases parts with
    | nil =>
      have hcut := cutFrom_append 0 hcomma []
      rw [hpart.depth_eq] at hcut
      simpa [cutFrom, foldr_consToFirst] using hcut
    | cons next parts =>
      have hrest := ih (List.cons_ne_nil _ _) fun p hp => h p (List.mem_cons_of_mem _ hp)
      rw [List.intercalate_cons_cons, List.append_assoc, cutFrom_append 0 hcomma, hpart.depth_eq,
        List.singleton_append, cutFrom, if_pos ⟨rfl, rfl⟩, Int.add_zero, hrest, foldr_consToFirst,
        List.append_nil]

/-- A list of closed types is split into these types, without the blanks around them. The list of
the empty text alone is written like the empty list. -/
theorem split_intercalate_closed (hne : parts ≠ [[]]) (hclosed : ∀ part ∈ parts, Closed part) :
    split ([','].intercalate parts) = parts.map Text.trim := by
  cases parts with
  | nil => rfl
  | cons part parts =>
    have hnil : [','].intercalate (part :: parts) ≠ [] := by
      cases parts with
      | nil => simpa using hne
      | cons next parts => simp
    rw [split, if_neg hnil, cutFrom_intercalate (List.cons_ne_nil _ _) hclosed]

theorem split_intercalate (hne : parts ≠ [[]]) (hclosed : ∀ part ∈ parts, Closed part)
    (htrim : ∀ part ∈ parts, Text.trim part = part) :
    split ([','].intercalate parts) = parts := by
  rw [split_intercalate_closed hne hclosed]
  exact (List.map_congr_left htrim).trans (List.map_id _)

end DocComment.Parameters
