import DocComment.Proofs.Collapse

/-!
# Texts without blanks at their ends

`trim_eq_self_iff`: trimming changes exactly the texts that start or end with a blank. So it changes
nothing the second time (`trim_trim`).
-/

namespace DocComment.Text

variable {s : List Char}

theorem startsBlank_trimStart (s : List Char) : startsBlank (trimStart s) = false := by
  have hhead := List.head?_dropWhile_not isBlank s
  rw [startsBlank, trimStart]
  cases h : (s.dropWhile isBlank).head? with
  | none => rfl
  | some c =>
    rw [h] at hhead
    exact hhead

theorem trimStart_eq_self (h : startsBlank s = false) : trimStart s = s := by
  cases s with
  | nil => rfl
  | cons c s =>
    rw [startsBlank_cons] at h
    exact List.dropWhile_cons_of_neg (by simp [h])

theorem startsBlank_reverse (s : List Char) : startsBlank s.reverse = endsBlank s := by
  rw [startsBlank, endsBlank, List.head?_reverse]

theorem endsBlank_trimEnd (s : List Char) : endsBlank (trimEnd s) = false := by
  rw [trimEnd, ← startsBlank_reverse, List.reverse_reverse]
  exact startsBlank_trimStart s.reverse

theorem trimEnd_eq_self (h : endsBlank s = false) : trimEnd s = s := by
  have hstart : s.reverse.dropWhile isBlank = s.reverse :=
    trimStart_eq_self ((startsBlank_reverse s).trans h)
  rw [trimEnd, hstart, List.reverse_reverse]

theorem trimEnd_isPrefix (s : List Char) : trimEnd s <+: s := by
  rw [trimEnd, ← List.reverse_suffix, List.reverse_reverse]
  exact List.dropWhile_suffix isBlank

theorem startsBlank_trim (s : List Char) : startsBlank (trim s) = false := by
  obtain ⟨blanks, hblanks⟩ := trimEnd_isPrefix (trimStart s)
  have hstart := startsBlank_trimStart s
  rw [← hblanks, startsBlank_append] at hstart
  rw [trim]
  split at hstart
  · next hnil => rw [hnil]; rfl
  · exact hstart

theorem mem_of_mem_trim {c : Char} (hc : c ∈ trim s) : c ∈ s :=
  (List.dropWhile_suffix isBlank).subset ((trimEnd_isPrefix (trimStart s)).subset hc)

theorem trim_eq_self_iff : trim s = s ↔ startsBlank s = false ∧ endsBlank s = false := by
  constructor
  · intro h
    exact ⟨h ▸ startsBlank_trim s, h ▸ endsBlank_trimEnd (trimStart s)⟩
  · rintro ⟨hstart, hend⟩
    rw [trim, trimStart_eq_self hstart, trimEnd_eq_self hend]

theorem trim_trim (s : List Char) : trim (trim s) = trim s :=
  trim_eq_self_iff.2 ⟨startsBlank_trim s, endsBlank_trimEnd (trimStart s)⟩

theorem endsBlank_of_isBlank_eq_false (h : ∀ c ∈ s, isBlank c = false) : endsBlank s = false := by
  rw [endsBlank]
  cases hlast : s.getLast? with
  | none => rfl
  | some c => exact h c (List.mem_of_mem_getLast? hlast)

/-- A text without any blank is trimmed. -/
theorem trim_eq_self_of_isBlank_eq_false (h : ∀ c ∈ s, isBlank c = false) : trim s = s := by
  refine trim_eq_self_iff.2 ⟨?_, endsBlank_of_isBlank_eq_false h⟩
  rw [← List.reverse_reverse s, startsBlank_reverse]
  exact endsBlank_of_isBlank_eq_false fun c hc => h c (List.mem_reverse.1 hc)

theorem trimStart_append {t : List Char} (h : ∀ c ∈ s, isBlank c = true) :
    trimStart (s ++ t) = trimStart t :=
  List.dropWhile_append_of_pos h

theorem trimEnd_append {t : List Char} (h : ∀ c ∈ t, isBlank c = true) :
    trimEnd (s ++ t) = trimEnd s := by
  rw [trimEnd, List.reverse_append,
    List.dropWhile_append_of_pos fun c hc => h c (List.mem_reverse.1 hc), trimEnd]

/-- Trimming takes off all blanks around a trimmed text. -/
theorem trim_append_append {before after : List Char} (hbefore : ∀ c ∈ before, isBlank c = true)
    (hafter : ∀ c ∈ after, isBlank c = true) (h : trim s = s) :
    trim (before ++ s ++ after) = s := by
  obtain ⟨hstart, hend⟩ := trim_eq_self_iff.1 h
  rw [trim, List.append_assoc, trimStart_append hbefore]
  cases s with
  | nil =>
    have hnil := trimStart_append (t := []) hafter
    rw [List.append_nil] at hnil
    rw [List.nil_append, hnil]
    rfl
  | cons c s =>
    rw [trimStart_eq_self (by simpa using hstart), trimEnd_append hafter, trimEnd_eq_self hend]

theorem trim_toList_trimmed (s : String) : trim (trimmed s).toList = trim s.toList := by
  rw [trimmed, String.toList_ofList, trim_trim]

end DocComment.Text

theorem DocComment.trimmed_trimmed (s : String) : trimmed (trimmed s) = trimmed s :=
  congrArg String.ofList (Text.trim_toList_trimmed s)
