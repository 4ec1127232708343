import SecPlatform.Library.Text

/-!
# Lines and the white space around them
-/

namespace SecPlatform

namespace Text

variable {s t : Text} {sep c : CodeUnit}

/-! ## Lines -/

/-- Lines without the separator, joined and split again. -/
theorem splitAt_joinWith {lines : List Text} (hne : lines ≠ []) (h : ∀ line ∈ lines, sep ∉ line) :
    splitAt sep (joinWith [sep] lines) = lines := by
  induction lines with
  | nil => exact absurd rfl hne
  | cons line lines ih =>
      rw [List.forall_mem_cons] at h
      cases lines with
      | nil => rw [joinWith, splitAt_of_notMem h.1]
      | cons next lines =>
          rw [joinWith, List.append_assoc, List.singleton_append, splitAt_append h.1, ih (List.cons_ne_nil _ _) h.2]
          · exact List.cons_ne_nil _ _

theorem joinWith_cons_cons (separator line next : Text) (lines : List Text) :
    joinWith separator (line :: next :: lines) = line ++ (separator ++ joinWith separator (next :: lines)) := by
  rw [joinWith, List.append_assoc]
  exact List.cons_ne_nil _ _

theorem joinWith_append {separator : Text} {lines others : List Text} (hlines : lines ≠ []) (hothers : others ≠ []) :
    joinWith separator (lines ++ others) = joinWith separator lines ++ (separator ++ joinWith separator others) := by
  obtain ⟨other, others, rfl⟩ := List.exists_cons_of_ne_nil hothers
  induction lines with
  | nil => exact absurd rfl hlines
  | cons line lines ih =>
      cases lines with
      | nil => rw [List.singleton_append, joinWith_cons_cons, joinWith]
      | cons next lines =>
          rw [List.cons_append, List.cons_append, joinWith_cons_cons, joinWith_cons_cons, ← List.cons_append,
            ih (List.cons_ne_nil _ _), List.append_assoc, List.append_assoc]

theorem mem_joinWith {separator : Text} {lines : List Text} (h : c ∈ joinWith separator lines) :
    c ∈ separator ∨ ∃ line ∈ lines, c ∈ line := by
  induction lines with
  | nil => cases h
  | cons line lines ih =>
      cases lines with
      | nil => exact .inr ⟨line, List.mem_cons_self, h⟩
      | cons next lines =>
          rw [joinWith_cons_cons, List.mem_append, List.mem_append] at h
          rcases h with h | h | h
          · exact .inr ⟨line, List.mem_cons_self, h⟩
          · exact .inl h
          · exact (ih h).imp_right fun ⟨other, hother, hc⟩ => ⟨other, List.mem_cons_of_mem _ hother, hc⟩

theorem mem_of_mem_splitAt {line : Text} (h : line ∈ splitAt sep s) (hc : c ∈ line) : c ∈ s := by
  rw [← joinWith_splitAt sep s]
  generalize splitAt sep s = lines at h ⊢
  induction lines with
  | nil => cases h
  | cons first lines ih =>
      cases lines with
      | nil => exact List.mem_singleton.mp h ▸ hc
      | cons next lines =>
          rw [joinWith_cons_cons, List.mem_append, List.mem_append]
          rcases List.mem_cons.mp h with rfl | h
          · exact .inl hc
          · exact .inr (.inr (ih h))

/-- Text in front of the first line. -/
theorem joinWith_append_head (separator s line : Text) (lines : List Text) :
    joinWith separator ((s ++ line) :: lines) = s ++ joinWith separator (line :: lines) := by
  cases lines with
  | nil => rfl
  | cons next lines => rw [joinWith_cons_cons, joinWith_cons_cons, List.append_assoc]

/-- Text without a separator in front of the first line or behind the last one. -/
theorem splitAt_append_of_notMem {rest : List Text} {line : Text} (hs : sep ∉ s) (ht : splitAt sep t = line :: rest) :
    splitAt sep (s ++ t) = (s ++ line) :: rest := by
  induction s with
  | nil => exact ht
  | cons c s ih =>
      simp only [List.mem_cons, not_or] at hs
      rw [List.cons_append, splitAt, if_neg (Ne.symm hs.1), ih hs.2]
      rfl

theorem splitAt_append_of_notMem_right {init : List Text} {line : Text} (ht : sep ∉ t)
    (hs : splitAt sep s = init ++ [line]) : splitAt sep (s ++ t) = init ++ [line ++ t] := by
  have hnot : ∀ other ∈ init ++ [line], sep ∉ other := fun other h => notMem_of_mem_splitAt (hs ▸ h)
  have hjoin := joinWith_splitAt sep s
  rw [hs] at hjoin
  have hnew : ∀ other ∈ init ++ [line ++ t], sep ∉ other := by
    intro other h
    rcases List.mem_append.mp h with h | h
    · exact hnot other (List.mem_append_left _ h)
    · rw [List.mem_singleton.mp h, List.mem_append, not_or]
      exact ⟨hnot line (List.mem_append_right _ (List.mem_singleton_self _)), ht⟩
  rw [← splitAt_joinWith (by simp) hnew, ← hjoin]
  congr 1
  cases init with
  | nil => rfl
  | cons first init =>
      rw [joinWith_append (List.cons_ne_nil _ _) (List.cons_ne_nil _ _),
        joinWith_append (List.cons_ne_nil _ _) (List.cons_ne_nil _ _)]
      simp only [joinWith, List.append_assoc]

/-! ## White space -/

/-- Nothing but white space. -/
def IsSpace (s : Text) : Prop := ∀ c ∈ s, isTrimSpace c

instance (s : Text) : Decidable (IsSpace s) := inferInstanceAs (Decidable (∀ c ∈ s, isTrimSpace c))

theorem IsSpace.nil : IsSpace [] := List.forall_mem_nil _

theorem IsSpace.append (hs : IsSpace s) (ht : IsSpace t) : IsSpace (s ++ t) := List.forall_mem_append.mpr ⟨hs, ht⟩

/-- `String.prototype.trimEnd`. -/
def trimEnd (s : Text) : Text := (s.reverse.dropWhile isTrimSpace).reverse

theorem trim_eq (s : Text) : trim s = trimEnd (trimStart s) := rfl

theorem exists_trimStart (s : Text) : ∃ space, IsSpace space ∧ s = space ++ trimStart s :=
  ⟨s.takeWhile isTrimSpace, fun _ h => List.all_eq_true.mp List.all_takeWhile _ h, List.takeWhile_append_dropWhile.symm⟩

theorem trimStart_append (hs : IsSpace s) (t : Text) : trimStart (s ++ t) = trimStart t := by
  unfold trimStart
  rw [List.dropWhile_append_of_pos hs]

theorem trimStart_cons (hc : isTrimSpace c = false) (t : Text) : trimStart (c :: t) = c :: t := by
  unfold trimStart
  rw [List.dropWhile_cons_of_neg (by rw [hc]; exact Bool.false_ne_true)]

theorem trimStart_append_cons (hc : isTrimSpace c = false) (s t : Text) :
    trimStart (s ++ c :: t) = trimStart s ++ c :: t := by
  induction s with
  | nil => exact trimStart_cons hc t
  | cons d s ih =>
      unfold trimStart at ih ⊢
      rw [List.cons_append, List.dropWhile_cons, List.dropWhile_cons, ih]
      split <;> rfl

theorem trimStart_of_isSpace (hs : IsSpace s) : trimStart s = [] := by
  have h := trimStart_append hs []
  rwa [List.append_nil] at h

theorem exists_trimEnd (s : Text) : ∃ space, IsSpace space ∧ s = trimEnd s ++ space := by
  obtain ⟨space, hspace, hs⟩ := exists_trimStart s.reverse
  refine ⟨space.reverse, fun c hc => hspace c (List.mem_reverse.mp hc), ?_⟩
  rw [trimEnd, ← List.reverse_append]
  exact List.reverse_eq_iff.mp hs

theorem trimEnd_append (ht : IsSpace t) (s : Text) : trimEnd (s ++ t) = trimEnd s := by
  unfold trimEnd
  rw [List.reverse_append, List.dropWhile_append_of_pos fun c hc => ht c (List.mem_reverse.mp hc)]

theorem trimEnd_append_cons (hc : isTrimSpace c = false) (s t : Text) : trimEnd (s ++ c :: t) = s ++ c :: trimEnd t := by
  have h := trimStart_append_cons hc t.reverse s.reverse
  unfold trimStart at h
  unfold trimEnd
  rw [List.reverse_append, List.reverse_cons, List.append_assoc, List.singleton_append, h, List.reverse_append,
    List.reverse_cons, List.reverse_reverse, List.append_assoc, List.singleton_append]

theorem trimEnd_of_isSpace (hs : IsSpace s) : trimEnd s = [] := trimEnd_append hs []

/-- A text that keeps something has a place that is no white space. -/
theorem exists_notSpace (h : ¬IsSpace s) : ∃ before c behind, s = before ++ c :: behind ∧ isTrimSpace c = false := by
  unfold IsSpace at h
  push Not at h
  obtain ⟨c, hmem, hc⟩ := h
  obtain ⟨before, behind, rfl⟩ := List.append_of_mem hmem
  exact ⟨before, c, behind, rfl, Bool.eq_false_iff.mpr hc⟩

theorem trimEnd_eq_nil : trimEnd s = [] ↔ IsSpace s := by
  refine ⟨fun h => ?_, trimEnd_of_isSpace⟩
  by_contra hspace
  obtain ⟨before, c, behind, rfl, hc⟩ := exists_notSpace hspace
  rw [trimEnd_append_cons hc] at h
  exact absurd h (List.append_ne_nil_of_right_ne_nil _ (List.cons_ne_nil _ _))

theorem trim_of_isSpace (hs : IsSpace s) : trim s = [] := by
  rw [trim_eq, trimStart_of_isSpace hs]
  rfl

theorem trim_append_cons (hc : isTrimSpace c = false) (s t : Text) :
    trim (s ++ c :: t) = trimStart s ++ c :: trimEnd t := by
  rw [trim_eq, trimStart_append_cons hc, trimEnd_append_cons hc]

theorem trim_eq_nil : trim s = [] ↔ IsSpace s := by
  refine ⟨fun h => ?_, trim_of_isSpace⟩
  by_contra hspace
  obtain ⟨before, c, behind, rfl, hc⟩ := exists_notSpace hspace
  rw [trim_append_cons hc] at h
  exact absurd h (List.append_ne_nil_of_right_ne_nil _ (List.cons_ne_nil _ _))

/-- White space around a text does not count. -/
theorem trim_append_left (hs : IsSpace s) (t : Text) : trim (s ++ t) = trim t := by
  rw [trim_eq, trimStart_append hs, ← trim_eq]

theorem trim_append_right (ht : IsSpace t) (s : Text) : trim (s ++ t) = trim s := by
  by_cases hs : IsSpace s
  · rw [trim_of_isSpace hs, trim_of_isSpace (hs.append ht)]
  · obtain ⟨before, c, behind, rfl, hc⟩ := exists_notSpace hs
    rw [List.append_assoc, List.cons_append, trim_append_cons hc, trim_append_cons hc, trimEnd_append ht]

theorem exists_trim (s : Text) : ∃ before behind, IsSpace before ∧ IsSpace behind ∧ s = before ++ (trim s ++ behind) := by
  obtain ⟨before, hbefore, hs⟩ := exists_trimStart s
  obtain ⟨behind, hbehind, ht⟩ := exists_trimEnd (trimStart s)
  refine ⟨before, behind, hbefore, hbehind, ?_⟩
  rw [trim_eq, ← ht]
  exact hs

theorem trim_trimEnd (s : Text) : trim (trimEnd s) = trim s := by
  obtain ⟨space, hspace, hs⟩ := exists_trimEnd s
  conv_rhs => rw [hs, trim_append_right hspace]

theorem trim_trimStart (s : Text) : trim (trimStart s) = trim s := by
  obtain ⟨space, hspace, hs⟩ := exists_trimStart s
  conv_rhs => rw [hs, trim_append_left hspace]

theorem trim_trim (s : Text) : trim (trim s) = trim s := by
  rw [trim_eq s, trim_trimEnd, trim_trimStart, ← trim_eq]

theorem trimEnd_append_of_not (ht : ¬IsSpace t) (s : Text) : trimEnd (s ++ t) = s ++ trimEnd t := by
  obtain ⟨before, c, behind, rfl, hc⟩ := exists_notSpace ht
  rw [← List.append_assoc, trimEnd_append_cons hc, trimEnd_append_cons hc, List.append_assoc]

theorem trimStart_append_of_not (hs : ¬IsSpace s) (t : Text) : trimStart (s ++ t) = trimStart s ++ t := by
  obtain ⟨before, c, behind, rfl, hc⟩ := exists_notSpace hs
  rw [List.append_assoc, List.cons_append, trimStart_append_cons hc, trimStart_append_cons hc, List.append_assoc,
    List.cons_append]

theorem mem_of_mem_trimStart (h : c ∈ trimStart s) : c ∈ s := by
  obtain ⟨space, -, hs⟩ := exists_trimStart s
  exact hs ▸ List.mem_append_right _ h

theorem mem_of_mem_trimEnd (h : c ∈ trimEnd s) : c ∈ s := by
  obtain ⟨space, -, hs⟩ := exists_trimEnd s
  exact hs ▸ List.mem_append_left _ h

end Text

end SecPlatform
