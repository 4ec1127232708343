import Mathlib.Data.List.Infix
import SecPlatform.Library.Text

/-!
# The first occurrence of a pattern

`indexOf` with what stands before and behind. A pattern that does not overlap itself is found exactly where the text
before it is free of the pattern.
-/

namespace SecPlatform

namespace Text

/-- `text.indexOf(pattern)`: the text before the first occurrence and the text behind it. -/
def cut (pattern : Text) : Text → Option (Text × Text)
  | [] => if pattern = [] then some ([], []) else none
  | c :: rest =>
      if pattern <+: c :: rest then some ([], (c :: rest).drop pattern.length)
      else (cut pattern rest).map fun found => (c :: found.1, found.2)

/-- `text.indexOf(pattern)`. -/
def indexOf (pattern s : Text) : Option Nat := (cut pattern s).map fun found => found.1.length

variable {pattern s before behind : Text}

/-- The pattern stands nowhere in the text. -/
theorem cut_eq_none : cut pattern s = none ↔ ¬pattern <:+: s := by
  induction s with
  | nil =>
      unfold cut
      split
      · rename_i hnil
        simp [hnil]
      · rename_i hne
        simp [hne]
  | cons c rest ih =>
      unfold cut
      rw [List.infix_cons_iff]
      split
      · rename_i hpre
        simp [hpre]
      · rename_i hpre
        simp [hpre, ih]

theorem eq_of_cut (h : cut pattern s = some (before, behind)) : s = before ++ pattern ++ behind := by
  induction s generalizing before with
  | nil =>
      unfold cut at h
      split at h
      · rename_i hnil
        cases h
        simp [hnil]
      · cases h
  | cons c rest ih =>
      unfold cut at h
      split at h
      · rename_i hpre
        cases h
        exact (List.prefix_iff_eq_append.mp hpre).symm
      · obtain ⟨⟨b, r⟩, hcut, hfound⟩ := Option.map_eq_some_iff.mp h
        cases hfound
        rw [ih hcut]
        rfl

/-- No proper end of the pattern is a start of it. -/
def Unbordered (pattern : Text) : Prop := pattern ≠ [] ∧ ∀ n < pattern.length, 0 < n → ¬pattern.drop n <+: pattern

instance (pattern : Text) : Decidable (Unbordered pattern) := inferInstanceAs (Decidable (_ ∧ _))

/-- What stands before the first occurrence is free of the pattern. -/
theorem notMem_of_cut (h : cut pattern s = some (before, behind)) (hne : pattern ≠ []) : ¬pattern <:+: before := by
  induction s generalizing before with
  | nil =>
      rw [cut, if_neg hne] at h
      cases h
  | cons c rest ih =>
      unfold cut at h
      split at h
      · cases h
        simpa using hne
      · rename_i hpre
        obtain ⟨⟨b, r⟩, hcut, hfound⟩ := Option.map_eq_some_iff.mp h
        cases hfound
        rw [List.infix_cons_iff]
        rintro (hp | hi)
        · -- an occurrence at the very start
          refine hpre (hp.trans ?_)
          rw [eq_of_cut hcut, List.append_assoc]
          exact (List.prefix_append _ _)
        · exact ih hcut hi

/-- The first occurrence of a pattern that does not overlap itself. -/
theorem cut_append (hpattern : Unbordered pattern) (h : ¬pattern <:+: before) (behind : Text) :
    cut pattern (before ++ (pattern ++ behind)) = some (before, behind) := by
  induction before with
  | nil =>
      obtain ⟨c, rest, hcons⟩ := List.exists_cons_of_ne_nil
        (List.append_ne_nil_of_left_ne_nil hpattern.1 behind)
      rw [List.nil_append, hcons, cut, if_pos (hcons ▸ List.prefix_append _ _), ← hcons, List.drop_left]
  | cons c before ih =>
      rw [List.infix_cons_iff, not_or] at h
      have hnot : ¬pattern <+: c :: (before ++ (pattern ++ behind)) := by
        intro hp
        have hp : pattern <+: (c :: before) ++ (pattern ++ behind) := hp
        rcases Nat.lt_or_ge (c :: before).length pattern.length with hlt | hle
        · -- the occurrence would overlap the one that follows
          have hdrop := List.IsPrefix.drop hp (c :: before).length
          rw [List.drop_left] at hdrop
          refine hpattern.2 _ hlt (Nat.succ_pos _) (List.prefix_of_prefix_length_le hdrop (List.prefix_append _ _) ?_)
          rw [List.length_drop]
          exact Nat.sub_le _ _
        · exact h.1 (List.prefix_of_prefix_length_le hp (List.prefix_append _ _) hle)
      rw [List.cons_append, cut, if_neg hnot, ih h.2]
      rfl

theorem cut_eq_some (hpattern : Unbordered pattern) : cut pattern s = some (before, behind) ↔
    s = before ++ (pattern ++ behind) ∧ ¬pattern <:+: before := by
  constructor
  · intro h
    exact ⟨by rw [eq_of_cut h, List.append_assoc], notMem_of_cut h hpattern.1⟩
  · rintro ⟨rfl, h⟩
    exact cut_append hpattern h behind

/-- What follows the first occurrence is shorter. -/
theorem length_of_cut (hne : pattern ≠ []) (h : cut pattern s = some (before, behind)) : behind.length < s.length := by
  have hpos := List.length_pos_iff.mpr hne
  rw [eq_of_cut h, List.length_append, List.length_append]
  omega

/-! ## Bytes of joined texts -/

theorem isLeadSurrogate_of_isTrailSurrogate {c : CodeUnit} (h : isTrailSurrogate c) : isLeadSurrogate c = false := by
  simp only [isTrailSurrogate, Bool.and_eq_true, decide_eq_true_eq] at h
  simp only [isLeadSurrogate, Bool.and_eq_false_iff, decide_eq_false_iff_not]
  exact .inr (not_lt.mpr h.1)

theorem unitBytes_of_isLeadSurrogate {c : CodeUnit} (h : isLeadSurrogate c) : unitBytes c = 3 := by
  simp only [isLeadSurrogate, Bool.and_eq_true, decide_eq_true_eq] at h
  rw [unitBytes, if_neg (not_lt.mpr (le_trans (by decide) h.1)), if_neg (not_lt.mpr (le_trans (by decide) h.1))]

theorem unitBytes_of_isTrailSurrogate {c : CodeUnit} (h : isTrailSurrogate c) : unitBytes c = 3 := by
  simp only [isTrailSurrogate, Bool.and_eq_true, decide_eq_true_eq] at h
  rw [unitBytes, if_neg (not_lt.mpr (le_trans (by decide) h.1)), if_neg (not_lt.mpr (le_trans (by decide) h.1))]

theorem utf8Length_cons {c : CodeUnit} (h : isLeadSurrogate c = false) (s : Text) :
    utf8Length (c :: s) = unitBytes c + utf8Length s := by
  cases s with
  | nil => rfl
  | cons d rest => rw [utf8Length, h, Bool.false_and, if_neg Bool.false_ne_true]

/-- The end of one text and the start of the next are a pair of surrogates. -/
def joins (s t : Text) : Bool := s.getLast?.any isLeadSurrogate && t.head?.any isTrailSurrogate

/-- A pair of surrogates that is joined takes four bytes in place of twice three. -/
theorem utf8Length_append (s t : Text) :
    utf8Length (s ++ t) + (if joins s t then 2 else 0) = utf8Length s + utf8Length t := by
  fun_induction utf8Length s with
  | case1 => simp [joins]
  | case2 c =>
      cases t with
      | nil => simp [joins, utf8Length]
      | cons d rest =>
          have hjoins : joins [c] (d :: rest) = (isLeadSurrogate c && isTrailSurrogate d) := rfl
          rw [List.singleton_append, utf8Length, hjoins]
          split
          · rename_i hpair
            obtain ⟨hlead, htrail⟩ := Bool.and_eq_true_iff.mp hpair
            rw [utf8Length_cons (isLeadSurrogate_of_isTrailSurrogate htrail), unitBytes_of_isLeadSurrogate hlead,
              unitBytes_of_isTrailSurrogate htrail]
            omega
          · rfl
  | case3 c d rest hpair ih =>
      have hjoins : joins (c :: d :: rest) t = joins rest t := by
        cases rest with
        | nil =>
            have htrail := (Bool.and_eq_true_iff.mp hpair).2
            show (isLeadSurrogate d && _) = false
            rw [isLeadSurrogate_of_isTrailSurrogate htrail, Bool.false_and]
        | cons e rest => simp [joins]
      rw [hjoins, List.cons_append, List.cons_append, utf8Length, if_pos hpair]
      omega
  | case4 c d rest hpair ih =>
      have hjoins : joins (c :: d :: rest) t = joins (d :: rest) t := by simp [joins]
      rw [List.cons_append] at ih
      rw [hjoins, List.cons_append, List.cons_append, utf8Length, if_neg hpair]
      omega

/-- The second text has the bytes that joining takes away. -/
theorem le_utf8Length_of_joins (s t : Text) : (if joins s t then 2 else 0) ≤ utf8Length t := by
  split
  · rename_i hjoins
    obtain ⟨-, htrail⟩ := Bool.and_eq_true_iff.mp hjoins
    cases t with
    | nil => exact absurd htrail Bool.false_ne_true
    | cons d rest =>
        have htrail : isTrailSurrogate d := htrail
        rw [utf8Length_cons (isLeadSurrogate_of_isTrailSurrogate htrail), unitBytes_of_isTrailSurrogate htrail]
        omega
  · exact Nat.zero_le _

theorem utf8Length_le_append (s t : Text) : utf8Length s ≤ utf8Length (s ++ t) := by
  have happend := utf8Length_append s t
  have hle := le_utf8Length_of_joins s t
  omega

end Text

end SecPlatform
