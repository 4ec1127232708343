import Mathlib.Data.List.Pairwise

/-!
# Spans of a list

A span is a stretch of positions, perhaps an empty one. Spans that lie apart and are removed from the back to the
front leave the same list in every such order: only empty spans can change places, and they remove nothing.
-/

namespace SecPlatform

/-- The positions from `start` on and before `stop`. -/
structure Span where
  start : Nat
  stop : Nat
  start_le_stop : start ≤ stop
  deriving DecidableEq

namespace Span

variable {α : Type}

/-- One of the spans ends before the other begins. -/
def Apart (s t : Span) : Prop := s.stop ≤ t.start ∨ t.stop ≤ s.start

theorem Apart.symm {s t : Span} (h : s.Apart t) : t.Apart s := Or.symm h

/-- No position lies in two spans apart. -/
theorem Apart.disjoint {s t : Span} (h : s.Apart t) (i : Nat) : ¬((s.start ≤ i ∧ i < s.stop) ∧ t.start ≤ i ∧ i < t.stop) := by
  unfold Apart at h
  omega

def IsEmpty (s : Span) : Prop := s.start = s.stop

instance (s : Span) : Decidable s.IsEmpty := inferInstanceAs (Decidable (_ = _))

/-- The list without the elements at the positions of the span. -/
def remove (s : Span) (xs : List α) : List α := xs.take s.start ++ xs.drop s.stop

theorem remove_of_isEmpty {s : Span} (h : s.IsEmpty) (xs : List α) : s.remove xs = xs := by
  rw [remove, ← h, List.take_append_drop]

/-- The spans are removed one after the other. -/
def removeAll (spans : List Span) (xs : List α) : List α := spans.foldl (fun xs s => s.remove xs) xs

theorem removeAll_filter (spans : List Span) (xs : List α) :
    removeAll (spans.filter fun s => ¬s.IsEmpty) xs = removeAll spans xs := by
  induction spans generalizing xs with
  | nil => rfl
  | cons s spans ih =>
      by_cases h : s.IsEmpty
      · rw [List.filter_cons_of_neg (by simpa using h), ih]
        simp only [removeAll, List.foldl_cons, remove_of_isEmpty h]
      · rw [List.filter_cons_of_pos (by simpa using h)]
        exact ih (s.remove xs)

theorem start_lt_stop_of_mem_filter {spans : List Span} {s : Span} (h : s ∈ spans.filter fun s => ¬s.IsEmpty) :
    s.start < s.stop := by
  have hne : ¬s.IsEmpty := by simpa using (List.mem_filter.mp h).2
  exact Nat.lt_of_le_of_ne s.start_le_stop hne

/-- Apart from the empty ones, spans that start one before the other do not reach into each other. -/
theorem pairwise_filter_stop_le {spans : List Span} (happart : spans.Pairwise Apart)
    (hsorted : spans.Pairwise fun s t => t.start ≤ s.start) :
    (spans.filter fun s => ¬s.IsEmpty).Pairwise fun s t => t.stop ≤ s.start := by
  refine List.Pairwise.imp_of_mem ?_ ((happart.and hsorted).filter _)
  intro s t hs _ ⟨hst, hle⟩
  have hs := start_lt_stop_of_mem_filter hs
  unfold Apart at hst
  omega

/-- Spans apart may be removed in any order that goes from the back to the front. -/
theorem removeAll_eq_of_perm {spans spans' : List Span} (hperm : spans.Perm spans') (happart : spans.Pairwise Apart)
    (hsorted : spans.Pairwise fun s t => t.start ≤ s.start) (hsorted' : spans'.Pairwise fun s t => t.start ≤ s.start)
    (xs : List α) : removeAll spans xs = removeAll spans' xs := by
  have hstop := pairwise_filter_stop_le happart hsorted
  have hstop' := pairwise_filter_stop_le (happart.perm hperm Apart.symm) hsorted'
  rw [← removeAll_filter spans, ← removeAll_filter spans']
  congr 1
  refine List.Perm.eq_of_pairwise ?_ hstop hstop' (hperm.filter _)
  intro s t hs _ hst hts
  have hs := start_lt_stop_of_mem_filter hs
  have ht := t.start_le_stop
  omega

end Span

end SecPlatform
