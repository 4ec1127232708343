import Mathlib.Data.List.ReduceOption
import Mathlib.Order.Lattice
import SecPlatform.Library.Except

/-!
# Differences of two sorted lists

Two lists are walked together by a key. An entry without a partner was added or removed; two entries with
the same key are compared, which may throw.
-/

namespace SecPlatform

variable {ε α γ κ : Type}

/-! ## The walk -/

/-- A step of the walk: an entry of the first or of the second list, or one of both with the same key. -/
inductive Walked (α : Type) where
  | left (x : α)
  | right (y : α)
  | both (x y : α)

namespace Walked

def left? : Walked α → Option α
  | .left x | .both x _ => some x
  | .right _ => none

def right? : Walked α → Option α
  | .right y | .both _ y => some y
  | .left _ => none

def removed? : Walked α → Option α
  | .left x => some x
  | .right _ | .both _ _ => none

def added? : Walked α → Option α
  | .right y => some y
  | .left _ | .both _ _ => none

def pair? : Walked α → Option (α × α)
  | .both x y => some (x, y)
  | .left _ | .right _ => none

end Walked

section Walk

variable [LinearOrder κ] (key : α → κ)

/-- The walk with `x` at the head of the first list; `rest` walks on without it. -/
def walkHead (x : α) (rest : List α → List (Walked α)) : List α → List (Walked α)
  | [] => .left x :: rest []
  | y :: ys =>
      if key x < key y then .left x :: rest (y :: ys)
      else if key y < key x then .right y :: walkHead x rest ys
      else .both x y :: rest ys

def mergeWalk : List α → List α → List (Walked α)
  | [], ys => ys.map .right
  | x :: xs, ys => walkHead key x (mergeWalk xs) ys

variable {key}

/-- The walk passes every entry of the first list in its order. -/
@[simp] theorem mergeWalk_left (xs ys : List α) : (mergeWalk key xs ys).filterMap Walked.left? = xs := by
  induction xs generalizing ys with
  | nil =>
      induction ys with
      | nil => rfl
      | cons y ys ih => exact ih
  | cons x xs ih =>
      rw [mergeWalk]
      induction ys with
      | nil => simp only [walkHead, List.filterMap_cons, Walked.left?, ih]
      | cons y ys ihy =>
          rw [walkHead]
          split
          next => simp only [List.filterMap_cons, Walked.left?, ih]
          next =>
            split
            next => simpa only [List.filterMap_cons, Walked.left?] using ihy
            next => simp only [List.filterMap_cons, Walked.left?, ih]

/-- The walk passes every entry of the second list in its order. -/
@[simp] theorem mergeWalk_right (xs ys : List α) : (mergeWalk key xs ys).filterMap Walked.right? = ys := by
  induction xs generalizing ys with
  | nil =>
      induction ys with
      | nil => rfl
      | cons y ys ih => exact congrArg (y :: ·) ih
  | cons x xs ih =>
      rw [mergeWalk]
      induction ys with
      | nil => simp only [walkHead, List.filterMap_cons, Walked.right?, ih]
      | cons y ys ihy =>
          rw [walkHead]
          split
          next => simp only [List.filterMap_cons, Walked.right?, ih]
          next =>
            split
            next => simpa only [List.filterMap_cons, Walked.right?, List.cons.injEq, true_and] using ihy
            next => simp only [List.filterMap_cons, Walked.right?, ih]

/-- Only entries with the same key meet. -/
theorem key_eq_of_both {xs ys : List α} {x y : α} (h : .both x y ∈ mergeWalk key xs ys) : key x = key y := by
  induction xs generalizing ys with
  | nil => simp [mergeWalk] at h
  | cons x' xs ih =>
      rw [mergeWalk] at h
      induction ys with
      | nil =>
          rw [walkHead, List.mem_cons] at h
          exact ih (h.resolve_left nofun)
      | cons y' ys ihy =>
          rw [walkHead] at h
          split at h
          next => exact ih ((List.mem_cons.mp h).resolve_left nofun)
          next hle =>
            split at h
            next => exact ihy ((List.mem_cons.mp h).resolve_left nofun)
            next hge =>
              rcases List.mem_cons.mp h with heq | h
              · cases heq
                exact le_antisymm (not_lt.mp hge) (not_lt.mp hle)
              · exact ih h

end Walk

/-! ## Differences -/

structure MergeDiff (α γ : Type) where
  added : List α
  removed : List α
  changed : List γ

/-- The comparison of a step that passes two entries. -/
def Walked.compare (same : α → α → Except ε (Option γ)) : Walked α → Except ε (Option γ)
  | .both x y => same x y
  | .left _ | .right _ => .ok none

def mergeDiff [LinearOrder κ] (key : α → κ) (same : α → α → Except ε (Option γ)) (xs ys : List α) :
    Except ε (MergeDiff α γ) := do
  let walk := mergeWalk key xs ys
  let changes ← walk.mapM (Walked.compare same)
  return ⟨walk.filterMap Walked.added?, walk.filterMap Walked.removed?, changes.reduceOption⟩

/-- What was added is of the second list, what was removed of the first. -/
theorem mem_of_mergeDiff [LinearOrder κ] {key : α → κ} {same : α → α → Except ε (Option γ)} {xs ys : List α}
    {d : MergeDiff α γ} (h : mergeDiff key same xs ys = .ok d) :
    (∀ y ∈ d.added, y ∈ ys) ∧ ∀ x ∈ d.removed, x ∈ xs := by
  simp only [mergeDiff, bind_eq_ok, pure_eq_ok, Except.ok.injEq] at h
  obtain ⟨changes, -, rfl⟩ := h
  constructor
  · intro y hy
    have hright : (mergeWalk key xs ys).filterMap Walked.right? = ys := mergeWalk_right xs ys
    rw [← hright]
    obtain ⟨step, hstep, hadded⟩ := List.mem_filterMap.mp hy
    cases step with
    | right z => exact List.mem_filterMap.mpr ⟨_, hstep, hadded⟩
    | left z => cases hadded
    | both z w => cases hadded
  · intro x hx
    have hleft : (mergeWalk key xs ys).filterMap Walked.left? = xs := mergeWalk_left xs ys
    rw [← hleft]
    obtain ⟨step, hstep, hremoved⟩ := List.mem_filterMap.mp hx
    cases step with
    | left z => exact List.mem_filterMap.mpr ⟨_, hstep, hremoved⟩
    | right z => cases hremoved
    | both z w => cases hremoved

/-- The entries of the second list met an entry of the first or were added. -/
theorem right_perm (walk : List (Walked α)) : (walk.filterMap Walked.right?).Perm
    ((walk.filterMap Walked.pair?).map Prod.snd ++ walk.filterMap Walked.added?) := by
  induction walk with
  | nil => exact .nil
  | cons step walk ih =>
      cases step with
      | left x => exact ih
      | right y => exact (ih.cons y).trans List.perm_middle.symm
      | both x y => exact ih.cons y

/-- When nothing was removed every entry of the first list met one of the second. -/
theorem left_eq_of_removed {walk : List (Walked α)} (h : walk.filterMap Walked.removed? = []) :
    walk.filterMap Walked.left? = (walk.filterMap Walked.pair?).map Prod.fst := by
  induction walk with
  | nil => rfl
  | cons step walk ih =>
      cases step with
      | left x => exact absurd h (List.cons_ne_nil _ _)
      | right y => exact ih h
      | both x y => exact congrArg (x :: ·) (ih h)

/-- Without removals and changes the first list was kept as it is: each of its entries met one of the second
list, with the same key and without a difference. -/
theorem mergeDiff_unchanged [LinearOrder κ] {key : α → κ} {same : α → α → Except ε (Option γ)} {xs ys : List α}
    {d : MergeDiff α γ} (h : mergeDiff key same xs ys = .ok d) (hremoved : d.removed = []) (hchanged : d.changed = []) :
    ∃ kept : List (α × α), xs = kept.map Prod.fst ∧ ys.Perm (kept.map Prod.snd ++ d.added) ∧
      ∀ p ∈ kept, key p.1 = key p.2 ∧ same p.1 p.2 = .ok none := by
  simp only [mergeDiff, bind_eq_ok, pure_eq_ok, Except.ok.injEq] at h
  obtain ⟨changes, hchanges, rfl⟩ := h
  refine ⟨(mergeWalk key xs ys).filterMap Walked.pair?, ?_, ?_, ?_⟩
  · rw [← left_eq_of_removed hremoved, mergeWalk_left]
  · simpa using right_perm (mergeWalk key xs ys)
  · intro p hp
    obtain ⟨step, hstep, hpair⟩ := List.mem_filterMap.mp hp
    cases step with
    | left x => cases hpair
    | right y => cases hpair
    | both x y =>
        cases hpair
        refine ⟨key_eq_of_both hstep, ?_⟩
        obtain ⟨change, hmem, hsame⟩ := exists_ok_of_mem_mapM hchanges hstep
        cases change with
        | none => exact hsame
        | some c =>
            have hc : c ∈ changes.reduceOption := List.reduceOption_mem_iff.mpr hmem
            rw [show changes.reduceOption = [] from hchanged] at hc
            cases hc

end SecPlatform
