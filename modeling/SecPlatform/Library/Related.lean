import Mathlib.Data.List.Forall2

/-!
# Lists related member by member
-/

namespace SecPlatform

variable {α β : Type} {R S : α → β → Prop} {xs : List α} {ys : List β} {x : α} {y : β}

theorem forall₂_exists_right (h : xs.Forall₂ R ys) (hx : x ∈ xs) : ∃ y ∈ ys, R x y := by
  induction h with
  | nil => cases hx
  | cons hxy _ ih =>
      rcases List.mem_cons.mp hx with rfl | hx
      · exact ⟨_, List.mem_cons_self, hxy⟩
      · obtain ⟨y, hy, hr⟩ := ih hx
        exact ⟨y, List.mem_cons_of_mem _ hy, hr⟩

theorem forall₂_exists_left (h : xs.Forall₂ R ys) (hy : y ∈ ys) : ∃ x ∈ xs, R x y :=
  forall₂_exists_right h.flip hy

theorem forall₂_imp_of_mem (h : xs.Forall₂ R ys) (himp : ∀ x ∈ xs, ∀ y ∈ ys, R x y → S x y) : xs.Forall₂ S ys := by
  induction h with
  | nil => exact .nil
  | cons hxy _ ih =>
      exact .cons (himp _ List.mem_cons_self _ List.mem_cons_self hxy)
        (ih fun x hx y hy => himp x (List.mem_cons_of_mem _ hx) y (List.mem_cons_of_mem _ hy))

/-- Relations that agree on the members of the first list. -/
theorem forall₂_congr_mem (h : ∀ x ∈ xs, ∀ y, R x y ↔ S x y) : xs.Forall₂ R ys ↔ xs.Forall₂ S ys :=
  ⟨fun hr => forall₂_imp_of_mem hr fun x hx y _ => (h x hx y).mp,
    fun hs => forall₂_imp_of_mem hs fun x hx y _ => (h x hx y).mpr⟩

theorem exists_forall₂ (h : ∀ x ∈ xs, ∃ y, R x y) : ∃ ys, xs.Forall₂ R ys := by
  induction xs with
  | nil => exact ⟨[], .nil⟩
  | cons x xs ih =>
      obtain ⟨⟨y, hy⟩, hxs⟩ := List.forall_mem_cons.mp h
      obtain ⟨ys, hys⟩ := ih hxs
      exact ⟨y :: ys, .cons hy hys⟩

theorem forall₂_trans {γ : Type} {Q : β → γ → Prop} {zs : List γ} (h : xs.Forall₂ R ys) (h' : ys.Forall₂ Q zs) :
    xs.Forall₂ (fun x z => ∃ y, R x y ∧ Q y z) zs := by
  induction h generalizing zs with
  | nil =>
      cases h'
      exact .nil
  | cons hxy _ ih =>
      cases h' with
      | cons hyz hrest => exact .cons ⟨_, hxy, hyz⟩ (ih hrest)

/-- Two lists have the same image when their members do, one by one. -/
theorem map_eq_map_iff_forall₂ {γ : Type} {f : α → γ} {g : β → γ} :
    xs.map f = ys.map g ↔ xs.Forall₂ (fun x y => f x = g y) ys := by
  rw [← List.forall₂_eq_eq_eq, List.forall₂_map_left_iff, List.forall₂_map_right_iff]

end SecPlatform
