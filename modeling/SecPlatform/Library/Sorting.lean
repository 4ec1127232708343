import Mathlib.Data.List.Dedup
import Mathlib.Data.List.Sort
import Mathlib.Order.Defs.LinearOrder

/-!
# Sorting by a key

A stable sort by a key. A list whose entries have different keys is determined by its sorted form up to
order: permuted lists sort to the same list.
-/

namespace SecPlatform

variable {α β κ : Type} [LinearOrder κ]

/-- The stable sort by a key. -/
def sortBy (key : α → κ) (xs : List α) : List α := xs.insertionSort (fun a b => key a ≤ key b)

namespace SortBy

variable {key : α → κ}

instance totalKey : Std.Total (fun a b : α => key a ≤ key b) := ⟨fun a b => le_total (key a) (key b)⟩

instance transKey : IsTrans α (fun a b : α => key a ≤ key b) := ⟨fun _ _ _ => le_trans⟩

end SortBy

variable {key : α → κ}

@[simp] theorem sortBy_nil : sortBy key [] = [] := rfl

theorem sortBy_perm (xs : List α) : (sortBy key xs).Perm xs := List.perm_insertionSort _ xs

theorem nodup_map_sortBy {xs : List α} : ((sortBy key xs).map key).Nodup ↔ (xs.map key).Nodup :=
  ((sortBy_perm xs).map key).nodup_iff

@[simp] theorem mem_sortBy {x : α} {xs : List α} : x ∈ sortBy key xs ↔ x ∈ xs := (sortBy_perm xs).mem_iff

@[simp] theorem length_sortBy (xs : List α) : (sortBy key xs).length = xs.length := (sortBy_perm xs).length_eq

theorem sortBy_pairwise (xs : List α) : (sortBy key xs).Pairwise (fun a b => key a ≤ key b) :=
  List.pairwise_insertionSort _ xs

/-- A sorted list stays as it is. -/
theorem sortBy_of_pairwise {xs : List α} (h : xs.Pairwise (fun a b => key a ≤ key b)) : sortBy key xs = xs :=
  h.insertionSort_eq

theorem sortBy_sortBy (xs : List α) : sortBy key (sortBy key xs) = sortBy key xs :=
  sortBy_of_pairwise (sortBy_pairwise xs)

/-- Two sorted lists with the same entries are equal when no two entries share a key. -/
theorem eq_of_perm_of_sorted {xs ys : List α} (h : xs.Perm ys) (hx : xs.Pairwise (fun a b => key a ≤ key b))
    (hy : ys.Pairwise (fun a b => key a ≤ key b)) (hkey : ∀ a ∈ xs, ∀ b ∈ xs, key a = key b → a = b) : xs = ys :=
  h.eq_of_pairwise (fun a b ha hb hab hba => hkey a ha b (h.mem_iff.mpr hb) (le_antisymm hab hba)) hx hy

/-- Lists with the same entries sort to the same list when no two entries share a key. -/
theorem sortBy_eq_of_perm {xs ys : List α} (h : xs.Perm ys) (hkey : ∀ a ∈ xs, ∀ b ∈ xs, key a = key b → a = b) :
    sortBy key xs = sortBy key ys :=
  eq_of_perm_of_sorted ((sortBy_perm xs).trans (h.trans (sortBy_perm ys).symm)) (sortBy_pairwise xs)
    (sortBy_pairwise ys) fun a ha b hb => hkey a (mem_sortBy.mp ha) b (mem_sortBy.mp hb)

/-- Sorting by a key of the image is sorting the image. -/
theorem map_sortBy (f : α → β) (key : β → κ) (xs : List α) :
    (sortBy (fun a => key (f a)) xs).map f = sortBy key (xs.map f) :=
  List.map_insertionSort _ _ f xs fun _ _ _ _ => Iff.rfl

/-- Lists of keys with the same entries sort to the same list. -/
theorem sortBy_id_eq_of_perm {xs ys : List κ} (h : xs.Perm ys) : sortBy id xs = sortBy id ys :=
  sortBy_eq_of_perm h fun _ _ _ _ e => e

/-- Entries without a repeated key sort to a list whose keys increase. -/
theorem sortBy_strict {xs : List α} (h : (xs.map key).Nodup) : (sortBy key xs).Pairwise fun a b => key a < key b := by
  have hnodup := List.pairwise_map.mp (nodup_map_sortBy.mpr h)
  exact (List.Pairwise.and (sortBy_pairwise xs) hnodup).imp fun ⟨hle, hne⟩ => lt_of_le_of_ne hle hne

/-- Keys without repetition sort to a strictly increasing list. -/
theorem sortBy_id_strict {xs : List κ} (h : xs.Nodup) : (sortBy id xs).Pairwise (· < ·) :=
  sortBy_strict ((List.map_id xs).symm ▸ h)

/-- Two lists whose keys increase correspond to each other when they have the same keys. -/
theorem map_eq_map_of_strict {key' : β → κ} {xs : List α} {ys : List β} (hx : xs.Pairwise fun a b => key a < key b)
    (hy : ys.Pairwise fun a b => key' a < key' b) (hkeys : ∀ k, k ∈ xs.map key ↔ k ∈ ys.map key') :
    xs.map key = ys.map key' := by
  have hxs : (xs.map key).Pairwise (· < ·) := List.pairwise_map.mpr hx
  have hys : (ys.map key').Pairwise (· < ·) := List.pairwise_map.mpr hy
  have hperm := (List.perm_ext_iff_of_nodup (hxs.imp ne_of_lt) (hys.imp ne_of_lt)).mpr hkeys
  exact hperm.eq_of_pairwise (fun a b _ _ hab hba => absurd (hab.trans hba) (lt_irrefl a)) hxs hys

/-- `[...new Set(values)].sort()`. -/
def uniqueSorted (values : List κ) : List κ := sortBy id values.dedup

@[simp] theorem mem_uniqueSorted {k : κ} {values : List κ} : k ∈ uniqueSorted values ↔ k ∈ values := by
  simp [uniqueSorted]

theorem nodup_uniqueSorted (values : List κ) : (uniqueSorted values).Nodup :=
  (sortBy_perm _).nodup_iff.mpr values.nodup_dedup

theorem length_uniqueSorted {values : List κ} (h : values.Nodup) : (uniqueSorted values).length = values.length := by
  rw [uniqueSorted, length_sortBy, h.dedup]

/-- Only the members of the list matter. -/
theorem uniqueSorted_congr {xs ys : List κ} (h : ∀ k, k ∈ xs ↔ k ∈ ys) : uniqueSorted xs = uniqueSorted ys :=
  sortBy_id_eq_of_perm ((List.perm_ext_iff_of_nodup xs.nodup_dedup ys.nodup_dedup).mpr (by simpa using h))

/-! ## The least entry -/

/-- The head of a sorted list has the least key. -/
theorem head?_sortBy {xs : List α} {m : α} (h : (sortBy key xs).head? = some m) : m ∈ xs ∧ ∀ x ∈ xs, key m ≤ key x := by
  have hpairwise : (sortBy key xs).Pairwise (fun a b => key a ≤ key b) := sortBy_pairwise xs
  obtain ⟨rest, hrest⟩ := List.head?_eq_some_iff.mp h
  refine ⟨mem_sortBy.mp (hrest ▸ List.mem_cons_self), fun x hx => ?_⟩
  rw [hrest] at hpairwise
  rcases List.mem_cons.mp (hrest ▸ mem_sortBy.mpr hx) with rfl | hx
  · exact le_rfl
  · exact List.rel_of_pairwise_cons hpairwise hx

theorem head?_sortBy_eq_none {xs : List α} : (sortBy key xs).head? = none ↔ xs = [] := by
  rw [List.head?_eq_none_iff, ← List.length_eq_zero_iff, length_sortBy, List.length_eq_zero_iff]

/-- The head among the entries of a kind has the least key of that kind. -/
theorem head?_filter_sortBy {p : α → Bool} {xs : List α} {m : α} (h : ((sortBy key xs).filter p).head? = some m) :
    m ∈ xs ∧ p m ∧ ∀ x ∈ xs, p x → key m ≤ key x := by
  obtain ⟨rest, hrest⟩ := List.head?_eq_some_iff.mp h
  have hpairwise : (m :: rest).Pairwise fun a b => key a ≤ key b := hrest ▸ (sortBy_pairwise xs).filter p
  have hm : m ∈ (sortBy key xs).filter p := hrest ▸ List.mem_cons_self
  refine ⟨mem_sortBy.mp (List.mem_filter.mp hm).1, (List.mem_filter.mp hm).2, fun x hx hpx => ?_⟩
  have hmem : x ∈ m :: rest := hrest ▸ List.mem_filter.mpr ⟨mem_sortBy.mpr hx, hpx⟩
  rcases List.mem_cons.mp hmem with rfl | hmem
  · exact le_rfl
  · exact List.rel_of_pairwise_cons hpairwise hmem

theorem head?_filter_sortBy_eq_none {p : α → Bool} {xs : List α} :
    ((sortBy key xs).filter p).head? = none ↔ ∀ x ∈ xs, ¬p x := by
  rw [List.head?_eq_none_iff, List.filter_eq_nil_iff]
  exact ⟨fun h x hx => h x (mem_sortBy.mpr hx), fun h x hx => h x (mem_sortBy.mp hx)⟩

/-- The least key depends on the keys alone. -/
theorem map_head?_sortBy (key : α → κ) (xs : List α) :
    (sortBy key xs).head?.map key = (sortBy id (xs.map key)).head? := by
  rw [← List.head?_map]
  exact congrArg List.head? (map_sortBy key id xs)

/-! ## Stability -/

/-- The entries that satisfy a predicate keep their order when they share a key. -/
theorem filter_sortBy {p : α → Bool} (h : ∀ a b, p a → p b → key a = key b) (xs : List α) :
    (sortBy key xs).filter p = xs.filter p := by
  have hpairwise : (xs.filter p).Pairwise fun a b => key a ≤ key b :=
    List.pairwise_of_forall_mem_list fun a ha b hb => le_of_eq (h a b (List.of_mem_filter ha) (List.of_mem_filter hb))
  have hsub : (xs.filter p).Sublist (sortBy key xs) := List.sublist_insertionSort hpairwise List.filter_sublist
  have hfilter : (xs.filter p).Sublist ((sortBy key xs).filter p) := by
    simpa [List.filter_filter] using hsub.filter p
  exact (hfilter.eq_of_length ((sortBy_perm xs).filter p).length_eq.symm).symm

/-- A sorted list is determined by the entries of each key. -/
theorem eq_of_sorted_of_filter : {xs ys : List α} → xs.Pairwise (fun a b => key a ≤ key b) →
    ys.Pairwise (fun a b => key a ≤ key b) →
    (∀ k, xs.filter (fun a => key a = k) = ys.filter (fun a => key a = k)) → xs = ys
  | [], [], _, _, _ => rfl
  | [], y :: ys, _, _, h => by simpa using h (key y)
  | x :: xs, [], _, _, h => by simpa using h (key x)
  | x :: xs, y :: ys, hx, hy, h => by
      have hle : key x ≤ key y := by
        have hmem : y ∈ (x :: xs).filter (fun a => key a = key y) := by simp [h (key y)]
        rcases List.mem_cons.mp (List.mem_of_mem_filter hmem) with rfl | hmem
        · exact le_rfl
        · exact List.rel_of_pairwise_cons hx hmem
      have hge : key y ≤ key x := by
        have hmem : x ∈ (y :: ys).filter (fun a => key a = key x) := by simp [← h (key x)]
        rcases List.mem_cons.mp (List.mem_of_mem_filter hmem) with rfl | hmem
        · exact le_rfl
        · exact List.rel_of_pairwise_cons hy hmem
      have hkey : key x = key y := le_antisymm hle hge
      have hhead := h (key y)
      simp only [List.filter_cons, hkey, decide_true, if_true, List.cons.injEq] at hhead
      obtain ⟨rfl, -⟩ := hhead
      refine congrArg (x :: ·) (eq_of_sorted_of_filter hx.of_cons hy.of_cons fun k => ?_)
      by_cases hk : key x = k <;> simpa [List.filter_cons, hk] using h k

/-- Sorting forgets the order of the entries except among those that share a key. -/
theorem sortBy_eq_of_filter {xs ys : List α}
    (h : ∀ k, xs.filter (fun a => key a = k) = ys.filter (fun a => key a = k)) : sortBy key xs = sortBy key ys := by
  refine eq_of_sorted_of_filter (sortBy_pairwise xs) (sortBy_pairwise ys) fun k => ?_
  have hsame : ∀ a b, decide (key a = k) → decide (key b = k) → key a = key b := by
    intro a b ha hb
    rw [of_decide_eq_true ha, of_decide_eq_true hb]
  rw [filter_sortBy hsame, filter_sortBy hsame, h k]

end SecPlatform
