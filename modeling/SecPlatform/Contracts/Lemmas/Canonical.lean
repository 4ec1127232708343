import SecPlatform.Contracts.Canonical
import SecPlatform.Library.Lemmas.JsonObject

/-!
# Canonical values read back

The text of a canonical value is a JSON text, and `JSON.parse` returns the canonical value.
-/

namespace SecPlatform.Contracts

open Json

/-! ## Canonical members -/

theorem canonicalOrder_perm {α : Type} (ms : List (Text × α)) : (canonicalOrder ms).Perm ms :=
  (ownOrder_perm _).trans (sortBy_perm ms)

theorem canonicalMembers_eq_map (ms : List (Text × Value)) :
    canonicalMembers ms = ms.map fun m => (m.1, canonical m.2) := by
  induction ms with
  | nil => rfl
  | cons m ms ih => obtain ⟨k, v⟩ := m; simp [canonicalMembers, ih]

theorem keys_canonicalMembers (ms : List (Text × Value)) : (canonicalMembers ms).map Prod.fst = ms.map Prod.fst := by
  simp [canonicalMembers_eq_map, Function.comp_def]

theorem isFiniteMembers_iff {ms : List (Text × Value)} : isFiniteMembers ms ↔ ∀ m ∈ ms, isFinite m.2 := by
  induction ms with
  | nil => simp [isFiniteMembers]
  | cons m ms ih => obtain ⟨k, v⟩ := m; simp [isFiniteMembers, ih]

theorem nodup_canonicalOrder {ms : List (Text × Value)} (h : (ms.map Prod.fst).Nodup) :
    ((canonicalOrder (canonicalMembers ms)).map Prod.fst).Nodup := by
  rw [((canonicalOrder_perm (canonicalMembers ms)).map Prod.fst).nodup_iff, keys_canonicalMembers]
  exact h

/-- A member of the canonical object is the canonical form of the member. -/
theorem get?_canonical {ms : List (Text × Value)} (h : (ms.map Prod.fst).Nodup) (k : Text) :
    get? k (canonicalOrder (canonicalMembers ms)) = (get? k ms).map canonical := by
  rw [get?_perm (canonicalOrder_perm _) (nodup_canonicalOrder h)]
  clear h
  induction ms with
  | nil => rfl
  | cons m ms ih =>
      obtain ⟨l, v⟩ := m
      simp only [canonicalMembers, get?]
      split <;> simp [ih]

/-! ## Reading a canonical text -/

mutual
theorem exact_canonical : (v : Value) → isFinite v → (canonical v).Exact
  | .num n, h => by
      simp only [canonical, Json.Exact]
      simp only [isFinite] at h
      by_cases hz : n = .zero true
      · rw [if_pos hz]
        exact JsNumber.read_literal? rfl (by simp)
      · rw [if_neg hz]
        exact JsNumber.read_literal? h hz
  | .arr items, h => by
      simp only [canonical, Json.Exact]
      exact exact_canonicalItems items h
  | .obj members, h => by
      simp only [canonical, Json.Exact]
      rw [exactMembers_iff]
      intro m hm
      exact exactMembers_iff.mp (exact_canonicalMembers members h) m ((canonicalOrder_perm _).mem_iff.mp hm)
  | .null, _ | .bool _, _ | .str _, _ => trivial

theorem exact_canonicalItems : (vs : List Value) → isFiniteItems vs → ExactItems (canonicalItems vs)
  | [], _ => trivial
  | v :: vs, h => by
      simp only [isFiniteItems, Bool.and_eq_true] at h
      exact ⟨exact_canonical v h.1, exact_canonicalItems vs h.2⟩

theorem exact_canonicalMembers : (ms : List (Text × Value)) → isFiniteMembers ms → ExactMembers (canonicalMembers ms)
  | [], _ => trivial
  | (_, v) :: ms, h => by
      simp only [isFiniteMembers, Bool.and_eq_true] at h
      exact ⟨exact_canonical v h.1, exact_canonicalMembers ms h.2⟩
end

mutual
theorem ofTree_canonical : (v : Value) → v.UniqueKeys → ofTree (canonical v) = canonical v
  | .arr items, h => by simp only [canonical, ofTree, ofTree_canonicalItems items h]
  | .obj members, h => by
      have hmembers : ofTreeMembers (canonicalOrder (canonicalMembers members)) =
          canonicalOrder (canonicalMembers members) := by
        rw [ofTreeMembers_eq_map]
        refine (List.map_congr_left fun m hm => ?_).trans (List.map_id _)
        rw [ofTree_canonicalMembers members h.2 m ((canonicalOrder_perm _).mem_iff.mp hm)]
        rfl
      simp only [canonical, ofTree, hmembers]
      rw [foldl_define (by simpa using nodup_canonicalOrder h.1), List.nil_append, canonicalOrder, ownOrder_ownOrder]
  | .num _, _ | .null, _ | .bool _, _ | .str _, _ => rfl

theorem ofTree_canonicalItems : (vs : List Value) → UniqueKeysItems vs → ofTreeItems (canonicalItems vs) = canonicalItems vs
  | [], _ => rfl
  | v :: vs, h => by simp only [canonicalItems, ofTreeItems, ofTree_canonical v h.1, ofTree_canonicalItems vs h.2]

theorem ofTree_canonicalMembers : (ms : List (Text × Value)) → UniqueKeysMembers ms →
    ∀ m ∈ canonicalMembers ms, ofTree m.2 = m.2
  | [], _ => by simp [canonicalMembers]
  | (_, v) :: ms, h => by
      simp only [canonicalMembers, List.forall_mem_cons]
      exact ⟨ofTree_canonical v h.1, ofTree_canonicalMembers ms h.2⟩
end

mutual
theorem uniqueKeys_canonical : (v : Value) → v.UniqueKeys → (canonical v).UniqueKeys
  | .arr items, h => uniqueKeys_canonicalItems items h
  | .obj members, h => by
      refine ⟨nodup_canonicalOrder h.1, uniqueKeysMembers_iff.mpr fun m hm => ?_⟩
      exact uniqueKeysMembers_iff.mp (uniqueKeys_canonicalMembers members h.2) m
        ((canonicalOrder_perm _).mem_iff.mp hm)
  | .num _, _ | .null, _ | .bool _, _ | .str _, _ => trivial

theorem uniqueKeys_canonicalItems : (vs : List Value) → UniqueKeysItems vs → UniqueKeysItems (canonicalItems vs)
  | [], _ => trivial
  | v :: vs, h => ⟨uniqueKeys_canonical v h.1, uniqueKeys_canonicalItems vs h.2⟩

theorem uniqueKeys_canonicalMembers : (ms : List (Text × Value)) → UniqueKeysMembers ms →
    UniqueKeysMembers (canonicalMembers ms)
  | [], _ => trivial
  | (_, v) :: ms, h => ⟨uniqueKeys_canonical v h.1, uniqueKeys_canonicalMembers ms h.2⟩
end

/-- The canonical text of a value is a document whose tree is the canonical value. -/
theorem document_canonicalEncoding {v : Value} (h : isFinite v) :
    Json.document (canonicalEncoding v) = some (canonical v) := document_render (exact_canonical v h)

theorem parse_canonicalEncoding {v : Value} (h : isFinite v) (hu : v.UniqueKeys) :
    Json.parse (canonicalEncoding v) = some (canonical v) := by
  rw [Json.parse, document_canonicalEncoding h, Option.map_some, ofTree_canonical v hu]

end SecPlatform.Contracts
