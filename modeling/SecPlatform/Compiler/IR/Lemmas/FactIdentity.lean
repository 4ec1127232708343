import SecPlatform.Compiler.IR.Identity
import SecPlatform.Contracts.Lemmas.CanonicalEncoding

/-!
# The ids of facts

The text of a normalized value is its canonical text, which gives the canonical value back. The null characters of an id
stand between its subject, its predicate and its object only.
-/

namespace SecPlatform.Compiler.IR

open Contracts Semantics
open Json (render renderItems renderMembers)

/-! ## Normal values -/

theorem canonicalOrder_map {α β : Type} (f : α → β) (ms : List (Text × α)) :
    (canonicalOrder ms).map (Prod.map id f) = canonicalOrder (ms.map (Prod.map id f)) := by
  have hsort := map_sortBy (Prod.map id f) (Prod.fst : Text × β → Text) ms
  have hindex := map_sortBy (Prod.map id f) (fun m : Text × β => (Json.arrayIndex? m.1).getD 0)
    ((sortBy Prod.fst ms).filter fun m => (Json.arrayIndex? m.1).isSome)
  simp only [canonicalOrder, Json.ownOrder, List.map_append]
  rw [← hsort, List.filter_map, List.filter_map]
  exact congrArg₂ (· ++ ·) hindex rfl

theorem renderMembers_congr {ms ns : List (Text × Value)}
    (h : ms.map (Prod.map id render) = ns.map (Prod.map id render)) : renderMembers ms = renderMembers ns := by
  induction ms generalizing ns with
  | nil =>
      obtain rfl := List.map_eq_nil_iff.mp h.symm
      rfl
  | cons m ms ih =>
      obtain ⟨n, ns, rfl⟩ := List.exists_cons_of_ne_nil fun hnil : ns = [] => by simp [hnil] at h
      obtain ⟨hhead, htail⟩ := List.cons.inj h
      obtain ⟨k, v⟩ := m
      obtain ⟨l, w⟩ := n
      obtain ⟨hkey, hvalue⟩ := Prod.mk.inj hhead
      obtain rfl : k = l := hkey
      cases ms with
      | nil =>
          obtain rfl := List.map_eq_nil_iff.mp htail.symm
          simp only [renderMembers, show render v = render w from hvalue]
      | cons m' ms =>
          obtain ⟨n', ns, rfl⟩ := List.exists_cons_of_ne_nil fun hnil : ns = [] => by simp [hnil] at htail
          simp only [renderMembers, show render v = render w from hvalue, ih htail]

theorem renderItems_congr {vs ws : List Value} (h : vs.map render = ws.map render) : renderItems vs = renderItems ws := by
  induction vs generalizing ws with
  | nil =>
      obtain rfl := List.map_eq_nil_iff.mp h.symm
      rfl
  | cons v vs ih =>
      obtain ⟨w, ws, rfl⟩ := List.exists_cons_of_ne_nil fun hnil : ws = [] => by simp [hnil] at h
      obtain ⟨hvalue, htail⟩ := List.cons.inj h
      cases vs with
      | nil =>
          obtain rfl := List.map_eq_nil_iff.mp htail.symm
          simp only [renderItems, hvalue]
      | cons v' vs =>
          obtain ⟨w', ws, rfl⟩ := List.exists_cons_of_ne_nil fun hnil : ws = [] => by simp [hnil] at htail
          simp only [renderItems, hvalue, ih htail]

/-- Objects whose members are written alike are written alike. -/
theorem render_obj_congr {ms ns : List (Text × Value)} (h : ms.map (Prod.map id render) = ns.map (Prod.map id render)) :
    render (.obj ms : Value) = render (.obj ns : Value) := by
  simp only [render, renderMembers_congr h]

theorem render_arr_congr {vs ws : List Value} (h : vs.map render = ws.map render) :
    render (.arr vs : Value) = render (.arr ws : Value) := by
  simp only [render, renderItems_congr h]

mutual
theorem render_normalizeSemanticValue : (v : Value) → render (normalizeSemanticValue v) = render (canonical v)
  | .num n => by
      simp only [normalizeSemanticValue, canonical]
      split
      · rename_i hzero
        subst hzero
        rfl
      · rfl
  | .arr items => render_arr_congr (map_render_normalizeSemanticItems items)
  | .obj members => by
      have hmembers : (canonicalOrder (normalizeSemanticMembers members)).map (Prod.map id render) =
          (canonicalOrder (canonicalMembers members)).map (Prod.map id render) := by
        rw [canonicalOrder_map, canonicalOrder_map, map_render_normalizeSemanticMembers members]
      exact render_obj_congr hmembers
  | .null | .bool _ | .str _ => rfl

theorem map_render_normalizeSemanticItems :
    (vs : List Value) → (normalizeSemanticItems vs).map render = (canonicalItems vs).map render
  | [] => rfl
  | v :: vs => by
      simp only [normalizeSemanticItems, canonicalItems, List.map_cons, render_normalizeSemanticValue v,
        map_render_normalizeSemanticItems vs]

theorem map_render_normalizeSemanticMembers : (ms : List (Text × Value)) →
    (normalizeSemanticMembers ms).map (Prod.map id render) = (canonicalMembers ms).map (Prod.map id render)
  | [] => rfl
  | (k, v) :: ms => by
      simp only [normalizeSemanticMembers, canonicalMembers, List.map_cons, Prod.map_apply,
        render_normalizeSemanticValue v, map_render_normalizeSemanticMembers ms]
end

mutual
theorem canonical_normalizeSemanticValue : (v : Value) → canonical (normalizeSemanticValue v) = canonical v
  | .arr items => by simp only [normalizeSemanticValue, canonical, canonical_normalizeSemanticItems items]
  | .obj members => by
      have hmembers (ms : List (Text × Value)) : canonicalMembers ms = ms.map (Prod.map id canonical) :=
        canonicalMembers_eq_map ms
      simp only [normalizeSemanticValue, canonical]
      rw [hmembers (canonicalOrder _), canonicalOrder_map, ← hmembers, canonicalOrder_canonicalOrder,
        canonical_normalizeSemanticMembers members]
  | .null | .bool _ | .num _ | .str _ => rfl

theorem canonical_normalizeSemanticItems :
    (vs : List Value) → canonicalItems (normalizeSemanticItems vs) = canonicalItems vs
  | [] => rfl
  | v :: vs => by
      simp only [normalizeSemanticItems, canonicalItems, canonical_normalizeSemanticValue v,
        canonical_normalizeSemanticItems vs]

theorem canonical_normalizeSemanticMembers :
    (ms : List (Text × Value)) → canonicalMembers (normalizeSemanticMembers ms) = canonicalMembers ms
  | [] => rfl
  | (k, v) :: ms => by
      simp only [normalizeSemanticMembers, canonicalMembers, canonical_normalizeSemanticValue v,
        canonical_normalizeSemanticMembers ms]
end

/-! ## Objects -/

/-- What the id of a fact says of its object. -/
def normalizedObject : SemanticFactObject → Text ⊕ Value
  | .entity entityId => .inl entityId
  | .value content => .inr (canonical content.val)

theorem objectKey_injective {object object' : SemanticFactObject} (h : objectKey object = objectKey object') :
    normalizedObject object = normalizedObject object' := by
  cases object with
  | entity entityId =>
      cases object' with
      | entity entityId' =>
          have heq : entityId = entityId' := by simpa [objectKey, Text.cat] using h
          rw [heq]
      | value content' =>
          have hhead : some (unit 'e') = some (unit 'v') := congrArg List.head? h
          exact absurd hhead (by decide)
  | value content =>
      cases object' with
      | entity entityId' =>
          have hhead : some (unit 'v') = some (unit 'e') := congrArg List.head? h
          exact absurd hhead (by decide)
      | value content' =>
          have heq : render (normalizeSemanticValue content.val) = render (normalizeSemanticValue content'.val) := by
            simpa [objectKey, Text.cat] using h
          rw [render_normalizeSemanticValue, render_normalizeSemanticValue] at heq
          rw [normalizedObject, normalizedObject, canonical_eq_of_encoding content.property content'.property heq]

theorem predicateText_injective : Function.Injective SemanticPredicate.toText := by
  have hnodup : (SEMANTIC_PREDICATES.map SemanticPredicate.toText).Nodup := by decide
  have hmem (predicate : SemanticPredicate) : predicate ∈ SEMANTIC_PREDICATES := by cases predicate <;> decide
  exact fun a b h => List.inj_on_of_nodup_map hnodup (hmem a) (hmem b) h

theorem factIdentity_eq_ok {subject : Text} {predicate : SemanticPredicate} {object : SemanticFactObject} {id : Text} :
    factIdentity subject predicate object = .ok id → 0 ∉ subject ∧ 0 ∉ predicate.toText ∧
      id = subject ++ 0 :: (predicate.toText ++ 0 :: objectKey object) := by
  intro h
  obtain ⟨_, hnul, h⟩ := bind_eq_ok.mp h
  have hfree := require_eq_ok.mp hnul
  refine ⟨fun hmem => hfree (.inl hmem), fun hmem => hfree (.inr (.inl hmem)), ?_⟩
  rw [← Except.ok.inj h]
  simp [Text.cat]

theorem factIdentity_injective {subject subject' : Text} {predicate predicate' : SemanticPredicate}
    {object object' : SemanticFactObject} {id : Text} (h : factIdentity subject predicate object = .ok id)
    (h' : factIdentity subject' predicate' object' = .ok id) :
    subject = subject' ∧ predicate = predicate' ∧ normalizedObject object = normalizedObject object' := by
  obtain ⟨hsubject, hpredicate, heq⟩ := factIdentity_eq_ok h
  obtain ⟨hsubject', hpredicate', heq'⟩ := factIdentity_eq_ok h'
  have hsplit := congrArg (Text.splitAt 0) (heq.symm.trans heq')
  rw [Text.splitAt_append hsubject, Text.splitAt_append hsubject'] at hsplit
  obtain ⟨rfl, hrest⟩ := List.cons.inj hsplit
  rw [Text.splitAt_append hpredicate, Text.splitAt_append hpredicate'] at hrest
  obtain ⟨hpred, _⟩ := List.cons.inj hrest
  obtain rfl := predicateText_injective hpred
  have hkey := List.append_cancel_left (heq.symm.trans heq')
  exact ⟨rfl, rfl, objectKey_injective (List.cons.inj (List.append_cancel_left (List.cons.inj hkey).2)).2⟩

end SecPlatform.Compiler.IR
