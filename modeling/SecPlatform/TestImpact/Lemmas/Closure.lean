import SecPlatform.TestImpact.Impact

/-!
# The edges of the reverse import map

Membership in the two adjacency maps, and what the issuing of a projection says about them: along the edges of a path
without declarations the structural map has every consumer that the pruned map has.
-/

namespace SecPlatform.TestImpact

/-! ## Adjacency -/

theorem mem_consumersOf_freezeAdjacency {map : Adjacency} {target c : Text} :
    c ∈ consumersOf (freezeAdjacency map) target ↔ c ∈ consumersOf map target := by
  have hkeys : ((map.entries.map fun entry => (entry.1, uniqueSorted entry.2)).map Prod.fst).Nodup := by
    rw [List.map_map]
    exact map.nodup
  rw [consumersOf, OrderedMap.valuesAt, freezeAdjacency, OrderedMap.get?_foldl_set hkeys, OrderedMap.find_map_snd,
    consumersOf, OrderedMap.valuesAt]
  change c ∈ (((map.get? target).map uniqueSorted).or (map.get? target)).getD [] ↔ _
  cases map.get? target <;> simp

theorem mem_consumersOf_edges {edges : List (Text × Text)} {target c : Text} :
    c ∈ consumersOf (freezeAdjacency (addConsumers .empty edges)) target ↔ (target, c) ∈ edges := by
  rw [mem_consumersOf_freezeAdjacency, consumersOf, addConsumers, OrderedMap.mem_valuesAt_addAllTo]
  simp

/-! ## The edges of a provider -/

namespace TestImpactSourceProvider

variable {provider : TestImpactSourceProvider} {path c : Text}

theorem mem_consumers_structural :
    c ∈ provider.consumers true path ↔
      (path, c) ∈ provider.observedEdges ∨ (path, c) ∈ provider.importEdges fun _ => true := by
  rw [← List.mem_append]
  exact mem_consumersOf_edges

theorem mem_consumers_pruned :
    c ∈ provider.consumers false path ↔ (path, c) ∈ provider.semanticEdges ∨ (path, c) ∈ provider.observedEdges ∨
      (path, c) ∈ provider.importEdges provider.isImprecise := by
  rw [← or_assoc, ← List.mem_append, ← List.mem_append]
  exact mem_consumersOf_edges

theorem mem_semanticEdges :
    (path, c) ∈ provider.semanticEdges ↔
      ∃ reference ∈ provider.projection.semanticReferences,
        reference.targetPath = some path ∧ path ≠ reference.path ∧ reference.path = c := by
  rw [semanticEdges, List.mem_filterMap]
  refine exists_congr fun reference => and_congr_right fun _ => ?_
  cases htarget : reference.targetPath with
  | none => simp
  | some target =>
      by_cases hself : target = reference.path
      · simp only [hself, if_true, reduceCtorEq, Option.some.injEq, false_iff, not_and]
        intro h hne
        exact absurd h.symm hne
      · simp only [if_neg hself, Option.some.injEq, Prod.mk.injEq]
        constructor
        · rintro ⟨rfl, rfl⟩
          exact ⟨rfl, hself, rfl⟩
        · rintro ⟨rfl, -, rfl⟩
          exact ⟨rfl, rfl⟩

theorem mem_importEdges {condition : ModuleReference → Bool} :
    (path, c) ∈ provider.importEdges condition ↔
      ∃ reference ∈ provider.projection.moduleGraph.references,
        condition reference = true ∧ path ∈ reference.candidateTargets ∧ reference.from = c := by
  simp only [importEdges, List.mem_flatMap, List.mem_filter, List.mem_map, Prod.mk.injEq]
  constructor
  · rintro ⟨reference, ⟨hmem, hcondition⟩, _, hcandidate, rfl, rfl⟩
    exact ⟨reference, hmem, hcondition, hcandidate, rfl⟩
  · rintro ⟨reference, hmem, hcondition, hcandidate, rfl⟩
    exact ⟨reference, ⟨hmem, hcondition⟩, path, hcandidate, rfl, rfl⟩

/-- No consumer of a path without declarations is known to the pruned map alone. -/
theorem consumers_pruned_subset (hpath : path ∉ provider.projection.declarationPaths)
    (h : c ∈ provider.consumers false path) : c ∈ provider.consumers true path := by
  rw [mem_consumers_structural]
  rcases mem_consumers_pruned.mp h with h | h | h
  · obtain ⟨reference, hmem, htarget, hself, rfl⟩ := mem_semanticEdges.mp h
    rcases provider.projection.lowered reference hmem path htarget with heq | hdeclared | ⟨importing, himporting, hfrom, hcandidate⟩
    · exact absurd heq hself
    · exact absurd hdeclared hpath
    · exact .inr (mem_importEdges.mpr ⟨importing, himporting, rfl, hcandidate, hfrom⟩)
  · exact .inl h
  · obtain ⟨reference, hmem, -, hcandidate, hfrom⟩ := mem_importEdges.mp h
    exact .inr (mem_importEdges.mpr ⟨reference, hmem, rfl, hcandidate, hfrom⟩)

end TestImpactSourceProvider

end SecPlatform.TestImpact
