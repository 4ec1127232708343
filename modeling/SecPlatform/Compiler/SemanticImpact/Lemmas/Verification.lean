import SecPlatform.Compiler.SemanticImpact.Lemmas.Edges

/-!
# Verification of what is reached

Every seed that is a source and every reached entity is among the sources, and each source that is a scenario or
an artifact is settled: a recommendation has it for a reason, or an uncertainty is bounded at it.
-/

namespace SecPlatform.Compiler.SemanticImpact

open Contracts Semantics IR

/-! ## Sources -/

/-- Every source is filed under its basis and its entity. -/
def FiledSources (sources : ImpactSources) : Prop :=
  ∀ key source, sources.get? key = some source → (source.basis, source.entityId) = key

theorem FiledSources.set {sources : ImpactSources} (h : FiledSources sources) {key : ImpactBasis × Text}
    {source : ImpactSource} (hkey : (source.basis, source.entityId) = key) : FiledSources (sources.set key source) := by
  intro other value hget
  rw [OrderedMap.get?_set] at hget
  split at hget
  next heq =>
    cases hget
    exact hkey.trans heq
  next => exact h other value hget

/-- The keys are those of the sources. -/
theorem FiledSources.mem_keys {sources : ImpactSources} (h : FiledSources sources) (key : ImpactBasis × Text) :
    key ∈ sources.keys ↔ ∃ source ∈ sources.values, (source.basis, source.entityId) = key := by
  rw [OrderedMap.mem_keys]
  constructor
  · rintro ⟨source, hget⟩
    exact ⟨source, OrderedMap.mem_values.mpr ⟨key, hget⟩, h key source hget⟩
  · rintro ⟨source, hmem, rfl⟩
    obtain ⟨key, hget⟩ := OrderedMap.mem_values.mp hmem
    exact ⟨source, h key source hget ▸ hget⟩

theorem mem_keys_addSeedSource (sources : ImpactSources) (entry : PropagatingSeed) (key : ImpactBasis × Text) :
    key ∈ (addSeedSource sources entry.seed).keys ↔
      key = (entry.seed.basis, entry.seed.anchorEntityId) ∨ key ∈ sources.keys := OrderedMap.mem_keys_set

theorem mem_keys_addReachedSource (basis : ImpactBasis) (sources : ImpactSources) (state : ReachState)
    (key : ImpactBasis × Text) :
    key ∈ (addReachedSource basis sources state).keys ↔
      (state.distance ≠ 0 ∧ key = (basis, state.entityId)) ∨ key ∈ sources.keys := by
  simp only [addReachedSource]
  split
  next h =>
    refine ⟨.inr, ?_⟩
    rintro (⟨hdistance, rfl⟩ | h')
    · exact OrderedMap.has_iff.mp (h.resolve_left hdistance)
    · exact h'
  next h =>
    rw [not_or] at h
    simp only [OrderedMap.mem_keys_set, h.1, ne_eq, not_false_eq_true, true_and]

theorem filedSources_foldl_addReachedSource (basis : ImpactBasis) {sources : ImpactSources} (h : FiledSources sources)
    (states : List ReachState) : FiledSources (states.foldl (addReachedSource basis) sources) := by
  refine List.foldlRecOn states _ h fun sources hsources state _ => ?_
  simp only [addReachedSource]
  split
  · exact hsources
  · exact hsources.set rfl

/-- The sources of verification: the seeds that are sources and the states that are reached. -/
theorem exists_source_iff {seeds : List PropagatingSeed} {fromStates toStates : ReachStates} {basis : ImpactBasis}
    {entityId : Text} :
    (∃ source ∈ sourcesForVerification seeds fromStates toStates, (source.basis, source.entityId) = (basis, entityId)) ↔
      (∃ entry ∈ seeds, isSource entry ∧ (basis, entityId) = (entry.seed.basis, entry.seed.anchorEntityId)) ∨
      (∃ state ∈ fromStates.values, state.distance ≠ 0 ∧ (basis, entityId) = (.from, state.entityId)) ∨
      ∃ state ∈ toStates.values, state.distance ≠ 0 ∧ (basis, entityId) = (.to, state.entityId) := by
  simp only [sourcesForVerification, mem_sortBy]
  have hseeds : FiledSources ((seeds.filter isSource).foldl (fun sources entry => addSeedSource sources entry.seed)
      .empty) := by
    refine List.foldlRecOn _ _ (fun key source hget => by cases hget) fun sources hsources entry _ => ?_
    exact hsources.set rfl
  have hfiled := filedSources_foldl_addReachedSource .to
    (filedSources_foldl_addReachedSource .from hseeds fromStates.values) toStates.values
  rw [← hfiled.mem_keys, OrderedMap.mem_keys_foldl (mem_keys_addReachedSource .to),
    OrderedMap.mem_keys_foldl (mem_keys_addReachedSource .from), OrderedMap.mem_keys_foldl mem_keys_addSeedSource]
  simp only [OrderedMap.keys_empty, List.not_mem_nil, false_or, List.mem_filter, and_assoc, or_assoc]

/-! ## Recommendations -/

/-- Every reason is filed under its key. -/
def FiledReasons (recommendations : Recommendations) : Prop :=
  ∀ target reasons, recommendations.get? target = some reasons → ∀ key reason, reasons.get? key = some reason →
    reasonKey reason = key

/-- A recommendation has a reason with the key of this one. -/
def Cites (recommendations : Recommendations) (reason : VerificationReason) : Prop :=
  ∃ target reasons, recommendations.get? target = some reasons ∧ reasonKey reason ∈ reasons.keys

theorem cites_addRecommendation_self (recommendations : Recommendations) (target : VerificationTarget)
    (reason : VerificationReason) : Cites (addRecommendation recommendations target reason) reason :=
  ⟨target, _, OrderedMap.get?_set_self _ _ _, OrderedMap.mem_keys_set.mpr (.inl rfl)⟩

theorem Cites.add {recommendations : Recommendations} {other : VerificationReason} (h : Cites recommendations other)
    (target : VerificationTarget) (reason : VerificationReason) :
    Cites (addRecommendation recommendations target reason) other := by
  obtain ⟨cited, reasons, hget, hkey⟩ := h
  by_cases heq : target = cited
  · subst heq
    exact ⟨target, _, OrderedMap.get?_set_self _ _ _, OrderedMap.mem_keys_set.mpr (.inr (by simpa [hget] using hkey))⟩
  · exact ⟨cited, reasons, (OrderedMap.get?_set_of_ne _ _ heq).trans hget, hkey⟩

theorem FiledReasons.add {recommendations : Recommendations} (h : FiledReasons recommendations)
    (target : VerificationTarget) (reason : VerificationReason) :
    FiledReasons (addRecommendation recommendations target reason) := by
  intro other reasons hget key value hvalue
  simp only [addRecommendation, OrderedMap.get?_set] at hget
  split at hget
  next heq =>
    cases hget
    rw [OrderedMap.get?_set] at hvalue
    split at hvalue
    next hkey =>
      cases hvalue
      exact hkey
    next =>
      cases hbefore : recommendations.get? target with
      | none => simp [hbefore] at hvalue
      | some before => exact h target before hbefore key value (by simpa [hbefore] using hvalue)
  next => exact h other reasons hget key value hvalue

/-! ## Progress -/

/-- The verification keeps what it has found. -/
structure Verification.Grows (verification after : Verification) : Prop where
  noted : ∀ value, Noted verification.uncertainties value → Noted after.uncertainties value
  cited : ∀ reason, Cites verification.recommendations reason → Cites after.recommendations reason
  filed : Filed verification.uncertainties → Filed after.uncertainties
  filedReasons : FiledReasons verification.recommendations → FiledReasons after.recommendations

namespace Verification.Grows

theorem refl (verification : Verification) : Grows verification verification := ⟨fun _ h => h, fun _ h => h, id, id⟩

theorem trans {verification between after : Verification} (h : Grows verification between) (h' : Grows between after) :
    Grows verification after where
  noted := fun value hvalue => h'.noted value (h.noted value hvalue)
  cited := fun reason hreason => h'.cited reason (h.cited reason hreason)
  filed := fun hfiled => h'.filed (h.filed hfiled)
  filedReasons := fun hfiled => h'.filedReasons (h.filedReasons hfiled)

theorem uncertain (verification : Verification) {draft : UncertaintyDraft} (h : WellPlaced draft.toImpactUncertainty) :
    Grows verification (verification.uncertain draft) :=
  ⟨fun _ hvalue => hvalue.add draft, fun _ h => h, fun hfiled => hfiled.add h, id⟩

theorem recommend (verification : Verification) (target : VerificationTarget) (reason : VerificationReason) :
    Grows verification (verification.recommend target reason) :=
  ⟨fun _ h => h, fun _ h => h.add target reason, id, fun h => h.add target reason⟩

end Verification.Grows

/-! ## Settled sources -/

/-- A recommendation has the entity for a reason. -/
def CitesEntity (verification : Verification) (basis : ImpactBasis) (entityId : Text) : Prop :=
  ∃ reason : VerificationReason, reason.basis = basis ∧ reason.sourceEntityId = entityId ∧
    Cites verification.recommendations reason

/-- An uncertainty is bounded at the entity. -/
def NotedAt (verification : Verification) (basis : ImpactBasis) (entityId : Text) : Prop :=
  ∃ value : ImpactUncertainty, WellPlaced value ∧ value.basis = basis ∧ value.boundaryEntityId = some entityId ∧
    Noted verification.uncertainties value

section Settled

variable {verification after : Verification} {basis : ImpactBasis} {entityId : Text} {source : ImpactSource}

theorem CitesEntity.mono (h : CitesEntity verification basis entityId) (hgrows : verification.Grows after) :
    CitesEntity after basis entityId := by
  obtain ⟨reason, hbasis, hentity, hcites⟩ := h
  exact ⟨reason, hbasis, hentity, hgrows.cited reason hcites⟩

theorem NotedAt.mono (h : NotedAt verification basis entityId) (hgrows : verification.Grows after) :
    NotedAt after basis entityId := by
  obtain ⟨value, hplaced, hbasis, hboundary, hnoted⟩ := h
  exact ⟨value, hplaced, hbasis, hboundary, hgrows.noted value hnoted⟩

theorem citesEntity_recommend (verification : Verification) (source : ImpactSource) (target : VerificationTarget)
    (factId : Option Text) :
    CitesEntity (verification.recommend target (verificationReason source factId)) source.basis source.entityId :=
  ⟨verificationReason source factId, rfl, rfl, cites_addRecommendation_self _ _ _⟩

theorem notedAt_uncertain {draft : UncertaintyDraft} (hplaced : WellPlaced draft.toImpactUncertainty)
    (hboundary : draft.boundaryEntityId = some entityId) :
    NotedAt (verification.uncertain draft) draft.basis entityId :=
  ⟨draft.toImpactUncertainty, hplaced, rfl, hboundary, noted_addUncertainty.mpr (.inl rfl)⟩

/-- What the mappings of a source so far say of it. -/
structure Collected (verification : Verification) (source : ImpactSource) (mappings : Mappings) : Prop where
  grows : verification.Grows mappings.verification
  runnable : mappings.runnable → CitesEntity mappings.verification source.basis source.entityId
  nonDefinite : mappings.nonDefinite → NotedAt mappings.verification source.basis source.entityId

theorem Collected.step {mappings mappings' : Mappings} (h : Collected verification source mappings)
    (hgrows : mappings.verification.Grows mappings'.verification)
    (hrunnable : mappings'.runnable → mappings.runnable ∨
      CitesEntity mappings'.verification source.basis source.entityId)
    (hnonDefinite : mappings'.nonDefinite → mappings.nonDefinite ∨
      NotedAt mappings'.verification source.basis source.entityId) : Collected verification source mappings' where
  grows := h.grows.trans hgrows
  runnable := fun hafter => (hrunnable hafter).elim (fun hbefore => (h.runnable hbefore).mono hgrows) id
  nonDefinite := fun hafter => (hnonDefinite hafter).elim (fun hbefore => (h.nonDefinite hbefore).mono hgrows) id

theorem wellPlaced_sourceUncertainty (source : ImpactSource) {reasonCode : ImpactUncertaintyReason}
    {fact : Option SemanticFact} (h : fact.isSome ↔ reasonCode ≠ .verificationMappingMissing) :
    WellPlaced (sourceUncertainty source reasonCode fact).toImpactUncertainty :=
  ⟨rfl, by simpa [sourceUncertainty] using h⟩

/-- A mapping makes its source runnable with a recommendation, or non-definite with an uncertainty. -/
theorem collectMapping_ok {ir : EngineeringIR} {entity : SemanticEntity} {mappings mappings' : Mappings}
    {fact : SemanticFact} (hcollected : Collected verification source mappings)
    (h : collectMapping source ir entity mappings fact = .ok mappings') :
    Collected verification source mappings' := by
  unfold collectMapping at h
  split at h
  · cases h
    exact hcollected.step (.uncertain _ wellPlaced_nonDefiniteUncertainty) .inl
      fun _ => .inr (notedAt_uncertain wellPlaced_nonDefiniteUncertainty rfl)
  split at h
  · split at h
    · cases h
    · simp only [bind_eq_ok, pure_eq_ok, Except.ok.injEq] at h
      obtain ⟨_, -, rfl⟩ := h
      exact hcollected.step (.uncertain _ (wellPlaced_sourceUncertainty source (by simp))) .inl .inl
  split at h
  · simp only [bind_eq_ok, pure_eq_ok, Except.ok.injEq] at h
    obtain ⟨target, -, rfl⟩ := h
    exact hcollected.step (.recommend _ _ _) (fun _ => .inr (citesEntity_recommend _ source _ _)) .inl
  · split at h
    · cases h
    · simp only [bind_eq_ok, pure_eq_ok, Except.ok.injEq] at h
      obtain ⟨target, -, rfl⟩ := h
      exact hcollected.step (.recommend _ _ _) (fun _ => .inr (citesEntity_recommend _ source _ _)) .inl

/-- The mappings of a scenario or of an artifact settle it. -/
theorem collectMappings_ok {ir : EngineeringIR} {entity : SemanticEntity} {facts : List SemanticFact}
    (h : (do
      let collected ← facts.foldlM (collectMapping source ir entity) ⟨verification, false, false⟩
      if entity.kind ≠ .policy ∧ !collected.runnable ∧ !collected.nonDefinite then
        return collected.verification.uncertain (sourceUncertainty source .verificationMappingMissing none)
      else return collected.verification : Except CodedFailure Verification) = .ok after) :
    verification.Grows after ∧ (entity.kind ≠ .policy →
      CitesEntity after source.basis source.entityId ∨ NotedAt after source.basis source.entityId) := by
  rw [bind_eq_ok] at h
  obtain ⟨collected, hrun, h⟩ := h
  have hcollected : Collected verification source collected :=
    foldlM_invariant (fun _ _ _ hcollected hstep => collectMapping_ok hcollected hstep)
      ⟨.refl _, fun h => absurd h Bool.false_ne_true, fun h => absurd h Bool.false_ne_true⟩ hrun
  split at h <;> cases h
  · have hplaced : WellPlaced (sourceUncertainty source .verificationMappingMissing none).toImpactUncertainty :=
      wellPlaced_sourceUncertainty source (by simp)
    exact ⟨hcollected.grows.trans (.uncertain _ hplaced), fun _ => .inr (notedAt_uncertain hplaced rfl)⟩
  · rename_i hnot
    refine ⟨hcollected.grows, fun hkind => ?_⟩
    by_cases hrunnable : collected.runnable
    · exact .inl (hcollected.runnable hrunnable)
    · refine .inr (hcollected.nonDefinite ?_)
      simpa [hkind, hrunnable] using hnot

/-- A source that is a scenario or an artifact is settled. -/
theorem collectSource_ok {fromIR toIR : EngineeringIR} (h : collectSource fromIR toIR verification source = .ok after) :
    verification.Grows after ∧
      ∀ entity, entityById (snapshotOf fromIR toIR source.basis) source.entityId = some entity →
        entity.kind = .scenario ∨ entity.kind = .artifact →
        CitesEntity after source.basis source.entityId ∨ NotedAt after source.basis source.entityId := by
  cases hbasis : source.basis
  all_goals
    simp only [collectSource, hbasis, snapshotOf] at h ⊢
    split at h
    · cases h
    rename_i entity hentity
    simp only [hentity, Option.some.injEq, forall_eq']
    split at h
    next hkind =>
      cases h
      exact ⟨.recommend _ _ _, by simp [hkind]⟩
    iterate 3
      next hkind =>
        obtain ⟨hgrows, hsettled⟩ := collectMappings_ok h
        rw [hbasis] at hsettled
        exact ⟨hgrows, fun hscenario => hsettled (by rcases hscenario with h | h <;> simp [h])⟩
    next hscenario hartifact _ =>
      cases h
      exact ⟨.refl _, fun hkind => hkind.elim (fun h => absurd h hscenario) fun h => absurd h hartifact⟩

end Settled

/-! ## All sources -/

/-- Every source that is a scenario or an artifact is settled at the end. -/
theorem foldlM_collectSource {fromIR toIR : EngineeringIR} {sources : List ImpactSource}
    {verification after : Verification} (h : sources.foldlM (collectSource fromIR toIR) verification = .ok after) :
    verification.Grows after ∧ ∀ source ∈ sources,
      ∀ entity, entityById (snapshotOf fromIR toIR source.basis) source.entityId = some entity →
        entity.kind = .scenario ∨ entity.kind = .artifact →
        CitesEntity after source.basis source.entityId ∨ NotedAt after source.basis source.entityId := by
  refine foldlM_rule (P := fun sources after => verification.Grows after ∧ ∀ source ∈ sources,
      ∀ entity, entityById (snapshotOf fromIR toIR source.basis) source.entityId = some entity →
        entity.kind = .scenario ∨ entity.kind = .artifact →
        CitesEntity after source.basis source.entityId ∨ NotedAt after source.basis source.entityId)
    (fun sources between source after hbefore hstep => ?_) ⟨.refl _, nofun⟩ h
  obtain ⟨hgrows, hsettled⟩ := collectSource_ok hstep
  refine ⟨hbefore.1.trans hgrows, fun other hother entity hentity hkind => ?_⟩
  rcases List.mem_append.mp hother with hother | hother
  · exact (hbefore.2 other hother entity hentity hkind).imp (fun h => h.mono hgrows) fun h => h.mono hgrows
  · cases List.mem_singleton.mp hother
    exact hsettled entity hentity hkind

/-- What is cited is among the reasons of a recommendation. -/
theorem CitesEntity.exists_mem {verification : Verification} {basis : ImpactBasis} {entityId : Text}
    (hfiled : FiledReasons verification.recommendations) (h : CitesEntity verification basis entityId) :
    ∃ entry ∈ verification.recommendations.entries, ∃ reason ∈ (recommendation entry).reasons,
      reason.basis = basis ∧ reason.sourceEntityId = entityId := by
  obtain ⟨cited, rfl, rfl, target, reasons, hget, hkey⟩ := h
  obtain ⟨reason, hreason⟩ := OrderedMap.mem_keys.mp hkey
  have heq := hfiled target reasons hget _ reason hreason
  simp only [reasonKey, toLex_inj, Prod.mk.injEq] at heq
  refine ⟨(target, reasons), OrderedMap.get?_eq_some.mp hget, reason,
    mem_sortBy.mpr (OrderedMap.mem_values.mpr ⟨_, hreason⟩), ?_, heq.2.2.1⟩
  exact ofNat_BASIS_RANK_injective (congrArg Text.ofNat heq.1)

end SecPlatform.Compiler.SemanticImpact
