import SecPlatform.Assurance.Lemmas.Aggregate

/-!
# Claims of the aggregate

When a gate proves a claim, what the claim's status is made of, and how it follows the observations.
-/

namespace SecPlatform.Assurance

open Contracts

/-! ## Proven gates -/

/-- The observations of a gate that apply to a claim. -/
def applicableObservations (claim : VerificationClaimDefinition) (gates : List VerificationGateResult) (gateId : Text) :
    List VerificationGateResult :=
  (gateGroup gates gateId).filter (observationAppliesToClaim claim)

/-- Observations that prove a claim: there is one, and all of them passed with both linkages and one proof. -/
structure ProvenBy (claim : VerificationClaimDefinition) (applicable : List VerificationGateResult) : Prop where
  observed : applicable ≠ []
  passed : ∀ g ∈ applicable, g.status = .passed
  required : ∀ g ∈ applicable, claim.claimId ∈ g.requiredForClaims
  supported : ∀ g ∈ applicable, claim.claimId ∈ g.supportedClaims
  oneProof : ∀ g ∈ applicable, ∀ g' ∈ applicable, logicalProofIdentity g = logicalProofIdentity g'

theorem STATUS_PRIORITY_eq_zero {status : VerificationResultStatus} : STATUS_PRIORITY status = 0 ↔ status = .passed := by
  cases status <;> decide

variable {claim : VerificationClaimDefinition} {gateId : Text} {gates gates' : List VerificationGateResult}

theorem observationDecision_passed {g : VerificationGateResult} : (observationDecision claim g).status = .passed ↔
    g.status = .passed ∧ claim.claimId ∈ g.requiredForClaims ∧ claim.claimId ∈ g.supportedClaims := by
  unfold observationDecision
  split
  next hnot => simp [selectionUnresolved, hnot]
  next hrequired =>
    rw [not_not] at hrequired
    split
    next hnot => simp [selectionUnresolved, hnot.2]
    next hlinked =>
      rw [not_and, not_not] at hlinked
      exact ⟨fun h => ⟨h, hrequired, hlinked h⟩, fun h => h.1⟩

theorem decideRequiredGate_passed :
    (decideRequiredGate claim gateId (gateGroup gates gateId)).status = .passed ↔
      ProvenBy claim (applicableObservations claim gates gateId) := by
  by_cases hnone : applicableObservations claim gates gateId = []
  · rw [decideRequiredGate_none hnone]
    exact ⟨nofun, fun h => absurd hnone h.observed⟩
  obtain ⟨hmem, hworst⟩ := chooseHighestStatus_spec (decideRequiredGate_some gateId hnone)
  constructor
  · intro hpassed
    have hall : ∀ decision ∈ applicableDecisions claim (applicableObservations claim gates gateId),
        decision.status = .passed := by
      intro decision hdecision
      have hle := hworst decision hdecision
      rw [id, id, hpassed] at hle
      exact STATUS_PRIORITY_eq_zero.mp (Nat.le_zero.mp hle)
    have hobserved := fun g hg => observationDecision_passed.mp (hall _ (mem_applicableDecisions.mpr (.inl ⟨g, hg, rfl⟩)))
    refine ⟨hnone, fun g hg => (hobserved g hg).1, fun g hg => (hobserved g hg).2.1, fun g hg => (hobserved g hg).2.2, ?_⟩
    intro g hg g' hg'
    by_contra hne
    exact absurd (hall _ (mem_applicableDecisions.mpr (.inr ⟨⟨g, hg, g', hg', hne⟩, rfl⟩))) (by decide)
  · intro h
    rcases mem_applicableDecisions.mp hmem with ⟨g, hg, hdecision⟩ | ⟨⟨g, hg, g', hg', hne⟩, -⟩
    · rw [← hdecision]
      exact observationDecision_passed.mpr ⟨h.passed g hg, h.required g hg, h.supported g hg⟩
    · exact absurd (h.oneProof g hg g' hg') hne

/-! ## The result of a claim -/

theorem mem_observations {g : VerificationGateResult} :
    g ∈ (gateDecisions claim gates).flatMap GateDecision.observations ↔
      g ∈ gates ∧ g.gateId ∈ claim.requiredGateIds ∧ observationAppliesToClaim claim g := by
  simp only [gateDecisions, List.mem_flatMap, List.mem_map, exists_exists_and_eq_and, decideRequiredGate_observations,
    List.mem_filter, mem_gateGroup]
  constructor
  · rintro ⟨_, hrequired, ⟨hmem, rfl⟩, happlies⟩
    exact ⟨hmem, hrequired, happlies⟩
  · rintro ⟨hmem, hrequired, happlies⟩
    exact ⟨_, hrequired, ⟨hmem, rfl⟩, happlies⟩

/-- Where every required gate is proven, the default coverage is complete. -/
theorem defaultCoverageComplete_of_proven
    (h : ∀ gateId ∈ claim.requiredGateIds, ProvenBy claim (applicableObservations claim gates gateId)) :
    defaultCoverageComplete claim ((gateDecisions claim gates).flatMap GateDecision.observations) = true := by
  refine List.all_eq_true.mpr fun gateId hrequired => List.any_eq_true.mpr ?_
  have hproven := h gateId hrequired
  obtain ⟨g, hg⟩ := List.exists_mem_of_ne_nil _ hproven.observed
  obtain ⟨hgroup, happlies⟩ := List.mem_filter.mp hg
  obtain ⟨hmem, rfl⟩ := mem_gateGroup.mp hgroup
  exact ⟨g, mem_observations.mpr ⟨hmem, hrequired, happlies⟩,
    by simp [hproven.passed g hg, hproven.required g hg, hproven.supported g hg, happlies]⟩

theorem exists_decisive (gates : List VerificationGateResult) (hvalid : ValidClaim claim) :
    ∃ d, chooseHighestStatus GateDecision.toStatusDecision (gateDecisions claim gates) = some d :=
  exists_chooseHighestStatus (by simpa [gateDecisions] using hvalid.hasGates)

/-- The decisive gate passed exactly when every required gate is proven. -/
theorem decisive_passed {d : GateDecision}
    (h : chooseHighestStatus GateDecision.toStatusDecision (gateDecisions claim gates) = some d) : d.status = .passed ↔
      ∀ gateId ∈ claim.requiredGateIds, ProvenBy claim (applicableObservations claim gates gateId) := by
  obtain ⟨hmem, hworst⟩ := chooseHighestStatus_spec h
  constructor
  · intro hpassed gateId hrequired
    have hle := hworst _ (List.mem_map_of_mem hrequired)
    rw [hpassed] at hle
    exact decideRequiredGate_passed.mp (STATUS_PRIORITY_eq_zero.mp (Nat.le_zero.mp hle))
  · intro hproven
    obtain ⟨gateId, hrequired, rfl⟩ := List.mem_map.mp hmem
    exact decideRequiredGate_passed.mpr (hproven gateId hrequired)

theorem claimResult_decision {claimId : Text} {decisions : List GateDecision} {coverageComplete : Bool} {d : GateDecision}
    (h : chooseHighestStatus GateDecision.toStatusDecision decisions = some d) :
    (claimResult claimId decisions coverageComplete).toStatusDecision =
      if d.status = .passed ∧ !coverageComplete then selectionUnresolved else d.toStatusDecision := by
  simp only [claimResult, h]
  split <;> rfl

theorem claimResult_claimId {claimId : Text} {decisions : List GateDecision} {coverageComplete : Bool} :
    (claimResult claimId decisions coverageComplete).claimId = claimId := by
  unfold claimResult
  dsimp only
  split
  · rfl
  · split <;> rfl

/-- A claim passes exactly when its required gates are proven and the caller's coverage agrees. -/
theorem aggregateClaim_passed {input : VerificationAggregateInput} {r : VerificationClaimResult}
    (h : aggregateClaim input claim = .ok r) (hvalid : ValidClaim claim) : r.status = .passed ↔
      (∀ gateId ∈ claim.requiredGateIds, ProvenBy claim (applicableObservations claim input.gateResults gateId)) ∧
        ∀ custom ∈ input.isCoverageComplete, custom claim
          ((gateDecisions claim input.gateResults).flatMap GateDecision.observations) = .ok true := by
  simp only [aggregateClaim, bind_eq_ok, pure_eq_ok, Except.ok.injEq] at h
  obtain ⟨coverageComplete, hcoverage, rfl⟩ := h
  obtain ⟨d, hd⟩ := exists_decisive input.gateResults hvalid
  rw [claimResult_decision hd, ← decisive_passed hd]
  by_cases hpassed : d.status = .passed
  · have hdefault := defaultCoverageComplete_of_proven ((decisive_passed hd).mp hpassed)
    have hcustom : coverageComplete = true ↔ ∀ custom ∈ input.isCoverageComplete, custom claim
        ((gateDecisions claim input.gateResults).flatMap GateDecision.observations) = .ok true := by
      unfold isCoverageComplete at hcoverage
      split at hcoverage
      next hnone => simpa [hnone, hdefault, eq_comm] using hcoverage
      next custom hsome =>
        rw [if_pos hdefault] at hcoverage
        simp [hsome, hcoverage]
    rw [← hcustom]
    cases coverageComplete <;> simp [hpassed, selectionUnresolved]
  · simp [hpassed]

/-! ## Default coverage -/

/-- The result of a claim under the default coverage. -/
def defaultClaimResult (gates : List VerificationGateResult) (claim : VerificationClaimDefinition) :
    VerificationClaimResult :=
  claimResult claim.claimId (gateDecisions claim gates)
    (defaultCoverageComplete claim ((gateDecisions claim gates).flatMap GateDecision.observations))

theorem aggregateClaim_default {claims : List VerificationClaimDefinition} :
    aggregateClaim ⟨claims, gates, none⟩ claim = .ok (defaultClaimResult gates claim) := rfl

/-- Under the default coverage the status of a claim is that of its worst gate. -/
theorem defaultClaimResult_decision {d : GateDecision}
    (h : chooseHighestStatus GateDecision.toStatusDecision (gateDecisions claim gates) = some d) :
    (defaultClaimResult gates claim).toStatusDecision = d.toStatusDecision := by
  rw [defaultClaimResult, claimResult_decision h]
  refine if_neg ?_
  rintro ⟨hpassed, hincomplete⟩
  rw [defaultCoverageComplete_of_proven ((decisive_passed h).mp hpassed)] at hincomplete
  cases hincomplete

/-- More observations of the required gates, all of them not passed, do not make the claim better. -/
theorem defaultClaimResult_mono (hvalid : ValidClaim claim)
    (hold : ∀ g ∈ gates, g.gateId ∈ claim.requiredGateIds → observationAppliesToClaim claim g → g ∈ gates')
    (hnew : ∀ g ∈ gates', g.gateId ∈ claim.requiredGateIds → observationAppliesToClaim claim g →
      g ∈ gates ∨ g.status ≠ .passed) :
    STATUS_PRIORITY (defaultClaimResult gates claim).status ≤ STATUS_PRIORITY (defaultClaimResult gates' claim).status := by
  obtain ⟨d, hd⟩ := exists_decisive gates hvalid
  obtain ⟨d', hd'⟩ := exists_decisive gates' hvalid
  rw [defaultClaimResult_decision hd, defaultClaimResult_decision hd']
  refine chooseHighestStatus_mono hd hd' fun decision hdecision => ?_
  obtain ⟨gateId, hrequired, rfl⟩ := List.mem_map.mp hdecision
  refine ⟨_, List.mem_map_of_mem hrequired, decideRequiredGate_mono ?_ ?_⟩
  · intro g hg happlies
    obtain ⟨hmem, rfl⟩ := mem_gateGroup.mp hg
    exact mem_gateGroup.mpr ⟨hold g hmem hrequired happlies, rfl⟩
  · intro g hg happlies
    obtain ⟨hmem, rfl⟩ := mem_gateGroup.mp hg
    exact (hnew g hmem hrequired happlies).imp_left fun h => mem_gateGroup.mpr ⟨h, rfl⟩

/-! ### Rearranged claims -/

/-- A claim that lists its required gates in another order. -/
structure SameClaim (claim claim' : VerificationClaimDefinition) : Prop where
  claimId : claim.claimId = claim'.claimId
  requiredGateIds : claim.requiredGateIds.Perm claim'.requiredGateIds
  owningEnvironments : claim.owningEnvironments = claim'.owningEnvironments

theorem claimResult_congr {claimId : Text} {decisions decisions' : List GateDecision} {coverageComplete : Bool}
    (hdecisions : (decisions.map GateDecision.toStatusDecision).Perm (decisions'.map GateDecision.toStatusDecision))
    (hobservations : ∀ g, g ∈ decisions.flatMap GateDecision.observations ↔
      g ∈ decisions'.flatMap GateDecision.observations) :
    claimResult claimId decisions coverageComplete = claimResult claimId decisions' coverageComplete := by
  have hids : uniqueSorted ((decisions.flatMap GateDecision.observations).map VerificationGateResult.gateId) =
      uniqueSorted ((decisions'.flatMap GateDecision.observations).map VerificationGateResult.gateId) :=
    uniqueSorted_congr fun k => by simp only [List.mem_map, hobservations]
  have hchoice : (chooseHighestStatus GateDecision.toStatusDecision decisions).map GateDecision.toStatusDecision =
      (chooseHighestStatus GateDecision.toStatusDecision decisions').map GateDecision.toStatusDecision := by
    rw [map_chooseHighestStatus, map_chooseHighestStatus, chooseHighestStatus_perm hdecisions]
  rw [claimResult, claimResult, hids]
  cases hd : chooseHighestStatus GateDecision.toStatusDecision decisions with
  | none =>
      rw [hd] at hchoice
      rw [Option.map_eq_none_iff.mp hchoice.symm]
  | some d =>
      rw [hd] at hchoice
      obtain ⟨d', hd', hsame⟩ := Option.map_eq_some_iff.mp hchoice.symm
      simp only [hd', hsame]

theorem defaultClaimResult_perm {claim' : VerificationClaimDefinition} (h : SameClaim claim claim')
    (hgates : gates.Perm gates') : defaultClaimResult gates claim = defaultClaimResult gates' claim' := by
  obtain ⟨claimId, requiredGateIds, owningEnvironments⟩ := claim
  obtain ⟨_, requiredGateIds', _⟩ := claim'
  obtain ⟨rfl, hrequired, rfl⟩ := h
  have hdecisions : ((gateDecisions ⟨claimId, requiredGateIds, owningEnvironments⟩ gates).map
      GateDecision.toStatusDecision).Perm ((gateDecisions ⟨claimId, requiredGateIds', owningEnvironments⟩ gates').map
      GateDecision.toStatusDecision) := by
    rw [gateDecisions, gateDecisions, List.map_map, List.map_map]
    refine (List.Perm.of_eq (List.map_congr_left fun gateId _ => ?_)).trans (hrequired.map _)
    exact decideRequiredGate_perm (hgates.filter _)
  have hobservations : ∀ g, g ∈ (gateDecisions ⟨claimId, requiredGateIds, owningEnvironments⟩ gates).flatMap
      GateDecision.observations ↔ g ∈ (gateDecisions ⟨claimId, requiredGateIds', owningEnvironments⟩ gates').flatMap
      GateDecision.observations := by
    intro g
    rw [mem_observations, mem_observations, hgates.mem_iff]
    exact and_congr_right' (and_congr_left' hrequired.mem_iff)
  have hcoverage : defaultCoverageComplete ⟨claimId, requiredGateIds, owningEnvironments⟩
      ((gateDecisions ⟨claimId, requiredGateIds, owningEnvironments⟩ gates).flatMap GateDecision.observations) =
      defaultCoverageComplete ⟨claimId, requiredGateIds', owningEnvironments⟩
        ((gateDecisions ⟨claimId, requiredGateIds', owningEnvironments⟩ gates').flatMap GateDecision.observations) := by
    rw [Bool.eq_iff_iff]
    simp only [defaultCoverageComplete, List.all_eq_true, List.any_eq_true, hobservations, hrequired.mem_iff]
    rfl
  rw [defaultClaimResult, defaultClaimResult, hcoverage]
  exact claimResult_congr hdecisions hobservations

/-! ## The overall status -/

section Overall

variable {results results' : List VerificationClaimResult}

theorem overallStatus_passed : (aggregateResult results).overallStatus = .passed ↔
    results ≠ [] ∧ ∀ r ∈ results, r.status = .passed := by
  by_cases hnone : results = []
  · subst hnone
    simp [aggregateResult, chooseHighestStatus, selectionUnresolved]
  obtain ⟨d, hd⟩ : ∃ d, chooseHighestStatus VerificationClaimResult.toStatusDecision
      (sortBy VerificationClaimResult.claimId results) = some d :=
    exists_chooseHighestStatus (by rwa [ne_eq, ← List.length_eq_zero_iff, length_sortBy, List.length_eq_zero_iff])
  obtain ⟨hmem, hworst⟩ := chooseHighestStatus_spec hd
  simp only [aggregateResult, hd, Option.map_some, Option.getD_some]
  constructor
  · intro hpassed
    refine ⟨hnone, fun r hr => ?_⟩
    have hle := hworst r (mem_sortBy.mpr hr)
    rw [hpassed] at hle
    exact STATUS_PRIORITY_eq_zero.mp (Nat.le_zero.mp hle)
  · exact fun h => h.2 d (mem_sortBy.mp hmem)

/-- The overall status is not better when no claim is. -/
theorem overallStatus_mono (hlength : results.length = results'.length)
    (h : ∀ r ∈ results, ∃ r' ∈ results', STATUS_PRIORITY r.status ≤ STATUS_PRIORITY r'.status) :
    STATUS_PRIORITY (aggregateResult results).overallStatus ≤ STATUS_PRIORITY (aggregateResult results').overallStatus := by
  have hlength' : (sortBy VerificationClaimResult.claimId results).length =
      (sortBy VerificationClaimResult.claimId results').length := by rw [length_sortBy, length_sortBy, hlength]
  simp only [aggregateResult]
  cases hd : chooseHighestStatus VerificationClaimResult.toStatusDecision (sortBy VerificationClaimResult.claimId results) with
  | none =>
      have hnone := chooseHighestStatus_eq_none.mp hd
      rw [hnone, List.length_nil, eq_comm, List.length_eq_zero_iff] at hlength'
      rw [hlength']
      exact le_rfl
  | some d =>
      obtain ⟨d', hd'⟩ : ∃ d', chooseHighestStatus VerificationClaimResult.toStatusDecision
          (sortBy VerificationClaimResult.claimId results') = some d' := by
        refine exists_chooseHighestStatus fun hnone => ?_
        rw [hnone, List.length_nil, List.length_eq_zero_iff] at hlength'
        rw [hlength'] at hd
        cases hd
      simp only [hd', Option.map_some, Option.getD_some]
      refine chooseHighestStatus_mono hd hd' fun r hr => ?_
      obtain ⟨r', hr', hle⟩ := h r (mem_sortBy.mp hr)
      exact ⟨r', mem_sortBy.mpr hr', hle⟩

/-- The order of the claims does not matter when their ids are different. -/
theorem aggregateResult_perm (h : results.Perm results') (hids : (results.map VerificationClaimResult.claimId).Nodup) :
    aggregateResult results = aggregateResult results' := by
  have hsorted : sortBy VerificationClaimResult.claimId results = sortBy VerificationClaimResult.claimId results' :=
    sortBy_eq_of_perm h fun a ha b hb hab => List.inj_on_of_nodup_map hids ha hb hab
  rw [aggregateResult, aggregateResult, hsorted]

end Overall

end SecPlatform.Assurance
