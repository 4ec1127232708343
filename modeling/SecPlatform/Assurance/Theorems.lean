import SecPlatform.Assurance.Lemmas.AcceptanceCoverage
import SecPlatform.Assurance.Lemmas.AggregateResult
import SecPlatform.Assurance.Lemmas.Claims

/-!
# Theorems of verification results

The aggregate passes exactly when every required gate of every claim is proven. It does not depend on the order
of its input, and observations that did not pass never improve it.
-/

namespace SecPlatform.Assurance

open Contracts

/-! ## Passing -/

/-- Every required gate of the claim is proven, and the caller's coverage, where there is one, agrees. -/
def ProvenClaim (input : VerificationAggregateInput) (claim : VerificationClaimDefinition) : Prop :=
  (∀ gateId ∈ claim.requiredGateIds, ProvenBy claim (applicableObservations claim input.gateResults gateId)) ∧
    ∀ custom ∈ input.isCoverageComplete, custom claim
      ((gateDecisions claim input.gateResults).flatMap GateDecision.observations) = .ok true

/-- What a run of the aggregate has done. -/
theorem aggregateVerificationClaims_eq_ok {input : VerificationAggregateInput} {result : VerificationAggregateResult}
    (h : aggregateVerificationClaims input = .ok result) : Admitted input ∧
      ∃ claimResults, input.claims.mapM (aggregateClaim input) = .ok claimResults ∧
        result = aggregateResult claimResults := by
  obtain ⟨hadmitted, h⟩ := check_bind_eq_ok.mp h
  obtain ⟨claimResults, hresults, h⟩ := bind_eq_ok.mp h
  exact ⟨assertVerificationAggregateInput_eq_ok.mp hadmitted, claimResults, hresults, (Except.ok.inj h).symm⟩

theorem aggregateVerificationClaims_passed {input : VerificationAggregateInput} {result : VerificationAggregateResult}
    (h : aggregateVerificationClaims input = .ok result) :
    result.overallStatus = .passed ↔ input.claims ≠ [] ∧ ∀ claim ∈ input.claims, ProvenClaim input claim := by
  obtain ⟨hadmitted, claimResults, hresults, rfl⟩ := aggregateVerificationClaims_eq_ok h
  have hlength := (mapM_eq_ok.mp hresults).length_eq
  rw [overallStatus_passed]
  refine and_congr ?_ ⟨fun hpassed claim hclaim => ?_, fun hproven r hr => ?_⟩
  · rw [← List.length_pos_iff_ne_nil, ← List.length_pos_iff_ne_nil, hlength]
  · obtain ⟨r, hr, hclaimed⟩ := exists_ok_of_mem_mapM hresults hclaim
    exact (aggregateClaim_passed hclaimed (hadmitted.claims claim hclaim)).mp (hpassed r hr)
  · obtain ⟨claim, hclaim, hclaimed⟩ := exists_of_mem_mapM hresults hr
    exact (aggregateClaim_passed hclaimed (hadmitted.claims claim hclaim)).mpr (hproven claim hclaim)

/-! ### A claim of two environments -/

def sampleEnvironment (os : Text) : VerificationGateEnvironment := ⟨"bun", os, "x64", none, [], "1", []⟩

def sampleExecution : VerificationGateExecution where
  argv := ["run"]
  startedAt := "2024-01-01T00:00:00.000Z"
  finishedAt := "2024-01-01T00:00:01.000Z"
  durationMs := .ofNat 1000
  exitCode := some (.ofNat 0)
  outputDigest := Text.ofString "sha256:" ++ List.replicate 64 (unit '1')
  failureFingerprint := none

def sampleGate (os : Text) : VerificationGateResult where
  schema := VERIFICATION_GATE_RESULT_SCHEMA
  gateId := "g"
  gateRevision := "1"
  owner := "o"
  requirementKey := "k"
  subjectRevision := "s"
  inputDigest := Text.ofString "sha256:" ++ List.replicate 64 (unit '1')
  applicability := .required
  status := .passed
  disposition := .executed
  reasonCode := .executedSuccess
  requiredForClaims := ["c"]
  supportedClaims := ["c"]
  environment := some (sampleEnvironment os)
  execution := some sampleExecution
  evidenceRefs := []
  invalidationRules := []
  diagnostic := none

def sampleClaim : VerificationClaimDefinition := ⟨"c", ["g"], ["a-x64", "b-x64"]⟩

def sampleInput : VerificationAggregateInput := ⟨[sampleClaim], [sampleGate "a", sampleGate "b"], none⟩

def sampleResult : VerificationAggregateResult :=
  ⟨.passed, .executedSuccess, [⟨⟨.passed, .executedSuccess⟩, "c", ["g"], true⟩]⟩

theorem aggregateVerificationClaims_passed_sample : ProvenClaim sampleInput sampleClaim := by
  have hrun : aggregateVerificationClaims sampleInput = .ok sampleResult := by decide +kernel
  exact ((aggregateVerificationClaims_passed hrun).mp rfl).2 sampleClaim List.mem_cons_self

/-! ## Order and monotonicity -/

/-- The same claims, gate results and required gates in another order. -/
structure Rearranged (claims claims' : List VerificationClaimDefinition) (gates gates' : List VerificationGateResult) :
    Prop where
  claims : ∃ middle, List.Forall₂ SameClaim claims middle ∧ middle.Perm claims'
  gates : gates.Perm gates'

/-- An observation that counts for a claim: the claim asks for its gate and owns its environment. -/
def Owns (claim : VerificationClaimDefinition) (gate : VerificationGateResult) : Prop :=
  gate.gateId ∈ claim.requiredGateIds ∧ observationAppliesToClaim claim gate

/-- What the aggregate of these claims and gate results promises under the default coverage. -/
structure AggregateLaws (claims : List VerificationClaimDefinition) (gates : List VerificationGateResult)
    (result : VerificationAggregateResult) : Prop where
  everyClaim : (result.claimResults.map VerificationClaimResult.claimId).Perm
    (claims.map VerificationClaimDefinition.claimId)
  rearranged : ∀ claims' gates', Rearranged claims claims' gates gates' →
    aggregateVerificationClaims ⟨claims', gates', none⟩ = .ok result
  notOwned : ∀ gate gates' result', gates'.Perm (gate :: gates) →
    aggregateVerificationClaims ⟨claims, gates', none⟩ = .ok result' → ∀ claim ∈ claims, ¬Owns claim gate →
      ∀ r ∈ result.claimResults, ∀ r' ∈ result'.claimResults, r.claimId = claim.claimId → r'.claimId = claim.claimId →
        r'.status = r.status
  notPassed : ∀ gate gates' result', gates'.Perm (gate :: gates) → gate.status ≠ .passed →
    aggregateVerificationClaims ⟨claims, gates', none⟩ = .ok result' →
      (∀ r ∈ result.claimResults, ∀ r' ∈ result'.claimResults, r.claimId = r'.claimId →
        STATUS_PRIORITY r.status ≤ STATUS_PRIORITY r'.status) ∧
      STATUS_PRIORITY result.overallStatus ≤ STATUS_PRIORITY result'.overallStatus

section Laws

variable {claims claims' : List VerificationClaimDefinition} {gates gates' : List VerificationGateResult}
  {result : VerificationAggregateResult}

theorem aggregateVerificationClaims_default :
    aggregateVerificationClaims ⟨claims, gates, none⟩ = .ok result ↔
      Admitted ⟨claims, gates, none⟩ ∧ result = aggregateResult (claims.map (defaultClaimResult gates)) := by
  have hmap : claims.mapM (aggregateClaim ⟨claims, gates, none⟩) = .ok (claims.map (defaultClaimResult gates)) :=
    mapM_eq_ok.mpr (List.forall₂_map_right_iff.mpr (List.forall₂_same.mpr fun _ _ => aggregateClaim_default))
  rw [aggregateVerificationClaims, check_bind_eq_ok, assertVerificationAggregateInput_eq_ok]
  refine and_congr_right' ?_
  rw [show (VerificationAggregateInput.mk claims gates none).claims = claims from rfl, hmap]
  exact ⟨fun h => (Except.ok.inj h).symm, fun h => congrArg Except.ok h.symm⟩

theorem mem_claimResults {r : VerificationClaimResult} :
    r ∈ (aggregateResult (claims.map (defaultClaimResult gates))).claimResults ↔
      ∃ claim ∈ claims, defaultClaimResult gates claim = r := by simp [aggregateResult]

theorem defaultClaimResult_claimId {claim : VerificationClaimDefinition} :
    (defaultClaimResult gates claim).claimId = claim.claimId := claimResult_claimId

/-- The claims with an id are one. -/
theorem Admitted.eq_of_claimId {input : VerificationAggregateInput} (h : Admitted input)
    {claim claim' : VerificationClaimDefinition} (hclaim : claim ∈ input.claims) (hclaim' : claim' ∈ input.claims)
    (hid : claim.claimId = claim'.claimId) : claim = claim' := List.inj_on_of_nodup_map h.claimIds hclaim hclaim' hid

/-! ### Rearranged input -/

theorem SameClaim.valid {claim claim' : VerificationClaimDefinition} (h : SameClaim claim claim')
    (hvalid : ValidClaim claim) : ValidClaim claim' where
  claimId := h.claimId ▸ hvalid.claimId
  requiredGateIds := hvalid.requiredGateIds.perm h.requiredGateIds
  owningEnvironments := h.owningEnvironments ▸ hvalid.owningEnvironments
  hasGates := fun hnone => hvalid.hasGates (hnone ▸ h.requiredGateIds).eq_nil
  hasEnvironments := h.owningEnvironments ▸ hvalid.hasEnvironments

theorem Rearranged.exists_same (h : Rearranged claims claims' gates gates') {claim' : VerificationClaimDefinition}
    (hclaim' : claim' ∈ claims') : ∃ claim ∈ claims, SameClaim claim claim' := by
  obtain ⟨middle, hsame, hperm⟩ := h.claims
  have hmem := hperm.mem_iff.mpr hclaim'
  obtain ⟨i, hi, rfl⟩ := List.mem_iff_getElem.mp hmem
  have hi' : i < claims.length := hsame.length_eq ▸ hi
  exact ⟨claims[i], List.getElem_mem hi', hsame.get hi' hi⟩

theorem Rearranged.admitted (h : Rearranged claims claims' gates gates') (hadmitted : Admitted ⟨claims, gates, none⟩) :
    Admitted ⟨claims', gates', none⟩ where
  claims := fun claim' hclaim' => by
    obtain ⟨claim, hclaim, hsame⟩ := h.exists_same hclaim'
    exact hsame.valid (hadmitted.claims claim hclaim)
  claimIds := by
    obtain ⟨middle, hsame, hperm⟩ := h.claims
    have hids : claims.map VerificationClaimDefinition.claimId = middle.map VerificationClaimDefinition.claimId := by
      rw [← List.forall₂_eq_eq_eq, List.forall₂_map_left_iff, List.forall₂_map_right_iff]
      exact hsame.imp fun _ _ h => h.claimId
    have hnodup := hadmitted.claimIds
    exact (hperm.map _).nodup_iff.mp (hids ▸ hnodup)
  gates := fun gate hgate => hadmitted.gates gate (h.gates.mem_iff.mpr hgate)
  observations := (h.gates.map _).nodup_iff.mp hadmitted.observations
  planned := fun gate hgate claim' hclaim' hrequired => by
    obtain ⟨claim, hclaim, hsame⟩ := h.exists_same hclaim'
    exact hsame.requiredGateIds.mem_iff.mp
      (hadmitted.planned gate (h.gates.mem_iff.mpr hgate) claim hclaim (hsame.claimId ▸ hrequired))
  required := fun claim' hclaim' gate hgate hrequired => by
    obtain ⟨claim, hclaim, hsame⟩ := h.exists_same hclaim'
    exact hsame.claimId ▸ hadmitted.required claim hclaim gate (h.gates.mem_iff.mpr hgate)
      (hsame.requiredGateIds.mem_iff.mpr hrequired)
  supported := fun claim' hclaim' gate hgate hrequired hpassed => by
    obtain ⟨claim, hclaim, hsame⟩ := h.exists_same hclaim'
    exact hsame.claimId ▸ hadmitted.supported claim hclaim gate (h.gates.mem_iff.mpr hgate)
      (hsame.requiredGateIds.mem_iff.mpr hrequired) hpassed

theorem claimIds_nodup (h : Admitted ⟨claims, gates, none⟩) :
    ((claims.map (defaultClaimResult gates)).map VerificationClaimResult.claimId).Nodup := by
  have hids := h.claimIds
  rwa [List.map_map, show VerificationClaimResult.claimId ∘ defaultClaimResult gates =
    VerificationClaimDefinition.claimId from funext fun _ => defaultClaimResult_claimId]

theorem Rearranged.results (h : Rearranged claims claims' gates gates') :
    (claims.map (defaultClaimResult gates)).Perm (claims'.map (defaultClaimResult gates')) := by
  obtain ⟨middle, hsame, hperm⟩ := h.claims
  have hmiddle : claims.map (defaultClaimResult gates) = middle.map (defaultClaimResult gates') := by
    rw [← List.forall₂_eq_eq_eq, List.forall₂_map_left_iff, List.forall₂_map_right_iff]
    exact hsame.imp fun _ _ hclaim => defaultClaimResult_perm hclaim h.gates
  rw [hmiddle]
  exact hperm.map _

/-! ### More observations -/

/-- The status of a claim that does not own a new observation stays. -/
theorem status_of_notOwned {gate : VerificationGateResult} (hperm : gates'.Perm (gate :: gates))
    {claim : VerificationClaimDefinition} (hvalid : ValidClaim claim) (hnot : ¬Owns claim gate) :
    (defaultClaimResult gates' claim).status = (defaultClaimResult gates claim).status := by
  have hold : ∀ g ∈ gates, g ∈ gates' := fun g hg => hperm.mem_iff.mpr (List.mem_cons_of_mem _ hg)
  have hnew : ∀ g ∈ gates', g.gateId ∈ claim.requiredGateIds → observationAppliesToClaim claim g → g ∈ gates := by
    intro g hg hrequired happlies
    rcases List.mem_cons.mp (hperm.mem_iff.mp hg) with rfl | hg
    · exact absurd ⟨hrequired, happlies⟩ hnot
    · exact hg
  refine STATUS_PRIORITY_injective (le_antisymm ?_ ?_)
  · exact defaultClaimResult_mono hvalid hnew fun g hg _ _ => .inl (hold g hg)
  · exact defaultClaimResult_mono hvalid (fun g hg _ _ => hold g hg) fun g hg hrequired happlies =>
      .inl (hnew g hg hrequired happlies)

/-- A new observation that did not pass does not make a claim better. -/
theorem status_of_notPassed {gate : VerificationGateResult} (hperm : gates'.Perm (gate :: gates))
    {claim : VerificationClaimDefinition} (hvalid : ValidClaim claim) (hgate : gate.status ≠ .passed) :
    STATUS_PRIORITY (defaultClaimResult gates claim).status ≤
      STATUS_PRIORITY (defaultClaimResult gates' claim).status := by
  refine defaultClaimResult_mono hvalid (fun g hg _ _ => hperm.mem_iff.mpr (List.mem_cons_of_mem _ hg)) ?_
  intro g hg _ _
  rcases List.mem_cons.mp (hperm.mem_iff.mp hg) with rfl | hg
  · exact .inr hgate
  · exact .inl hg

/-! ### The laws -/

theorem aggregateVerificationClaims_lawful (h : aggregateVerificationClaims ⟨claims, gates, none⟩ = .ok result) :
    AggregateLaws claims gates result := by
  obtain ⟨hadmitted, rfl⟩ := aggregateVerificationClaims_default.mp h
  constructor
  case everyClaim =>
    have hids : claims.map VerificationClaimDefinition.claimId =
        (claims.map (defaultClaimResult gates)).map VerificationClaimResult.claimId := by
      rw [List.map_map]
      exact List.map_congr_left fun claim _ => defaultClaimResult_claimId.symm
    rw [hids]
    exact (sortBy_perm _).map _
  case rearranged =>
    intro claims' gates' hrearranged
    refine aggregateVerificationClaims_default.mpr ⟨hrearranged.admitted hadmitted, ?_⟩
    exact aggregateResult_perm hrearranged.results (claimIds_nodup hadmitted)
  case notOwned =>
    intro gate gates' result' hperm h' claim hclaim hnot r hr r' hr' hid hid'
    obtain ⟨-, rfl⟩ := aggregateVerificationClaims_default.mp h'
    obtain ⟨c, hc, rfl⟩ := mem_claimResults.mp hr
    obtain ⟨c', hc', rfl⟩ := mem_claimResults.mp hr'
    rw [defaultClaimResult_claimId] at hid hid'
    obtain rfl := hadmitted.eq_of_claimId hc hclaim hid
    obtain rfl := hadmitted.eq_of_claimId hc' hclaim hid'
    exact status_of_notOwned hperm (hadmitted.claims _ hclaim) hnot
  case notPassed =>
    intro gate gates' result' hperm hgate h'
    obtain ⟨-, rfl⟩ := aggregateVerificationClaims_default.mp h'
    have hclaims : ∀ claim ∈ claims, STATUS_PRIORITY (defaultClaimResult gates claim).status ≤
        STATUS_PRIORITY (defaultClaimResult gates' claim).status := fun claim hclaim =>
      status_of_notPassed hperm (hadmitted.claims claim hclaim) hgate
    constructor
    · intro r hr r' hr' hid
      obtain ⟨c, hc, rfl⟩ := mem_claimResults.mp hr
      obtain ⟨c', hc', rfl⟩ := mem_claimResults.mp hr'
      rw [defaultClaimResult_claimId, defaultClaimResult_claimId] at hid
      obtain rfl := hadmitted.eq_of_claimId hc hc' hid
      exact hclaims c hc
    · refine overallStatus_mono (by simp) fun r hr => ?_
      obtain ⟨claim, hclaim, rfl⟩ := List.mem_map.mp hr
      exact ⟨_, List.mem_map_of_mem hclaim, hclaims claim hclaim⟩

end Laws

theorem aggregateVerificationClaims_lawful_sample :
    AggregateLaws [sampleClaim] [sampleGate "a", sampleGate "b"] sampleResult :=
  aggregateVerificationClaims_lawful (by decide +kernel)

/-!
## A serialized aggregate is the writer's output

The check of a serialized aggregate reads it field by field and calls the writer at the end. It accepts what the writer
returns and nothing else.
-/

open VerificationAction (SameData)

variable {value : Value} {input : VerificationAggregateInput}

/-- The field checks let the data of every aggregate through. -/
theorem assertVerificationAggregateResult_of_same {result : VerificationAggregateResult} (hunique : value.UniqueKeys)
    (hresult : aggregateVerificationClaims input = .ok result) (hsame : SameData value result.toValue) :
    assertVerificationAggregateResult value input = .ok () := by
  obtain ⟨hadmitted, -⟩ := check_bind_eq_ok.mp hresult
  obtain ⟨hvalid, hids, hoverall⟩ :=
    aggregateVerificationClaims_valid (assertVerificationAggregateInput_eq_ok.mp hadmitted) hresult
  have hplain := plain_aggregateResult hunique hsame resultLabel
  have hequal := (snapshotsEqual_iff value result.toValue hunique).mpr hsame
  obtain ⟨ms, rfl, hkeys, hfields⟩ := sameData_record hunique hsame
  simp only [List.forall_mem_cons] at hfields
  obtain ⟨hstatus, hreason, hclaims, -⟩ := hfields
  obtain ⟨entries, hentries, hresults⟩ := sameData_arr hclaims
  rw [List.forall₂_map_right_iff] at hresults
  have hentriesUnique : ∀ entry ∈ entries, entry.UniqueKeys := by
    have hclaimResults : Text.ofString "claimResults" ∈ ms.map Prod.fst := hkeys.mem_iff.mpr (by simp)
    obtain ⟨m, hm, hkey⟩ := List.mem_map.mp hclaimResults
    have hvalue : field ms m.1 = m.2 := VerificationAction.member_of_mem hunique.1 hm
    have hunique' := Json.uniqueKeysMembers_iff.mp hunique.2 m hm
    rw [← hvalue, hkey, hentries] at hunique'
    exact Json.uniqueKeysItems_iff.mp hunique'
  rw [assertVerificationAggregateResult]
  refine check_bind_eq_ok.mpr ⟨hplain, bind_eq_ok.mpr ⟨ms, rfl, check_bind_eq_ok.mpr
    ⟨assertExactKeys_of_perm hkeys, bind_eq_ok.mpr ⟨⟨result.overallStatus, result.overallReasonCode⟩, ?_, ?_⟩⟩⟩⟩
  · rw [sameData_str hstatus, sameData_str hreason]
    exact assertStatusReasonValue_toText hoverall
  refine bind_eq_ok.mpr ⟨entries, assertArray_arr hentries, bind_eq_ok.mpr ⟨result.claimResults,
    assertClaimResults_of_same hvalid hids hentriesUnique hresults, check_bind_eq_ok.mpr ⟨hadmitted,
      check_bind_eq_ok.mpr ⟨?_, bind_eq_ok.mpr ⟨result, hresult, require_eq_ok.mpr hequal⟩⟩⟩⟩⟩
  refine forM_eq_ok.mpr fun entry hentry => forM_eq_ok.mpr fun gateId hgateId => require_eq_ok.mpr ?_
  have hmem : entry.1 ∈ result.claimResults := List.fst_mem_of_mem_zipIdx hentry
  exact (hvalid entry.1 hmem).known gateId hgateId

/-- A value passes for the aggregate of an input exactly when the writer returns a result for that input and the value
holds the data of this result. The order in which an object lists its members is no data. -/
theorem assertVerificationAggregateResult_iff (hunique : value.UniqueKeys) :
    assertVerificationAggregateResult value input = .ok () ↔
      ∃ result, aggregateVerificationClaims input = .ok result ∧ SameData value result.toValue := by
  constructor
  · intro h
    rw [assertVerificationAggregateResult] at h
    obtain ⟨-, h⟩ := check_bind_eq_ok.mp h
    obtain ⟨members, -, h⟩ := bind_eq_ok.mp h
    obtain ⟨-, h⟩ := check_bind_eq_ok.mp h
    obtain ⟨_, -, h⟩ := bind_eq_ok.mp h
    obtain ⟨entries, -, h⟩ := bind_eq_ok.mp h
    obtain ⟨claimResults, -, h⟩ := bind_eq_ok.mp h
    obtain ⟨-, h⟩ := check_bind_eq_ok.mp h
    obtain ⟨-, h⟩ := check_bind_eq_ok.mp h
    obtain ⟨result, hresult, h⟩ := bind_eq_ok.mp h
    exact ⟨result, hresult, (snapshotsEqual_iff value result.toValue hunique).mp (require_eq_ok.mp h)⟩
  · rintro ⟨result, hresult, hsame⟩
    exact assertVerificationAggregateResult_of_same hunique hresult hsame

/-- The data of the result with the members of both records in another order. -/
def rearrangedSample : Value := .obj [
  ("claimResults", .arr [.obj [("status", .str "passed"), ("claimId", .str "c"), ("coverageComplete", .bool true),
    ("contributingGateIds", .arr [.str "g"]), ("reasonCode", .str "executed-success")]]),
  ("overallStatus", .str "passed"),
  ("overallReasonCode", .str "executed-success")]

theorem assertVerificationAggregateResult_iff_sample :
    assertVerificationAggregateResult rearrangedSample sampleInput = .ok () ∧
      ∃ result, aggregateVerificationClaims sampleInput = .ok result ∧ SameData rearrangedSample result.toValue := by
  have hunique : rearrangedSample.UniqueKeys := by
    refine ⟨by decide, ?_, trivial, trivial, trivial⟩
    exact ⟨⟨by decide, trivial, trivial, trivial, ⟨trivial, trivial⟩, trivial, trivial⟩, trivial⟩
  have hchecked : assertVerificationAggregateResult rearrangedSample sampleInput = .ok () := by decide +kernel
  exact ⟨hchecked, (assertVerificationAggregateResult_iff hunique).mp hchecked⟩

end SecPlatform.Assurance

/-!
## Theorems of acceptance coverage

A report exists only for closed acyclic declarations, and a block is covered by exactly those of its items that were
accepted together with everything they depend on. The order of the declarations does not matter.
-/

namespace SecPlatform.Assurance

open Contracts Semantics

section Coverage

variable {source source' : AcceptanceCoverageSource} {accepted passed : List Text}

/-! ### The order of the declarations -/

/-- Two sources that differ in the order of their declarations. -/
structure Reordered (source source' : AcceptanceCoverageSource) : Prop where
  resolvedBlockIds : source'.resolvedBlockIds = source.resolvedBlockIds
  acceptancePlan : source'.acceptancePlan = source.acceptancePlan
  declarations : source'.declarations.Perm source.declarations
  tests : source'.tests = source.tests

namespace Reordered

variable (h : Reordered source source')

include h

theorem exists_declaration {P : AcceptanceSource → Prop} :
    (∃ declaration ∈ source'.declarations, P declaration) ↔ ∃ declaration ∈ source.declarations, P declaration :=
  exists_congr fun _ => and_congr_left fun _ => h.declarations.mem_iff

theorem dependsOn_eq : DependsOn source' = DependsOn source := by
  funext id dependency
  exact propext h.exists_declaration

theorem declaredFor_iff {blockId id : Text} : DeclaredFor source' blockId id ↔ DeclaredFor source blockId id :=
  h.exists_declaration

theorem isClosed_iff : IsClosed source' ↔ IsClosed source := by
  unfold IsClosed
  rw [h.dependsOn_eq]
  exact forall₃_congr fun _ _ _ => h.exists_declaration

theorem isAcyclic_iff : IsAcyclic source' ↔ IsAcyclic source := by
  unfold IsAcyclic
  rw [h.dependsOn_eq]

theorem isKnown_iff : IsKnown source' ↔ IsKnown source := by
  simp only [IsKnown, h.declaredFor_iff, h.resolvedBlockIds]

theorem isPlanned_iff : IsPlanned source' ↔ IsPlanned source := by
  simp only [IsPlanned, h.declaredFor_iff, h.acceptancePlan]

theorem testOf_iff {id path : Text} : TestOf source' id path ↔ TestOf source id path := h.exists_declaration

theorem provenIds_eq : provenIds source' passed = provenIds source passed := by
  have hproven : IsProven source' passed = IsProven source passed := by
    funext id
    simp only [IsProven, h.testOf_iff, LacksSource, h.tests, h.exists_declaration]
  rw [provenIds, provenIds, h.acceptancePlan]
  refine uniqueSorted_congr fun id => ?_
  simp only [List.mem_filter, decide_eq_true_eq, hproven]

theorem entryOf_eq : entryOf source' accepted = entryOf source accepted := by
  funext blockId
  have hdeclared : (indexOf source').declaredAcceptance blockId = (indexOf source).declaredAcceptance blockId := by
    refine uniqueSorted_congr fun id => ?_
    rw [mem_byBlock, mem_byBlock, h.declaredFor_iff]
  have hbelow : AcceptedBelow source' accepted = AcceptedBelow source accepted := by
    funext id
    rw [AcceptedBelow, h.dependsOn_eq]
    rfl
  rw [entryOf, entryOf, hdeclared]
  refine congrArg (buildCoverageEntry blockId _) (List.filter_congr fun id _ => ?_)
  rw [decide_eq_decide, hbelow]

theorem reportOf_eq (status : LaneStatus) :
    reportOf source' status accepted = { reportOf source status accepted with source := source' } := by
  rw [reportOf, reportOf, h.entryOf_eq, h.resolvedBlockIds]

variable [UnicodeText] {fast : FastVerificationLaneReport} {runtime : RuntimeVerificationLaneReport}
  {report : AcceptanceCoverageReport}

/-- The computation gives the same report for the declarations in another order. -/
theorem computeAcceptanceCoverage_eq_ok (hreport : computeAcceptanceCoverage source fast runtime = .ok report) :
    computeAcceptanceCoverage source' fast runtime = .ok { report with source := source' } := by
  obtain ⟨hknown, hclosed, hacyclic, hplanned, passed, hreports, hcanonical, rfl⟩ :=
    Assurance.computeAcceptanceCoverage_eq_ok.mp hreport
  refine Assurance.computeAcceptanceCoverage_eq_ok.mpr ⟨h.isKnown_iff.mpr hknown, h.isClosed_iff.mpr hclosed,
    h.isAcyclic_iff.mpr hacyclic, h.isPlanned_iff.mpr hplanned, passed, hreports, fun id path htest => ?_, ?_⟩
  · exact hcanonical id path (h.testOf_iff.mp htest)
  · rw [h.provenIds_eq, h.reportOf_eq]

end Reordered

/-! ### Entries -/

theorem uncovered_buildCoverageEntry {id : Text} {declared : List Text} {p : Text → Bool} (h : declared.Nodup) :
    (buildCoverageEntry id declared (declared.filter p)).uncovered = true ↔
      declared = [] ∨ ∃ a ∈ declared, p a = false := by
  have hlength : (declared.filter p).length = declared.length ↔ ∀ a ∈ declared, p a = true := List.length_filter_eq_length_iff
  rw [buildCoverageEntry, Bool.or_eq_true, decide_eq_true_eq, decide_eq_true_eq, length_uniqueSorted h,
    length_uniqueSorted (h.filter p), List.length_eq_zero_iff, ne_eq, hlength]
  simp

theorem mem_coveredBy_entryOf {blockId id : Text} :
    id ∈ (entryOf source accepted blockId).coveredBy ↔ DeclaredFor source blockId id ∧ AcceptedBelow source accepted id := by
  simp only [entryOf, buildCoverageEntry, mem_uniqueSorted, List.mem_filter, mem_declaredAcceptance, decide_eq_true_eq]

theorem uncovered_entryOf {blockId : Text} : (entryOf source accepted blockId).uncovered = true ↔
    (∀ id, ¬DeclaredFor source blockId id) ∨ ∃ id, DeclaredFor source blockId id ∧ ¬AcceptedBelow source accepted id := by
  have hnodup : ((indexOf source).declaredAcceptance blockId).Nodup := nodup_uniqueSorted _
  rw [entryOf, uncovered_buildCoverageEntry hnodup, List.eq_nil_iff_forall_not_mem]
  simp only [mem_declaredAcceptance, decide_eq_false_iff_not]

/-! ### The report -/

/-- The coverage of the blocks by what the declarations say and what was accepted. -/
structure IsCoverage (source : AcceptanceCoverageSource) (report : AcceptanceCoverageReport) : Prop where
  closed : IsClosed source
  acyclic : IsAcyclic source
  blocks : ∀ blockId, (∃ entry ∈ report.blocks, entry.id = blockId) ↔ blockId ∈ source.resolvedBlockIds
  coveredBy : ∀ entry ∈ report.blocks, ∀ id,
    id ∈ entry.coveredBy ↔ DeclaredFor source entry.id id ∧ AcceptedBelow source report.acceptancePassed id
  uncovered : ∀ entry ∈ report.blocks, entry.uncovered = true ↔ (∀ id, ¬DeclaredFor source entry.id id) ∨
    ∃ id, DeclaredFor source entry.id id ∧ ¬AcceptedBelow source report.acceptancePassed id

theorem mem_blocks_reportOf {status : LaneStatus} {entry : AcceptanceCoverageEntry} :
    entry ∈ (reportOf source status accepted).blocks ↔
      ∃ blockId ∈ source.resolvedBlockIds, entryOf source accepted blockId = entry := by
  rw [reportOf, mem_sortBy, List.mem_map]

variable [UnicodeText] {fast : FastVerificationLaneReport} {runtime : RuntimeVerificationLaneReport}
  {report : AcceptanceCoverageReport}

theorem computeAcceptanceCoverage_isCoverage (h : computeAcceptanceCoverage source fast runtime = .ok report) :
    IsCoverage source report := by
  obtain ⟨-, hclosed, hacyclic, -, passed, -, -, rfl⟩ := computeAcceptanceCoverage_eq_ok.mp h
  refine ⟨hclosed, hacyclic, fun blockId => ⟨?_, fun hblock => ?_⟩, ?_, ?_⟩
  · rintro ⟨entry, hentry, rfl⟩
    obtain ⟨blockId, hblock, rfl⟩ := mem_blocks_reportOf.mp hentry
    exact hblock
  · exact ⟨_, mem_blocks_reportOf.mpr ⟨blockId, hblock, rfl⟩, rfl⟩
  · rintro entry hentry id
    obtain ⟨blockId, -, rfl⟩ := mem_blocks_reportOf.mp hentry
    exact mem_coveredBy_entryOf
  · rintro entry hentry
    obtain ⟨blockId, -, rfl⟩ := mem_blocks_reportOf.mp hentry
    exact uncovered_entryOf

theorem computeAcceptanceCoverage_of_build (h : buildAcceptanceCoverageFromSource source fast runtime = .ok report) :
    computeAcceptanceCoverage source fast runtime = .ok report := by
  obtain ⟨-, h⟩ := check_bind_eq_ok.mp h
  obtain ⟨_, hreport, h⟩ := bind_eq_ok.mp h
  obtain ⟨-, h⟩ := check_bind_eq_ok.mp h
  cases h
  exact hreport

theorem buildAcceptanceCoverageFromSource_eq_error {failure : AcceptanceCoverageFailure}
    (hvalid : validateAcceptanceCoverageSource source = .ok ())
    (h : computeAcceptanceCoverage source fast runtime = .error failure) :
    buildAcceptanceCoverageFromSource source fast runtime = .error failure := by
  rw [buildAcceptanceCoverageFromSource, hvalid]
  change (computeAcceptanceCoverage source fast runtime >>= _) = _
  rw [h, error_bind]

theorem computeAcceptanceCoverage_error_of_build {failure : AcceptanceCoverageFailure}
    (hvalid : validateAcceptanceCoverageSource source = .ok ())
    (h : buildAcceptanceCoverageFromSource source fast runtime = .error failure) :
    computeAcceptanceCoverage source fast runtime = .error failure ∨ ∃ message, failure = .invalid message := by
  rw [buildAcceptanceCoverageFromSource, hvalid] at h
  rcases bind_eq_error.mp h with h | ⟨_, -, h⟩
  · cases h
  · rcases bind_eq_error.mp h with h | ⟨_, -, h⟩
    · exact .inl h
    · rcases bind_eq_error.mp h with h | ⟨_, -, h⟩
      · obtain ⟨message, -, rfl⟩ := mapError_eq_error.mp h
        exact .inr ⟨message, rfl⟩
      · cases h

/-- The errors about dependencies are thrown for the sources that deserve them. -/
theorem dependency_errors (hvalid : validateAcceptanceCoverageSource source = .ok ()) :
    ((∃ id dependency, buildAcceptanceCoverageFromSource source fast runtime = .error (.undeclaredDependency id dependency)) ↔
      ¬IsClosed source) ∧
    ((∃ cycle, buildAcceptanceCoverageFromSource source fast runtime = .error (.dependencyCycle cycle)) ↔
      IsClosed source ∧ ¬IsAcyclic source) := by
  have hknown := isKnown_of_validate hvalid
  constructor
  · constructor
    · rintro ⟨id, dependency, h⟩
      have hcompute := (computeAcceptanceCoverage_error_of_build hvalid h).resolve_right nofun
      rcases computeAcceptanceCoverage_eq_error hknown hcompute with h | h | h
      · exact h.1
      · obtain ⟨-, -, cycle, h⟩ := h
        cases h
      · exact absurd rfl (h.2.2.1 id dependency)
    · intro hclosed
      cases hcompute : computeAcceptanceCoverage source fast runtime with
      | ok report => exact absurd (computeAcceptanceCoverage_eq_ok.mp hcompute).2.1 hclosed
      | error failure =>
          rcases computeAcceptanceCoverage_eq_error hknown hcompute with h | h | h
          · obtain ⟨-, id, dependency, rfl⟩ := h
            exact ⟨id, dependency, buildAcceptanceCoverageFromSource_eq_error hvalid hcompute⟩
          · exact absurd h.1 hclosed
          · exact absurd h.1 hclosed
  · constructor
    · rintro ⟨cycle, h⟩
      have hcompute := (computeAcceptanceCoverage_error_of_build hvalid h).resolve_right nofun
      rcases computeAcceptanceCoverage_eq_error hknown hcompute with h | h | h
      · obtain ⟨-, _, _, h⟩ := h
        cases h
      · exact ⟨h.1, h.2.1⟩
      · exact absurd rfl (h.2.2.2 cycle)
    · rintro ⟨hclosed, hacyclic⟩
      cases hcompute : computeAcceptanceCoverage source fast runtime with
      | ok report => exact absurd (computeAcceptanceCoverage_eq_ok.mp hcompute).2.2.1 hacyclic
      | error failure =>
          rcases computeAcceptanceCoverage_eq_error hknown hcompute with h | h | h
          · exact absurd hclosed h.1
          · obtain ⟨-, -, cycle, rfl⟩ := h
            exact ⟨cycle, buildAcceptanceCoverageFromSource_eq_error hvalid hcompute⟩
          · exact absurd h.2.1 hacyclic

end Coverage

end SecPlatform.Assurance
