import Mathlib.Logic.Relation
import SecPlatform.Compiler.SemanticImpact.Traversal

/-!
# Impact propagation

The impact of a delta: its seeds, the entities that the traversal reaches directly or in more steps, the
verification that the reached entities ask for, and what stays uncertain.
-/

namespace SecPlatform.Compiler.SemanticImpact

open Contracts Semantics IR

def IMPACT_CONTRACT_VERSION : Text := "1"
def IMPACT_SCOPE : Text := "fact-delta+validated-graph"
def IMPACT_PROPAGATION_RULE_REVISION : Text := "impact-propagation-rules-v1"

/-! ## Input -/

def contextBase (context : FactDeltaEndpointContext) : Value := .obj [
  ("transactionId", .str context.transactionId),
  ("inputRevision", .str context.inputRevision),
  ("semanticRevision", .str context.semanticRevision)]

def assertInputBinding (delta : FactDelta) (before after : FactDeltaEndpointContext) : Except CodedFailure Unit :=
  let fromIR := before.snapshot.ir
  let toIR := after.snapshot.ir
  if delta.formatVersion = fromIR.formatVersion ∧ delta.formatVersion = toIR.formatVersion ∧
      delta.graphId = fromIR.graphId ∧ delta.graphId = toIR.graphId ∧
      delta.appId = fromIR.appId ∧ delta.appId = toIR.appId ∧
      delta.fromEndpoint = endpoint before ∧ delta.toEndpoint = endpoint after then .ok ()
  else failWith "IMPACT-001" "Impact input delta endpoint fields must bind the supplied endpoint contexts" [
    ("delta", .obj [
      ("formatVersion", .str delta.formatVersion),
      ("graphId", .str delta.graphId),
      ("appId", .str delta.appId),
      ("from", delta.fromEndpoint.toValue),
      ("to", delta.toEndpoint.toValue)]),
    ("contexts", .obj [("from", contextBase before), ("to", contextBase after)])]

section Input

variable [Sha256]

def assertCanonicalDelta (supplied : FactDelta) (before after : FactDeltaEndpointContext) :
    Except CodedFailure FactDelta := do
  let canonical ← buildFactDelta before after
  if supplied.toValue.render = canonical.toValue.render then
    return canonical
  else
    failWith "IMPACT-002" "Impact input delta must exactly equal canonical Fact Delta recomputation"
      [("suppliedDeltaRevision", .str supplied.deltaRevision), ("canonicalDeltaRevision", .str canonical.deltaRevision)]

end Input

/-! ## Sources of verification -/

structure ImpactSource where
  basis : ImpactBasis
  entityId : Text
  level : SourceLevel
  seedIds : List Text
  canonicalSeedId : Text
  canonicalPath : List ImpactPathStep

def SOURCE_LEVEL_RANK : SourceLevel → Nat
  | .seed => 0
  | .direct => 1
  | .transitive => 2

def reachLevel (state : ReachState) : SourceLevel := if state.distance = 1 then .direct else .transitive

abbrev ImpactSources := OrderedMap (ImpactBasis × Text) ImpactSource

def addSeedSource (sources : ImpactSources) (seed : ImpactSeed) : ImpactSources :=
  let key := (seed.basis, seed.anchorEntityId)
  let existing := sources.get? key
  sources.set key {
    basis := seed.basis
    entityId := seed.anchorEntityId
    level := .seed
    seedIds := uniqueSorted (existing.elim [] ImpactSource.seedIds ++ [seed.id])
    canonicalSeedId := existing.elim seed.id fun source => min source.canonicalSeedId seed.id
    canonicalPath := [] }

def addReachedSource (basis : ImpactBasis) (sources : ImpactSources) (state : ReachState) : ImpactSources :=
  let key := (basis, state.entityId)
  if state.distance = 0 ∨ sources.has key then sources
  else sources.set key
    ⟨basis, state.entityId, reachLevel state, state.seedIds, state.canonicalSeedId, state.canonicalPath⟩

def sourceKey (source : ImpactSource) : Nat ×ₗ Nat ×ₗ Text :=
  toLex (BASIS_RANK source.basis, toLex (SOURCE_LEVEL_RANK source.level, source.entityId))

/-- A fact without a definite authority is no source, but its assertions are. -/
def isSource (entry : PropagatingSeed) : Bool :=
  entry.propagates || match entry.seed.subject with
    | .factAdded _ | .factRemoved _ => false
    | _ => true

def sourcesForVerification (seeds : List PropagatingSeed) (fromStates toStates : ReachStates) : List ImpactSource :=
  let seedSources := (seeds.filter isSource).foldl (fun sources entry => addSeedSource sources entry.seed) .empty
  let fromSources := fromStates.values.foldl (addReachedSource .from) seedSources
  let sources := toStates.values.foldl (addReachedSource .to) fromSources
  sortBy sourceKey sources.values

/-! ## Recommendations -/

/-- The fields by which a reason is known and sorted. -/
abbrev ReasonKey := Nat ×ₗ Nat ×ₗ Text ×ₗ Text ×ₗ List Text

def reasonKey (reason : VerificationReason) : ReasonKey :=
  toLex (BASIS_RANK reason.basis, toLex (SOURCE_LEVEL_RANK reason.sourceLevel, toLex (reason.sourceEntityId,
    toLex (reason.factId.getD [], reason.sourceSeedIds))))

abbrev Reasons := OrderedMap ReasonKey VerificationReason

abbrev Recommendations := OrderedMap VerificationTarget Reasons

def verificationReason (source : ImpactSource) (factId : Option Text := none) : VerificationReason :=
  ⟨source.basis, source.entityId, source.level, source.seedIds, factId⟩

def addRecommendation (recommendations : Recommendations) (target : VerificationTarget) (reason : VerificationReason) :
    Recommendations :=
  recommendations.set target (((recommendations.get? target).getD .empty).set (reasonKey reason) reason)

def verificationTarget : VerificationTarget → Text
  | .acceptance acceptanceEntityId => acceptanceEntityId
  | .selector target => target

def targetKind : VerificationTarget → Text
  | .acceptance _ => "acceptance"
  | .selector _ => "selector"

/-- `compareRecommendations`. -/
def recommendationKey (recommendation : VerificationRecommendation) : Text ×ₗ Text :=
  toLex (targetKind recommendation.target, verificationTarget recommendation.target)

def selectorFromFact (fact : SemanticFact) : Except CodedFailure Text :=
  let selected : Option Text := match fact.object with
    | .value ⟨.obj members, _⟩ => match Json.get? "selector" members with
        | some (.str target) => some target
        | _ => none
    | _ => none
  match selected with
  | some target => .ok target
  | none => failWith "IMPACT-005"
      (Text.cat ["VERIFIED_BY selector Fact \"", fact.id, "\" has an invalid target shape"])
      [("factId", .str fact.id), ("object", fact.object.toValue)]

structure Verification where
  recommendations : Recommendations
  uncertainties : Uncertainties

namespace Verification

def uncertain (verification : Verification) (draft : UncertaintyDraft) : Verification :=
  { verification with uncertainties := addUncertainty verification.uncertainties draft }

def recommend (verification : Verification) (target : VerificationTarget) (reason : VerificationReason) : Verification :=
  { verification with recommendations := addRecommendation verification.recommendations target reason }

end Verification

/-- The mappings of a source so far. -/
structure Mappings where
  verification : Verification
  runnable : Bool
  nonDefinite : Bool

def sourceUncertainty (source : ImpactSource) (reasonCode : ImpactUncertaintyReason) (fact : Option SemanticFact) :
    UncertaintyDraft where
  basis := source.basis
  reasonCode := reasonCode
  boundaryEntityId := some source.entityId
  factId := fact.map SemanticFact.id
  predicate := fact.map SemanticFact.predicate
  seedIds := source.seedIds
  canonicalSeedId := source.canonicalSeedId
  canonicalPath := source.canonicalPath
  distance := source.canonicalPath.length

/-- The target of a mapping, which has to be of the kind. -/
def mappingTarget (ir : EngineeringIR) (fact : SemanticFact) (entityId : Text) (kind : SemanticEntityKind)
    (message : Text) : Except CodedFailure SemanticEntity :=
  let target := entityById ir entityId
  match target.filter fun target => target.kind = kind with
  | some target => .ok target
  | none => failWith "IMPACT-005" message [("factId", .str fact.id), ("targetEntityId", .str entityId),
      ("targetKind", target.elim .null fun target => .str target.kind.toText)]

def collectMapping (source : ImpactSource) (ir : EngineeringIR) (entity : SemanticEntity) (mappings : Mappings)
    (fact : SemanticFact) : Except CodedFailure Mappings :=
  if !hasDefiniteAuthority fact then
    .ok { mappings with
      verification := mappings.verification.uncertain (nonDefiniteUncertainty source.basis fact source.entityId
        source.seedIds source.canonicalSeedId source.canonicalPath)
      nonDefinite := true }
  else if entity.kind = .policy then
    match fact.object with
    | .value _ => failWith "IMPACT-005"
        (Text.cat ["Policy VERIFIED_BY Fact \"", fact.id, "\" must target a policy Entity"])
        [("factId", .str fact.id), ("object", fact.object.toValue)]
    | .entity entityId => do
        let _ ← mappingTarget ir fact entityId .policy
          (Text.cat ["Policy VERIFIED_BY Fact \"", fact.id, "\" has an invalid target"])
        let uncertainty := sourceUncertainty source .verificationMappingNonRunnable (some fact)
        return { mappings with verification := mappings.verification.uncertain uncertainty }
  else
    match fact.object with
    | .entity entityId => do
        let target ← mappingTarget ir fact entityId .acceptance
          (Text.cat ["VERIFIED_BY Fact \"", fact.id, "\" must target an Acceptance Entity"])
        let reason := verificationReason source (some fact.id)
        return { mappings with
          verification := mappings.verification.recommend (.acceptance target.id) reason
          runnable := true }
    | .value _ =>
        if entity.kind ≠ .artifact then
          failWith "IMPACT-005" "Only Artifact VERIFIED_BY Facts can contain selector values"
            [("factId", .str fact.id), ("sourceEntityId", .str entity.id), ("sourceKind", .str entity.kind.toText)]
        else do
          let target ← selectorFromFact fact
          let reason := verificationReason source (some fact.id)
          return { mappings with
            verification := mappings.verification.recommend (.selector target) reason
            runnable := true }

def collectSource (fromIR toIR : EngineeringIR) (verification : Verification) (source : ImpactSource) :
    Except CodedFailure Verification :=
  let ir := match source.basis with
    | .from => fromIR
    | .to => toIR
  match entityById ir source.entityId with
  | none => failWith "IMPACT-006"
      (Text.cat ["Impact verification source references missing Entity \"", source.entityId, "\""])
      [("basis", .str source.basis.toText), ("entityId", .str source.entityId)]
  | some entity =>
      match entity.kind with
      | .acceptance => .ok (verification.recommend (.acceptance entity.id) (verificationReason source))
      | .scenario | .artifact | .policy => do
          let mappings := (outgoingFactsBySubject ir entity.id).filter fun fact => fact.predicate = .verifiedBy
          let collected ← mappings.foldlM (collectMapping source ir entity) ⟨verification, false, false⟩
          if entity.kind ≠ .policy ∧ !collected.runnable ∧ !collected.nonDefinite then
            return collected.verification.uncertain (sourceUncertainty source .verificationMappingMissing none)
          else return collected.verification
      | _ => .ok verification

def recommendation (entry : VerificationTarget × Reasons) : VerificationRecommendation :=
  ⟨entry.1, sortBy reasonKey entry.2.values⟩

/-- The recommendations in order, and the uncertainties with those of the mappings. -/
def collectVerification (sources : List ImpactSource) (fromIR toIR : EngineeringIR) (uncertainties : Uncertainties) :
    Except CodedFailure (List VerificationRecommendation × Uncertainties) := do
  let verification ← sources.foldlM (collectSource fromIR toIR) ⟨.empty, uncertainties⟩
  return (sortBy recommendationKey (verification.recommendations.entries.map recommendation), verification.uncertainties)

/-! ## Output -/

def occurrence (basis : ImpactBasis) (state : ReachState) : Option ImpactOccurrence :=
  if state.distance = 0 then none
  else some ⟨basis, state.entityId, if state.distance = 1 then .direct else .transitive, state.distance, state.seedIds,
    state.canonicalPath⟩

/-- `compareOccurrences`. -/
def occurrenceKey (value : ImpactOccurrence) : Nat ×ₗ Nat ×ₗ Text :=
  toLex (BASIS_RANK value.basis, toLex (value.distance, value.entityId))

/-- `compareUncertainties`. -/
def uncertaintyKey (value : ImpactUncertainty) : List Text ×ₗ List Text ×ₗ List (List Text) :=
  toLex (uncertaintyIdentity value, toLex (value.seedIds, pathKey value.canonicalPath))

/-- The states of a basis that are not anchors of seeds. -/
def occurrencesOf (basis : ImpactBasis) (anchors : List (ImpactBasis × Text)) (states : ReachStates) :
    List ImpactOccurrence :=
  (states.values.filterMap (occurrence basis)).filter fun value => (basis, value.entityId) ∉ anchors

/-- The loop over the seeds; `seen` holds the ids so far and `previous` the seed before. -/
def assertSeeds (seen : List Text) (previous : Option ImpactSeed) : List ImpactSeed → Except CodedFailure Unit
  | [] => .ok ()
  | seed :: seeds =>
      if seed.id ∈ seen ∨ previous.any (fun previous => !decide (seedKey previous < seedKey seed)) then
        failWith "IMPACT-006" "Impact seeds must be unique and canonically ordered" [("seedId", .str seed.id)]
      else assertSeeds (seed.id :: seen) (some seed) seeds

/-- The loop over the occurrences of one level; the entities seen so far are handed on. -/
def assertOccurrences (level : ImpactLevel) (seen : List (ImpactBasis × Text)) (previous : Option ImpactOccurrence) :
    List ImpactOccurrence → Except CodedFailure (List (ImpactBasis × Text))
  | [] => .ok seen
  | value :: values =>
      if (value.basis, value.entityId) ∈ seen ∨
          value.level ≠ (if value.distance = 1 then ImpactLevel.direct else .transitive) ∨
          value.canonicalPath.length ≠ value.distance ∨
          previous.any (fun previous => !decide (occurrenceKey previous < occurrenceKey value)) ∨
          value.canonicalPath.getLast?.map ImpactPathStep.toEntityId ≠ some value.entityId ∨
          (if level = .direct then value.distance ≠ 1 else value.distance < 2) then
        failWith "IMPACT-006" "Impact occurrences violate overlap, level, path, or order invariants"
          [("collection", .str level.toText), ("basis", .str value.basis.toText), ("entityId", .str value.entityId),
            ("distance", .num (.ofNat value.distance))]
      else assertOccurrences level ((value.basis, value.entityId) :: seen) (some value) values

def assertCanonicalOutput (seeds : List ImpactSeed) (direct transitive : List ImpactOccurrence)
    (uncertainties : List ImpactUncertainty) (verification : List VerificationRecommendation) :
    Except CodedFailure Unit := do
  assertSeeds [] none seeds
  let seen ← assertOccurrences .direct [] none direct
  let _ ← assertOccurrences .transitive seen none transitive
  (uncertainties.zip uncertainties.tail).forM fun (previous, current) =>
    if uncertaintyKey previous < uncertaintyKey current then .ok ()
    else failWith "IMPACT-006" "Impact uncertainties must be unique and canonically ordered"
      [("previous", texts (uncertaintyIdentity previous)), ("current", texts (uncertaintyIdentity current))]
  (verification.zip verification.tail).forM fun (previous, current) =>
    if recommendationKey previous < recommendationKey current then .ok ()
    else failWith "IMPACT-006" "Impact verification recommendations must be unique and canonically ordered"
      [("previous", .str (verificationTarget previous.target)), ("current", .str (verificationTarget current.target))]

/-! ## The propagation -/

section Propagation

variable [Sha256]

/-- The payload leaves the revision of the impact out. -/
def impactDigestPayload (value : SemanticImpactPropagation) : Value := .obj [
  ("domain", .str "engineering-ir-impact-propagation-v1"),
  ("contractVersion", .str value.contractVersion),
  ("scope", .str value.scope),
  ("formatVersion", .str value.formatVersion),
  ("graphId", .str value.graphId),
  ("appId", .str value.appId),
  ("deltaRevision", .str value.deltaRevision),
  ("from", .obj [
    ("semanticRevision", .str value.fromSemanticRevision),
    ("factSetDigest", .str value.fromFactSetDigest)]),
  ("to", .obj [
    ("semanticRevision", .str value.toSemanticRevision),
    ("factSetDigest", .str value.toFactSetDigest)]),
  ("propagationRuleRevision", .str value.propagationRuleRevision),
  ("seeds", .arr (value.seeds.map ImpactSeed.toValue)),
  ("direct", .arr (value.direct.map ImpactOccurrence.toValue)),
  ("transitive", .arr (value.transitive.map ImpactOccurrence.toValue)),
  ("uncertainties", .arr (value.uncertainties.map ImpactUncertainty.toValue)),
  ("verification", .arr (value.verification.map VerificationRecommendation.toValue))]

def collectSeeds (delta : FactDelta) (before after : EngineeringIR) : Except CodedFailure (List PropagatingSeed) := do
  let entitySeeds ← collectEntitySeeds before after
  let factSeeds ← collectFactSeeds delta before after
  return sortBy (fun entry => seedKey entry.seed) (entitySeeds ++ factSeeds)

/-- The uncertainty of a fact that was added or removed without a definite authority. -/
def seedUncertainty (before after : EngineeringIR) (uncertainties : Uncertainties) (entry : PropagatingSeed) :
    Except CodedFailure Uncertainties :=
  let ir := match entry.seed.basis with
    | .from => before
    | .to => after
  if isSource entry then .ok uncertainties
  else do
    let fact ← requireFact ir (entry.seed.subject.factId?.getD []) entry.seed.basis
    return addUncertainty uncertainties (nonDefiniteUncertainty entry.seed.basis fact entry.seed.anchorEntityId
      [entry.seed.id] entry.seed.id [])

def buildImpactPropagation (supplied : FactDelta) (before after : FactDeltaEndpointContext) :
    Except CodedFailure SemanticImpactPropagation := do
  assertInputBinding supplied before after
  let delta ← assertCanonicalDelta supplied before after
  assertImpactPropagationRuleRegistry IMPACT_PROPAGATION_RULES
  let fromIR := before.snapshot.ir
  let toIR := after.snapshot.ir
  let seeds ← collectSeeds delta fromIR toIR
  let uncertainties ← seeds.foldlM (seedUncertainty fromIR toIR) .empty
  let fromTraversal ← traverseBasis .from seeds fromIR uncertainties
  let toTraversal ← traverseBasis .to seeds toIR fromTraversal.uncertainties
  let anchors := seeds.map fun entry => (entry.seed.basis, entry.seed.anchorEntityId)
  let occurrences := occurrencesOf .from anchors fromTraversal.states ++ occurrencesOf .to anchors toTraversal.states
  let direct := sortBy occurrenceKey (occurrences.filter fun value => value.level = .direct)
  let transitive := sortBy occurrenceKey (occurrences.filter fun value => value.level = .transitive)
  let (verification, uncertainties) ← collectVerification
    (sourcesForVerification seeds fromTraversal.states toTraversal.states) fromIR toIR toTraversal.uncertainties
  let uncertaintyOutput := sortBy uncertaintyKey (uncertainties.values.map UncertaintyDraft.toImpactUncertainty)
  let seedOutput := seeds.map PropagatingSeed.seed
  assertCanonicalOutput seedOutput direct transitive uncertaintyOutput verification
  let impact : SemanticImpactPropagation := {
    contractVersion := IMPACT_CONTRACT_VERSION
    scope := IMPACT_SCOPE
    formatVersion := fromIR.formatVersion
    graphId := fromIR.graphId
    appId := fromIR.appId
    deltaRevision := delta.deltaRevision
    fromSemanticRevision := before.semanticRevision
    toSemanticRevision := after.semanticRevision
    fromFactSetDigest := delta.fromFactSetDigest
    toFactSetDigest := delta.toFactSetDigest
    propagationRuleRevision := IMPACT_PROPAGATION_RULE_REVISION
    seeds := seedOutput
    direct := direct
    transitive := transitive
    uncertainties := uncertaintyOutput
    verification := verification
    impactRevision := [] }
  return { impact with impactRevision := (Sha256.rawSha256 (canonicalEncoding (impactDigestPayload impact))).val }

end Propagation

/-!
## What an impact has to account for

The entities that a change reaches in a snapshot: the anchors of the seeds that propagate, closed under the
facts that lead on. The impact accounts for each of them when it reports it, when no fact at it is passed over
and when a scenario or an artifact is verified or left uncertain.
-/

/-! ### Facts that lead on -/

/-- The rule of the fact is an edge in the direction. -/
def EdgeRule (direction : ImpactDirection) (fact : SemanticFact) : Prop :=
  ∃ ruleVariantId, IMPACT_PROPAGATION_RULES fact.predicate = .edge direction ruleVariantId

/-- The fact leads from its subject to the target. -/
def LeadsOut (fact : SemanticFact) (target : Text) : Prop :=
  hasDefiniteAuthority fact ∧ EdgeRule .subjectToObject fact ∧ fact.object = .entity target

/-- The fact leads from its object to the target. -/
def LeadsIn (fact : SemanticFact) (target : Text) : Prop :=
  hasDefiniteAuthority fact ∧ EdgeRule .objectToSubject fact ∧ fact.subject = target

/-- A fact of the snapshot leads from the entity to the target. -/
def Follows (ir : EngineeringIR) (entityId target : Text) : Prop :=
  ∃ fact ∈ ir.facts, fact.subject = entityId ∧ LeadsOut fact target ∨ fact.object = .entity entityId ∧ LeadsIn fact target

/-- The rule never goes from the subject of a fact to its object. -/
def StopsOutgoing (fact : SemanticFact) : Prop :=
  EdgeRule .objectToSubject fact ∨ IMPACT_PROPAGATION_RULES fact.predicate = .verification ∨
    IMPACT_PROPAGATION_RULES fact.predicate = .reserved

/-- The rule never goes from the object of a fact to its subject. -/
def StopsIncoming (fact : SemanticFact) : Prop :=
  EdgeRule .subjectToObject fact ∨ IMPACT_PROPAGATION_RULES fact.predicate = .valueStop ∨
    IMPACT_PROPAGATION_RULES fact.predicate = .verification ∨ IMPACT_PROPAGATION_RULES fact.predicate = .reserved

/-! ### Reached entities -/

/-- The snapshot of a basis. -/
def snapshotOf (fromIR toIR : EngineeringIR) : ImpactBasis → EngineeringIR
  | .from => fromIR
  | .to => toIR

/-- A seed of an entity propagates, one of a fact does so when the fact has a definite authority. -/
def Propagates (ir : EngineeringIR) (seed : ImpactSeed) : Prop :=
  match seed.subject with
  | .entityAdded _ | .entityRemoved _ | .entityUpdated _ _ => True
  | .factAdded factId | .factRemoved factId => ∃ fact ∈ ir.facts, fact.id = factId ∧ hasDefiniteAuthority fact
  | .assertionAdded _ _ | .assertionRemoved _ _ | .assertionUpdated _ _ _ => False

/-- The impact of the seeds reaches the entity in the snapshot of the basis. -/
def Reached (basis : ImpactBasis) (ir : EngineeringIR) (seeds : List ImpactSeed) (entityId : Text) : Prop :=
  ∃ seed ∈ seeds, seed.basis = basis ∧ Propagates ir seed ∧
    Relation.ReflTransGen (Follows ir) seed.anchorEntityId entityId

/-! ### Reports -/

/-- The entity is the anchor of a seed, or it occurs in the impact directly or transitively. -/
def Reported (impact : SemanticImpactPropagation) (basis : ImpactBasis) (entityId : Text) : Prop :=
  (∃ seed ∈ impact.seeds, seed.basis = basis ∧ seed.anchorEntityId = entityId) ∨
    ∃ value ∈ impact.direct ++ impact.transitive, value.basis = basis ∧ value.entityId = entityId

/-- An uncertainty is bounded at the entity. -/
def BoundedAt (impact : SemanticImpactPropagation) (basis : ImpactBasis) (entityId : Text) : Prop :=
  ∃ value ∈ impact.uncertainties, value.basis = basis ∧ value.boundaryEntityId = some entityId

/-- An uncertainty about the fact is bounded at the entity. -/
def FactBoundedAt (impact : SemanticImpactPropagation) (basis : ImpactBasis) (entityId : Text) (fact : SemanticFact) :
    Prop :=
  ∃ value ∈ impact.uncertainties, value.basis = basis ∧ value.boundaryEntityId = some entityId ∧
    value.factId = some fact.id

/-- A recommendation has the entity among its reasons. -/
def Cited (impact : SemanticImpactPropagation) (basis : ImpactBasis) (entityId : Text) : Prop :=
  ∃ recommendation ∈ impact.verification, ∃ reason ∈ recommendation.reasons,
    reason.basis = basis ∧ reason.sourceEntityId = entityId

/-- Nothing that the change reaches in the snapshot is lost. -/
structure AccountsFor (impact : SemanticImpactPropagation) (basis : ImpactBasis) (ir : EngineeringIR) : Prop where
  /-- What is reached is reported, and what occurs is reached. -/
  reported : ∀ entityId, Reached basis ir impact.seeds entityId → Reported impact basis entityId
  reached : ∀ value ∈ impact.direct ++ impact.transitive, value.basis = basis →
    Reached basis ir impact.seeds value.entityId
  outgoing : ∀ entityId, Reached basis ir impact.seeds entityId → ∀ fact ∈ ir.facts, fact.subject = entityId →
    (∃ target, LeadsOut fact target ∧ Reached basis ir impact.seeds target) ∨
      FactBoundedAt impact basis entityId fact ∨ StopsOutgoing fact
  incoming : ∀ entityId, Reached basis ir impact.seeds entityId → ∀ fact ∈ ir.facts, fact.object = .entity entityId →
    (∃ target, LeadsIn fact target ∧ Reached basis ir impact.seeds target) ∨
      FactBoundedAt impact basis entityId fact ∨ StopsIncoming fact
  verified : ∀ entity ∈ ir.entities, entity.kind = .scenario ∨ entity.kind = .artifact →
    Reached basis ir impact.seeds entity.id → Cited impact basis entity.id ∨ BoundedAt impact basis entity.id

end SecPlatform.Compiler.SemanticImpact
