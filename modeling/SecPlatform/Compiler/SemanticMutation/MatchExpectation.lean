import SecPlatform.Compiler.SemanticMutation.Canonical
import SecPlatform.Compiler.SemanticMutation.NormalizeRequest
import SecPlatform.Compiler.SemanticMutation.OperationRegistry

/-!
# Conditions on a snapshot

Conditions of the request and of the authorization are merged by their id and matched against a snapshot.
-/

namespace SecPlatform.Compiler.SemanticMutation

open Contracts Semantics

/-! ## Facts by selector -/

def selectorMatches (fact : SemanticFact) (selector : SemanticFactSelector) : Bool :=
  decide (fact.subject = selector.subject) && decide (fact.predicate = selector.predicate) &&
    canonicalEquals fact.object.toValue selector.object.toValue

def factForSelector (snapshot : ValidatedEngineeringIRSnapshot) (selector : SemanticFactSelector) : Option SemanticFact :=
  snapshot.ir.facts.find? fun fact => selectorMatches fact selector

/-! ## Merging -/

/-- Equal definitions of one condition are merged; a conflict is thrown. -/
def mergeSemanticMutationConditions (collections : List (List SemanticMutationCondition)) :
    Except Text (List SemanticMutationCondition) := do
  let byId ← collections.flatten.foldlM (fun (byId : OrderedMap Text SemanticMutationCondition) condition =>
    if (byId.get? condition.conditionId).any fun existing => !canonicalEquals existing.toValue condition.toValue then
      .error (Text.cat ["Condition id \"", condition.conditionId, "\" has conflicting definitions"])
    else .ok (byId.set condition.conditionId condition)) .empty
  return sortBy SemanticMutationCondition.conditionId byId.values

section Digests

variable [Sha256]

def semanticMutationEntityDigest (entity : SemanticEntity) : Text := sha256 (.obj [
  ("domain", .str "semantic-mutation-entity-condition-v1"),
  ("id", .str entity.id),
  ("kind", .str entity.kind.toText),
  ("label", .str entity.label),
  ("attributes", .arr (entity.attributes.map SemanticAttribute.toValue))])

def semanticMutationAssertionDigest (assertion : FactAssertion) : Text := sha256 (.obj [
  ("domain", .str "semantic-mutation-assertion-condition-v1"),
  ("id", .str assertion.id),
  ("authority", .str assertion.authority.toText),
  ("confidence", .num assertion.confidence.val),
  ("provenance", .arr (assertion.provenance.map FactProvenance.toValue)),
  ("evidence", .arr (assertion.evidence.map EvidenceReference.toValue)),
  ("validFromRevision", .str assertion.validFromRevision),
  ("validToRevision", .str (assertion.validToRevision.getD []))])

/-- The digest of what an assertion claims. -/
def assertionClaimDigest (assertionId : Text) (claim : AssertionClaim) : Text := sha256 (.obj [
  ("domain", .str "semantic-mutation-assertion-claim-v1"),
  ("assertionId", .str assertionId),
  ("confidence", .num claim.confidence.val),
  ("evidence", .arr (claim.evidence.map EvidenceReference.toValue))])

def semanticMutationAssertionClaimDigest (assertion : FactAssertion) : Text :=
  assertionClaimDigest assertion.id ⟨assertion.confidence, assertion.evidence⟩

/-! ## Matching -/

/-- Whether a condition matches, and what was found in its place. -/
def conditionMatches (snapshot : ValidatedEngineeringIRSnapshot) (condition : SemanticMutationCondition) :
    Bool × Option Value :=
  match condition.target with
  | .entity entityId entityKind digest =>
      match snapshot.ir.entities.find? fun entry => entry.id = entityId with
      | none => (!condition.expected, none)
      | some entity =>
          if condition.expected then
            (entityKind.all (fun kind => kind = entity.kind) &&
              digest.all (fun digest => digest = semanticMutationEntityDigest entity),
              some (.obj [("kind", .str entity.kind.toText), ("digest", .str (semanticMutationEntityDigest entity))]))
          else (false, some (.str entity.id))
  | .fact selector =>
      let fact := factForSelector snapshot selector
      (condition.expected == fact.isSome, fact.map fun fact => .str fact.id)
  | .assertion selector assertionId digest =>
      match factForSelector snapshot selector with
      | none => (!condition.expected, none)
      | some fact =>
          match fact.assertions.find? fun entry => entry.id = assertionId with
          | none => (!condition.expected, none)
          | some assertion =>
              if condition.expected then
                (digest.all (fun digest => digest = semanticMutationAssertionDigest assertion),
                  some (.obj [("factId", .str fact.id), ("assertionId", .str assertion.id),
                    ("digest", .str (semanticMutationAssertionDigest assertion))]))
              else (false, some (.str assertion.id))

/-- The kind of a condition and what it is about. -/
def conditionTarget (condition : SemanticMutationCondition) : Text × Text :=
  match condition.target with
  | .entity entityId _ _ => ("entity", entityId)
  | .fact selector => ("fact", factSelectorKey selector)
  | .assertion selector _ _ => ("assertion", factSelectorKey selector)

def matchSemanticMutationConditions (snapshot : ValidatedEngineeringIRSnapshot)
    (conditions : List SemanticMutationCondition) (code : Text) (stage : SemanticMutationDiagnosticStage) :
    List SemanticMutationDiagnostic :=
  conditions.flatMap fun condition =>
    let result := conditionMatches snapshot condition
    if result.1 then [] else
      let message := Text.cat
        ["Semantic mutation condition \"", condition.conditionId, "\" did not match the canonical snapshot"]
      let details : Value := .obj (present [
        ("conditionKind", some (.str (conditionTarget condition).1)),
        ("target", some (.str (conditionTarget condition).2)),
        ("expectedExists", some (.bool condition.expected)),
        ("actual", result.2)])
      [mutationDiagnostic code stage message (some details) none (some condition.conditionId)]

end Digests

/-!
## Matching the expectation

The delta of the staged snapshot has to be the one the caller expects, and to have exactly the effects of
the requested operations, each asserted once by the contract of its operation.
-/

/-! ### The expectation of a delta -/

def selectorFromFact (fact : SemanticFact) : SemanticFactSelector := ⟨fact.subject, fact.predicate, fact.object⟩

def factById (snapshot : ValidatedEngineeringIRSnapshot) (factId : Text) : Except Text SemanticFact :=
  match snapshot.ir.facts.find? fun entry => decide (entry.id = factId) with
  | some fact => .ok fact
  | none => .error (Text.cat ["Canonical endpoint is missing Fact \"", factId, "\""])

section Digests

variable [Sha256]

def expectedFactOf (fact : SemanticFact) : ExpectedSemanticFact where
  fact := selectorFromFact fact
  assertions := sortBy ExpectedFactAssertion.assertionId
    (fact.assertions.map fun assertion => ⟨assertion.id, semanticMutationAssertionClaimDigest assertion⟩)

def expectedFactsOf (facts : List SemanticFact) : List ExpectedSemanticFact :=
  sortBy (fun expected => factSelectorKey expected.fact) (facts.map expectedFactOf)

/-- The expected changes of the assertions of a fact. -/
def expectedChanges (base staged : ValidatedEngineeringIRSnapshot) (change : SemanticFactChange) :
    Except Text (List ExpectedFactAssertionChange) := do
  let before := selectorFromFact (← factById base change.factId)
  let after := selectorFromFact (← factById staged change.factId)
  let added := change.addedAssertions.map fun assertion =>
    ⟨after, assertion.id, .added (semanticMutationAssertionClaimDigest assertion)⟩
  let removed := change.removedAssertions.map fun assertion =>
    ⟨before, assertion.id, .removed (semanticMutationAssertionClaimDigest assertion)⟩
  let updated := change.updatedAssertions.map fun update =>
    ⟨after, update.assertionId, .updated update.changedFields (assertionClaimDigest update.assertionId update.before)
      (assertionClaimDigest update.assertionId update.after)⟩
  return added ++ removed ++ updated

def expectationFromFactDelta (delta : FactDelta) (base staged : ValidatedEngineeringIRSnapshot) :
    Except Text SemanticMutationExpectation := do
  let changes ← delta.changed.mapM (expectedChanges base staged)
  return {
    addedFacts := expectedFactsOf delta.added
    removedFacts := expectedFactsOf delta.removed
    assertionChanges := sortBy assertionChangeKey changes.flatten }

end Digests

/-! ### The effects of the operations -/

def transitionSelector (operation : ValidatedAddStateTransitionOperation) : SemanticFactSelector where
  subject := operation.stateEntityId
  predicate := .transitionsTo
  object := .value ⟨transitionValue operation.operationEntityId operation.operation.fromState operation.operation.toState,
    rfl⟩

def mutatesSelector (operation : ValidatedAddStateTransitionOperation) : SemanticFactSelector where
  subject := operation.operationEntityId
  predicate := .mutates
  object := .entity operation.stateEntityId

/-- The facts that an operation may add. -/
def operationSelectors (operation : ValidatedAddStateTransitionOperation) : List SemanticFactSelector :=
  if operation.mutatesExistsInBase then [transitionSelector operation]
  else [transitionSelector operation, mutatesSelector operation]

def expectedOperationSelectors (operations : List ValidatedAddStateTransitionOperation) :
    OrderedMap Text ValidatedAddStateTransitionOperation :=
  .ofList (operations.flatMap fun operation =>
    (operationSelectors operation).map fun selector => (factSelectorKey selector, operation))

def provenanceValue (provenance : List FactProvenance) : Value := .arr (provenance.map FactProvenance.toValue)

def assertionMatchesContract (fact : SemanticFact) (operation : ValidatedAddStateTransitionOperation) : Bool :=
  match fact.assertions with
  | [assertion] => decide (assertion.authority = .authoritative) &&
      assertion.confidence.val.strictEquals (.ofNat 1) && assertion.evidence.isEmpty &&
      canonicalEquals (provenanceValue assertion.provenance) (provenanceValue operation.contractProvenance)
  | _ => false

/-! ### Matching -/

def entitiesValue (snapshot : ValidatedEngineeringIRSnapshot) : Value :=
  .arr (snapshot.ir.entities.map SemanticEntity.toValue)

def expectationDiagnostic (message : Text) (details : List (Text × Value)) (operationId : Option Text := none) :
    SemanticMutationDiagnostic :=
  mutationDiagnostic "SEMANTIC-MUTATION-009" .expectation message (some (.obj details)) operationId

def entityDriftDiagnostics (base staged : ValidatedEngineeringIRSnapshot) : List SemanticMutationDiagnostic :=
  if canonicalEquals (entitiesValue base) (entitiesValue staged) then []
  else [expectationDiagnostic "Semantic mutation v1 forbids Entity drift"
    [("baseEntityCount", .num (.ofNat base.ir.entities.length)),
      ("stagedEntityCount", .num (.ofNat staged.ir.entities.length))]]

def unexpectedDeltaDiagnostics (actual expectation : SemanticMutationExpectation) : List SemanticMutationDiagnostic :=
  if canonicalEquals actual.toValue expectation.toValue then []
  else [expectationDiagnostic "Actual Fact Delta does not exactly match the caller expectation"
    [("expected", expectation.toValue), ("actual", actual.toValue)]]

def addedKey (fact : SemanticFact) : Text := factSelectorKey (selectorFromFact fact)

def allowlistDiagnostics (delta : FactDelta) (allowed : OrderedMap Text ValidatedAddStateTransitionOperation) :
    List SemanticMutationDiagnostic :=
  let actualKeys := sortBy id (delta.added.map addedKey)
  let expectedKeys := sortBy id allowed.keys
  if delta.removed = [] ∧ delta.changed = [] ∧ actualKeys = expectedKeys then []
  else [expectationDiagnostic "Actual Fact Delta exceeds or misses the operation registry semantic-effect allowlist"
    [("expectedAddedFactSelectors", texts expectedKeys),
      ("actualAddedFactSelectors", texts actualKeys),
      ("removedFactIds", texts (delta.removed.map SemanticFact.id)),
      ("changedFactIds", texts (delta.changed.map SemanticFactChange.factId))]]

def contractDiagnostics (allowed : OrderedMap Text ValidatedAddStateTransitionOperation) (fact : SemanticFact) :
    List SemanticMutationDiagnostic :=
  match allowed.get? (addedKey fact) with
  | some operation =>
      if assertionMatchesContract fact operation then []
      else [expectationDiagnostic "Added operation effect must have one exact authoritative target-contract assertion"
        [("factId", .str fact.id)] (some operation.operation.operationId)]
  | none => []

def matchSemanticMutationExpectation [Sha256] (base staged : ValidatedEngineeringIRSnapshot) (delta : FactDelta)
    (expectation : SemanticMutationExpectation) (operations : List ValidatedAddStateTransitionOperation) :
    Except Text (List SemanticMutationDiagnostic) := do
  let actualExpectation ← expectationFromFactDelta delta base staged
  let allowed := expectedOperationSelectors operations
  return entityDriftDiagnostics base staged ++ unexpectedDeltaDiagnostics actualExpectation expectation ++
    allowlistDiagnostics delta allowed ++ delta.added.flatMap (contractDiagnostics allowed)

end SecPlatform.Compiler.SemanticMutation
