import SecPlatform.Compiler.SemanticMutation.Canonical

/-!
# The registry of operations

A requested transition is validated against the base graph: its target and its kind are authorized, the
state, its values and the operation exist, and one loaded contract owns all of them.
-/

namespace SecPlatform.Compiler.SemanticMutation

open Contracts Semantics

def ADD_STATE_TRANSITION_MINIMUM_VERIFICATION : List VerificationRequirement := [.pass "verify"]

structure ValidatedAddStateTransitionOperation where
  operation : AddStateTransitionOperation
  stateEntityId : Text
  operationEntityId : Text
  responsibilityEntityId : Text
  contractProvenance : List FactProvenance
  mutatesExistsInBase : Bool

/-! ## Identities -/

/-- No colon and no null character, trimmed and not empty. -/
def isSemanticIdentityComponent (value : Text) : Bool :=
  nonEmptyString value && !value.contains (unit ':') && !value.contains 0

def assertSemanticIdentityComponent (value label : Text) : Except CodedFailure Unit :=
  if isSemanticIdentityComponent value then .ok ()
  else .error ⟨"CONTRACT-SEMANTIC-024",
    Text.cat [label, " requires a literal non-empty, trimmed identity component without colon, NUL"], some (.obj [])⟩

def scopedEntityId (kind scope id : Text) : Except CodedFailure Text := do
  assertSemanticIdentityComponent scope "Semantic namespace"
  assertSemanticIdentityComponent id (Text.cat [kind, " id"])
  return Text.cat [kind, ":", scope, ":", id]

def contractStateId (scope id : Text) : Except CodedFailure Text := scopedEntityId "state" scope id

def contractOperationId (scope id : Text) : Except CodedFailure Text := scopedEntityId "operation" scope id

/-! ## Facts of a loaded contract -/

def targetContractAssertions (fact : Option SemanticFact) (contractId : Text) : List FactAssertion :=
  (fact.elim [] SemanticFact.assertions).filter fun assertion =>
    assertion.authority = .authoritative &&
      match assertion.provenance with
      | [provenance] => provenance.kind = .contract &&
          provenance.sourceId = Text.cat ["semantic-contract:", contractId] && provenance.sourcePath.isSome
      | _ => false

def provenanceKey (provenance : List FactProvenance) : Text :=
  Json.render (.arr (provenance.map FactProvenance.toValue) : Value)

def entityFact (facts : List SemanticFact) (subject : Text) (predicate : SemanticPredicate) (objectEntityId : Text) :
    Option SemanticFact :=
  facts.find? fun fact => fact.subject = subject && fact.predicate = predicate && fact.object = .entity objectEntityId

def valueFact (facts : List SemanticFact) (subject : Text) (predicate : SemanticPredicate) (value : Value) :
    Option SemanticFact :=
  facts.find? fun fact => fact.subject = subject && fact.predicate = predicate &&
    match fact.object with
    | .value content => canonicalEquals content.val value
    | .entity _ => false

/-- The value of a transition fact. -/
def transitionValue (operationEntityId fromState toState : Text) : Value := .obj [
  ("by", .str operationEntityId),
  ("from", .str fromState),
  ("to", .str toState)]

/-! ## Validation -/

def operationDiagnostic (operation : AddStateTransitionOperation) (stage : SemanticMutationDiagnosticStage)
    (message : Text) (details : List (Text × Value)) : SemanticMutationDiagnostic :=
  mutationDiagnostic (if stage = .sourceResolution then "SEMANTIC-MUTATION-004" else "SEMANTIC-MUTATION-006") stage message
    (some (.obj details)) (some operation.operationId)

/-- The first transition tuples and pairs that were requested. -/
structure TransitionOwners where
  tuples : OrderedMap Text Text
  pairs : OrderedMap Text (Text × Text)

def pairKey (operation : AddStateTransitionOperation) : Text := joinNull [operation.contract.namespaceId,
  operation.contract.contractId, operation.stateId, operation.fromState, operation.toState]

def tupleKey (operation : AddStateTransitionOperation) : Text := joinNull [operation.contract.namespaceId,
  operation.contract.contractId, operation.stateId, operation.fromState, operation.toState, operation.byOperation]

/-- The id of an earlier operation with the same tuple, or with the same pair under another operation. -/
def conflictingOperation (owners : TransitionOwners) (operation : AddStateTransitionOperation) : Option Text :=
  match owners.tuples.get? (tupleKey operation) with
  | some operationId => some operationId
  | none => ((owners.pairs.get? (pairKey operation)).filter fun owner => owner.2 ≠ operation.byOperation).map Prod.fst

/-- The values of a state. -/
def stateValues (state : SemanticEntity) : Option (List Text) :=
  match (state.attributes.find? fun entry => decide (entry.key = Text.ofString "values")).map SemanticAttribute.value with
  | some (.array values) => some values
  | _ => none

/-- An operation against the base graph, when no earlier one conflicts with it. -/
def validateOperation (snapshot : ValidatedEngineeringIRSnapshot) (authorization : SemanticMutationAuthorizationContent)
    (operation : AddStateTransitionOperation) (stateEntityId operationEntityId : Text) :
    Except SemanticMutationDiagnostic ValidatedAddStateTransitionOperation := do
  let facts := snapshot.ir.facts
  let reject := operationDiagnostic operation
  require (operation.kind ∈ authorization.allowedOperationKinds ∧ stateEntityId ∈ authorization.allowedTargetEntityIds)
    (reject .sourceResolution "Operation kind or canonical target is outside trusted authorization"
      [("kind", .str operation.kind), ("stateEntityId", .str stateEntityId)])
  let state := snapshot.ir.entities.find? fun entity => entity.id = stateEntityId
  let byOperation := snapshot.ir.entities.find? fun entity => entity.id = operationEntityId
  require (state.any (fun state => state.kind = .state && (stateValues state).any fun values =>
        operation.fromState ∈ values && operation.toState ∈ values) ∧
      byOperation.any (fun entity => entity.kind = .operation) ∧ operation.fromState ≠ operation.toState)
    (reject .sourceResolution "Transition target, values, or operation do not match the canonical base graph"
      [("stateEntityId", .str stateEntityId), ("operationEntityId", .str operationEntityId),
        ("from", .str operation.fromState), ("to", .str operation.toState)])
  let existingTransition := valueFact facts stateEntityId .transitionsTo
    (transitionValue operationEntityId operation.fromState operation.toState)
  require (existingTransition = none)
    (reject .transform "Requested transition already exists in the canonical base graph"
      [("stateEntityId", .str stateEntityId),
        ("transitionFactId", .str (existingTransition.elim [] SemanticFact.id))])
  let ownerFacts := facts.filter fun fact => fact.predicate = .owns && fact.object = .entity stateEntityId
  let ownerProofs := ownerFacts.flatMap fun fact =>
    (targetContractAssertions (some fact) operation.contract.contractId).map fun assertion => (fact, assertion)
  match ownerProofs with
  | [(ownerFact, ownerAssertion)] => do
      let implementsProofs := targetContractAssertions
        (entityFact facts ownerFact.subject .implements operationEntityId) operation.contract.contractId
      let guaranteeFrom := targetContractAssertions
        (valueFact facts stateEntityId .guarantees (.str operation.fromState)) operation.contract.contractId
      let guaranteeTo := targetContractAssertions
        (valueFact facts stateEntityId .guarantees (.str operation.toState)) operation.contract.contractId
      let contractProofKeys := (ownerAssertion :: implementsProofs ++ guaranteeFrom ++ guaranteeTo).map fun assertion =>
        provenanceKey assertion.provenance
      require (implementsProofs.length = 1 ∧ guaranteeFrom.length = 1 ∧ guaranteeTo.length = 1 ∧
          contractProofKeys.dedup.length = 1)
        (reject .sourceResolution
          "State owner, operation responsibility, values, and loaded-contract provenance must agree exactly"
          [("stateEntityId", .str stateEntityId), ("operationEntityId", .str operationEntityId),
            ("responsibilityEntityId", .str ownerFact.subject)])
      let mutatesFact := entityFact facts operationEntityId .mutates stateEntityId
      require (mutatesFact = none ∨ (targetContractAssertions mutatesFact operation.contract.contractId).length = 1)
        (reject .sourceResolution "Existing MUTATES relation is not authoritative for the target loaded contract"
          [("stateEntityId", .str stateEntityId), ("operationEntityId", .str operationEntityId),
            ("mutatesFactId", .str (mutatesFact.elim [] SemanticFact.id))])
      return ⟨operation, stateEntityId, operationEntityId, ownerFact.subject, ownerAssertion.provenance, mutatesFact.isSome⟩
  | _ => throw (reject .sourceResolution "Target state must have one authoritative loaded-contract owner"
      [("stateEntityId", .str stateEntityId), ("ownerCount", .num (.ofNat ownerProofs.length))])

/-- The state of the loop: the owners so far, the validated operations and the diagnostics. -/
structure OperationValidation where
  owners : TransitionOwners
  validated : List ValidatedAddStateTransitionOperation
  diagnostics : List SemanticMutationDiagnostic

def validateNext (snapshot : ValidatedEngineeringIRSnapshot) (authorization : SemanticMutationAuthorizationContent)
    (loop : OperationValidation) (operation : AddStateTransitionOperation) : Except CodedFailure OperationValidation := do
  let stateEntityId ← contractStateId operation.contract.namespaceId operation.stateId
  let operationEntityId ← contractOperationId operation.contract.namespaceId operation.byOperation
  match conflictingOperation loop.owners operation with
  | some operationId =>
      let conflict := operationDiagnostic operation .transform
        "Semantic mutation operations contain a duplicate or conflicting transition tuple"
        [("conflictingOperationId", .str operationId), ("stateEntityId", .str stateEntityId),
          ("from", .str operation.fromState), ("to", .str operation.toState), ("by", .str operation.byOperation)]
      return { loop with diagnostics := loop.diagnostics ++ [conflict] }
  | none =>
      let owners : TransitionOwners := ⟨loop.owners.tuples.set (tupleKey operation) operation.operationId,
        loop.owners.pairs.set (pairKey operation) (operation.operationId, operation.byOperation)⟩
      match validateOperation snapshot authorization operation stateEntityId operationEntityId with
      | .ok validated => return ⟨owners, loop.validated ++ [validated], loop.diagnostics⟩
      | .error diagnostic => return ⟨owners, loop.validated, loop.diagnostics ++ [diagnostic]⟩

def validateSemanticMutationOperations (snapshot : ValidatedEngineeringIRSnapshot)
    (operations : List AddStateTransitionOperation) (authorization : SemanticMutationAuthorizationContent) :
    Except CodedFailure (List ValidatedAddStateTransitionOperation × List SemanticMutationDiagnostic) := do
  let loop ← operations.foldlM (validateNext snapshot authorization) ⟨⟨.empty, .empty⟩, [], []⟩
  return (sortBy (fun validated => validated.operation.operationId) loop.validated, loop.diagnostics)

/-!
## Verification policy

A planning context says which verifiers can run. It has to be bound to the impact and to the complete
list of required verification, and every verifier has to be runnable and isolated.
-/

/-! ### Requirements -/

def requirementLooksValid : VerificationRequirement → Bool
  | .acceptance acceptanceEntityId => nonEmptyString acceptanceEntityId
  | .selector target => nonEmptyString target && !([unit '!'] <+: target : Bool) && !([unit '-'] <+: target : Bool)
  | .pass passId => nonEmptyString passId

def capabilityLooksValid (capability : SemanticMutationVerificationCapability) : Bool :=
  requirementLooksValid capability.requirement

def verificationPlanningDiagnostic (message : Text) (details : Option Value := none) : SemanticMutationDiagnostic :=
  mutationDiagnostic "SEMANTIC-MUTATION-010" .impactVerification message details

section Revisions

variable [Sha256]

def semanticMutationRequiredVerificationDigest (requirements : List VerificationRequirement) : Text := sha256 (.obj [
  ("domain", .str "semantic-mutation-required-verification-v1"),
  ("requirements", .arr (requirements.map VerificationRequirement.toValue))])

/-- The revision of a context with these capabilities. -/
def planningRevision (context : SemanticMutationVerificationPlanningContext)
    (capabilities : List SemanticMutationVerificationCapability) : Text := sha256 (.obj [
  ("domain", .str "semantic-mutation-verification-planning-v1"),
  ("policyRevision", .str context.policyRevision),
  ("adapterId", .str context.adapterId),
  ("adapterRevision", .str context.adapterRevision),
  ("impactRevision", .str context.impactRevision),
  ("requiredVerificationDigest", .str context.requiredVerificationDigest),
  ("uncertaintyStatus", .str (if context.blocked then "blocked" else "covered")),
  ("capabilities", .arr (capabilities.map SemanticMutationVerificationCapability.toValue))])

/-! ### Evaluation -/

/-- The frozen schema of a context. -/
def planningContextLooksValid (context : SemanticMutationVerificationPlanningContext) : Bool :=
  decide (context.policyRevision = SEMANTIC_MUTATION_VERIFICATION_POLICY_REVISION) &&
    nonEmptyString context.adapterId && nonEmptyString context.adapterRevision &&
    context.capabilities.all capabilityLooksValid

def evaluateSemanticMutationVerificationPlanning (context : SemanticMutationVerificationPlanningContext)
    (impact : SemanticImpactPropagation) (requiredVerification : List VerificationRequirement) :
    List SemanticMutationDiagnostic :=
  if !planningContextLooksValid context then
    [verificationPlanningDiagnostic "Verification planning context violates the frozen v1 schema"]
  else
    let sortedCapabilities := sortBy (fun capability => verificationRequirementKey capability.requirement)
      context.capabilities
    let capabilityKeys := sortedCapabilities.map fun capability => verificationRequirementKey capability.requirement
    let expectedKeys := requiredVerification.map verificationRequirementKey
    let duplicate := (capabilityKeys.zip capabilityKeys.tail).any fun (previous, key) => key = previous
    let bound := decide (context.impactRevision = impact.impactRevision) &&
      decide (context.requiredVerificationDigest = semanticMutationRequiredVerificationDigest requiredVerification) &&
      decide (context.planningRevision = planningRevision context sortedCapabilities) &&
      !duplicate && canonicalEquals (texts capabilityKeys) (texts expectedKeys)
    let binding := if bound then [] else [verificationPlanningDiagnostic
      "Verification planning context does not exactly bind Impact and the complete requirement union"
      (some (.obj [
        ("impactRevision", .str impact.impactRevision),
        ("suppliedImpactRevision", .str context.impactRevision),
        ("expectedRequirementKeys", texts expectedKeys),
        ("suppliedCapabilityKeys", texts capabilityKeys)]))]
    let uncertainty := if context.blocked then [verificationPlanningDiagnostic
      "Verification policy blocks the canonical Impact uncertainty set"
      (some (.obj [("uncertaintyCount", .num (.ofNat impact.uncertainties.length))]))] else []
    let verifiers := (sortedCapabilities.filter fun capability => !capability.runnable || !capability.isolated).map
      fun capability => verificationPlanningDiagnostic
        "Every required verifier must be runnable and isolated before live publish"
        (some (.obj [
          ("requirement", capability.requirement.toValue),
          ("status", .str (if capability.runnable then "runnable" else "non-runnable")),
          ("isolated", .bool capability.isolated)]))
    binding ++ uncertainty ++ verifiers

end Revisions

end SecPlatform.Compiler.SemanticMutation
