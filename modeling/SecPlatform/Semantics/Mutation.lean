import SecPlatform.Semantics.Impact

/-!
# Semantic mutations

Requests, authorizations, plans and results of semantic mutations.
-/

namespace SecPlatform.Semantics

open Contracts

def SEMANTIC_MUTATION_CONTRACT_VERSION : Text := "2"
def SEMANTIC_MUTATION_OPERATION_REGISTRY_REVISION : Text := "semantic-mutation-operations-v1"
def SEMANTIC_MUTATION_EXPECTATION_REVISION : Text := "semantic-mutation-expectation-v1"
def SEMANTIC_MUTATION_VERIFICATION_POLICY_REVISION : Text := "semantic-mutation-verification-policy-v1"

/-! ## Requests -/

structure SemanticMutationBase where
  transactionId : Text
  inputRevision : Text
  semanticRevision : Text
  deriving DecidableEq

def SemanticMutationBase.toValue (b : SemanticMutationBase) : Value := .obj [
  ("transactionId", .str b.transactionId),
  ("inputRevision", .str b.inputRevision),
  ("semanticRevision", .str b.semanticRevision)]

structure SemanticContractRef where
  namespaceId : Text
  contractId : Text
  deriving DecidableEq

/-- The last three fields are `from`, `to` and `by`. -/
structure AddStateTransitionOperation where
  operationId : Text
  contract : SemanticContractRef
  stateId : Text
  fromState : Text
  toState : Text
  byOperation : Text
  deriving DecidableEq

/-- The only kind of operation. -/
def AddStateTransitionOperation.kind (_ : AddStateTransitionOperation) : Text := "add-state-transition"

def AddStateTransitionOperation.toValue (o : AddStateTransitionOperation) : Value := .obj [
  ("operationId", .str o.operationId),
  ("kind", .str o.kind),
  ("contract", .obj [("namespace", .str o.contract.namespaceId), ("contractId", .str o.contract.contractId)]),
  ("stateId", .str o.stateId),
  ("from", .str o.fromState),
  ("to", .str o.toState),
  ("by", .str o.byOperation)]

structure SemanticFactSelector where
  subject : Text
  predicate : SemanticPredicate
  object : SemanticFactObject
  deriving DecidableEq

def SemanticFactSelector.toValue (s : SemanticFactSelector) : Value := .obj [
  ("subject", .str s.subject),
  ("predicate", .str s.predicate.toText),
  ("object", s.object.toValue)]

inductive SemanticMutationConditionTarget where
  | entity (entityId : Text) (entityKind : Option SemanticEntityKind) (canonicalEntityDigest : Option Text)
  | fact (fact : SemanticFactSelector)
  | assertion (fact : SemanticFactSelector) (assertionId : Text) (canonicalAssertionDigest : Option Text)
  deriving DecidableEq

structure SemanticMutationCondition where
  conditionId : Text
  target : SemanticMutationConditionTarget
  expected : Bool
  deriving DecidableEq

/-- `expected` is the field `exists`. -/
def SemanticMutationCondition.toValue (c : SemanticMutationCondition) : Value :=
  match c.target with
  | .entity entityId entityKind digest => .obj (present [
      ("conditionId", some (.str c.conditionId)),
      ("kind", some (.str "entity")),
      ("entityId", some (.str entityId)),
      ("exists", some (.bool c.expected)),
      ("entityKind", entityKind.map fun kind => .str kind.toText),
      ("canonicalEntityDigest", digest.map .str)])
  | .fact fact => .obj [
      ("conditionId", .str c.conditionId),
      ("kind", .str "fact"),
      ("fact", fact.toValue),
      ("exists", .bool c.expected)]
  | .assertion fact assertionId digest => .obj (present [
      ("conditionId", some (.str c.conditionId)),
      ("kind", some (.str "assertion")),
      ("fact", some fact.toValue),
      ("assertionId", some (.str assertionId)),
      ("exists", some (.bool c.expected)),
      ("canonicalAssertionDigest", digest.map .str)])

structure ExpectedFactAssertion where
  assertionId : Text
  assertionClaimDigest : Text
  deriving DecidableEq

def ExpectedFactAssertion.toValue (a : ExpectedFactAssertion) : Value := .obj [
  ("assertionId", .str a.assertionId),
  ("assertionClaimDigest", .str a.assertionClaimDigest)]

structure ExpectedSemanticFact where
  fact : SemanticFactSelector
  assertions : List ExpectedFactAssertion
  deriving DecidableEq

def ExpectedSemanticFact.toValue (f : ExpectedSemanticFact) : Value := .obj [
  ("fact", f.fact.toValue),
  ("assertions", .arr (f.assertions.map ExpectedFactAssertion.toValue))]

inductive ExpectedChange where
  | added (assertionClaimDigest : Text)
  | removed (assertionClaimDigest : Text)
  | updated (changedFields : List FactAssertionUpdateField) (beforeAssertionClaimDigest afterAssertionClaimDigest : Text)
  deriving DecidableEq

def ExpectedChange.kind : ExpectedChange → Text
  | .added _ => "added"
  | .removed _ => "removed"
  | .updated _ _ _ => "updated"

structure ExpectedFactAssertionChange where
  fact : SemanticFactSelector
  assertionId : Text
  change : ExpectedChange
  deriving DecidableEq

def ExpectedFactAssertionChange.toValue (c : ExpectedFactAssertionChange) : Value :=
  match c.change with
  | .added digest | .removed digest => .obj [
      ("fact", c.fact.toValue),
      ("assertionId", .str c.assertionId),
      ("kind", .str c.change.kind),
      ("assertionClaimDigest", .str digest)]
  | .updated fields before after => .obj [
      ("fact", c.fact.toValue),
      ("assertionId", .str c.assertionId),
      ("kind", .str c.change.kind),
      ("changedFields", texts (fields.map FactAssertionUpdateField.toText)),
      ("beforeAssertionClaimDigest", .str before),
      ("afterAssertionClaimDigest", .str after)]

/-- Its revision, its match mode `exact` and its entity changes `none` are frozen. -/
structure SemanticMutationExpectation where
  addedFacts : List ExpectedSemanticFact
  removedFacts : List ExpectedSemanticFact
  assertionChanges : List ExpectedFactAssertionChange
  deriving DecidableEq

def SemanticMutationExpectation.toValue (e : SemanticMutationExpectation) : Value := .obj [
  ("revision", .str SEMANTIC_MUTATION_EXPECTATION_REVISION),
  ("matchMode", .str "exact"),
  ("addedFacts", .arr (e.addedFacts.map ExpectedSemanticFact.toValue)),
  ("removedFacts", .arr (e.removedFacts.map ExpectedSemanticFact.toValue)),
  ("assertionChanges", .arr (e.assertionChanges.map ExpectedFactAssertionChange.toValue)),
  ("entityChanges", .str "none")]

inductive VerificationRequirement where
  | acceptance (acceptanceEntityId : Text)
  | selector (target : Text)
  | pass (passId : Text)
  deriving DecidableEq

def VerificationRequirement.toValue : VerificationRequirement → Value
  | .acceptance acceptanceEntityId => .obj [("kind", .str "acceptance"), ("acceptanceEntityId", .str acceptanceEntityId)]
  | .selector target => .obj [("kind", .str "selector"), ("selector", .str target)]
  | .pass passId => .obj [("kind", .str "pass"), ("passId", .str passId)]

/-- Its contract version is frozen. -/
structure SemanticMutationRequest where
  requestId : Text
  graphId : Text
  appId : Text
  base : SemanticMutationBase
  preconditions : List SemanticMutationCondition
  operations : List AddStateTransitionOperation
  expectation : SemanticMutationExpectation
  postconditions : List SemanticMutationCondition
  additionalVerification : List VerificationRequirement
  deriving DecidableEq

structure NormalizedSemanticMutationRequest extends SemanticMutationRequest where
  requestRevision : Text
  deriving DecidableEq

/-- An authorization before its revision. -/
structure SemanticMutationAuthorizationContent where
  taskId : Option Text
  envelopeRevision : Option Text
  allowedOperationKinds : List Text
  allowedTargetEntityIds : List Text
  allowedSourceOwnerIds : List Text
  allowedPathPrefixes : List Text
  requiredPreconditions : List SemanticMutationCondition
  requiredPostconditions : List SemanticMutationCondition
  minimumVerification : List VerificationRequirement
  deriving DecidableEq

structure SemanticMutationAuthorizationContext extends SemanticMutationAuthorizationContent where
  authorizationRevision : Text
  deriving DecidableEq

/-! ## Diagnostics -/

inductive SemanticMutationDiagnosticOrigin where
  | semanticMutation | factDelta | impact | compiler | verification
  deriving DecidableEq, Repr

def SemanticMutationDiagnosticOrigin.toText : SemanticMutationDiagnosticOrigin → Text
  | .semanticMutation => "semantic-mutation"
  | .factDelta => "fact-delta"
  | .impact => "impact"
  | .compiler => "compiler"
  | .verification => "verification"

inductive SemanticMutationDiagnosticStage where
  | request | base | precondition | sourceResolution | path | transform | cas | stagedRebuild | factDelta
  | expectation | impact | impactVerification | publish | rollback
  deriving DecidableEq, Repr

def SemanticMutationDiagnosticStage.toText : SemanticMutationDiagnosticStage → Text
  | .request => "request"
  | .base => "base"
  | .precondition => "precondition"
  | .sourceResolution => "source-resolution"
  | .path => "path"
  | .transform => "transform"
  | .cas => "cas"
  | .stagedRebuild => "staged-rebuild"
  | .factDelta => "fact-delta"
  | .expectation => "expectation"
  | .impact => "impact"
  | .impactVerification => "impact-verification"
  | .publish => "publish"
  | .rollback => "rollback"

/-- The details of a diagnostic may be any tree. -/
structure SemanticMutationDiagnostic where
  origin : SemanticMutationDiagnosticOrigin
  code : Text
  stage : SemanticMutationDiagnosticStage
  message : Text
  operationId : Option Text
  conditionId : Option Text
  relativePath : Option Text
  details : Option Value
  deriving DecidableEq

def SemanticMutationDiagnostic.toValue (d : SemanticMutationDiagnostic) : Value := .obj (present [
  ("origin", some (.str d.origin.toText)),
  ("code", some (.str d.code)),
  ("stage", some (.str d.stage.toText)),
  ("message", some (.str d.message)),
  ("operationId", d.operationId.map .str),
  ("conditionId", d.conditionId.map .str),
  ("relativePath", d.relativePath.map .str),
  ("details", d.details)])

/-! ## Preparation and verification planning -/

structure SemanticMutationSourceChange where
  ownerId : Text
  adapterId : Text
  adapterRevision : Text
  relativePath : Text
  beforeByteDigest : Text
  stagedByteDigest : Text
  invalidationFromStage : Text
  deriving DecidableEq

def SemanticMutationSourceChange.toValue (c : SemanticMutationSourceChange) : Value := .obj [
  ("ownerId", .str c.ownerId),
  ("adapterId", .str c.adapterId),
  ("adapterRevision", .str c.adapterRevision),
  ("relativePath", .str c.relativePath),
  ("beforeByteDigest", .str c.beforeByteDigest),
  ("stagedByteDigest", .str c.stagedByteDigest),
  ("invalidationFromStage", .str c.invalidationFromStage)]

inductive SemanticMutationPreparationRejectedAt where
  | sourceResolution | path | transform | cas | stagedRebuild
  deriving DecidableEq, Repr

def SemanticMutationPreparationRejectedAt.stage : SemanticMutationPreparationRejectedAt → SemanticMutationDiagnosticStage
  | .sourceResolution => .sourceResolution
  | .path => .path
  | .transform => .transform
  | .cas => .cas
  | .stagedRebuild => .stagedRebuild

/-- What the source adapter reports. -/
inductive SemanticMutationPreparation where
  | prepared (preflightRevision : Text) (sourceChanges : List SemanticMutationSourceChange)
      (staged : FactDeltaEndpointContext) (rollbackManifestDigest : Text)
  | rejected (preflightRevision : Text) (rejectedAt : SemanticMutationPreparationRejectedAt)
      (diagnostics : List SemanticMutationDiagnostic)

def SemanticMutationPreparation.preflightRevision : SemanticMutationPreparation → Text
  | .prepared revision _ _ _ | .rejected revision _ _ => revision

structure SemanticMutationVerificationCapability where
  requirement : VerificationRequirement
  runnable : Bool
  isolated : Bool
  deriving DecidableEq

/-- `runnable` is the status. -/
def SemanticMutationVerificationCapability.toValue (c : SemanticMutationVerificationCapability) : Value := .obj [
  ("requirement", c.requirement.toValue),
  ("status", .str (if c.runnable then "runnable" else "non-runnable")),
  ("isolated", .bool c.isolated)]

/-- `blocked` is the uncertainty status. -/
structure SemanticMutationVerificationPlanningContext where
  policyRevision : Text
  adapterId : Text
  adapterRevision : Text
  impactRevision : Text
  requiredVerificationDigest : Text
  blocked : Bool
  capabilities : List SemanticMutationVerificationCapability
  planningRevision : Text
  deriving DecidableEq

/-! ## Plans -/

inductive SemanticMutationRisk where
  | low | medium | high | critical
  deriving DecidableEq, Repr

def SemanticMutationRisk.toText : SemanticMutationRisk → Text
  | .low => "low"
  | .medium => "medium"
  | .high => "high"
  | .critical => "critical"

/-- A plan for a request that could not be read. -/
structure SemanticMutationRequestRejection where
  contractVersion : Text
  requestId : Option Text
  diagnostics : List SemanticMutationDiagnostic
  diagnosticRevision : Text
  deriving DecidableEq

/-- A plan is ready or names the stage that rejected it; which evidence is present depends on that. -/
structure SemanticMutationPlanDraft where
  contractVersion : Text
  requestId : Text
  requestRevision : Text
  authorizationRevision : Text
  operationRegistryRevision : Text
  expectationRevision : Text
  verificationPolicyRevision : Text
  verificationAdapterId : Text
  verificationAdapterRevision : Text
  verificationPlanningRevision : Text
  base : SemanticMutationBase
  rejectedAt : Option SemanticMutationDiagnosticStage
  sourceChanges : List SemanticMutationSourceChange
  staged : Option SemanticMutationBase
  actualDelta : Option FactDelta
  impact : Option SemanticImpactPropagation
  risk : Option SemanticMutationRisk
  requiredVerification : Option (List VerificationRequirement)
  rollbackManifestDigest : Option Text
  diagnostics : List SemanticMutationDiagnostic
  deriving DecidableEq

structure SemanticMutationPlannedRequest extends SemanticMutationPlanDraft where
  planRevision : Text
  deriving DecidableEq

inductive SemanticMutationPlan where
  | request (rejection : SemanticMutationRequestRejection)
  | planned (plan : SemanticMutationPlannedRequest)
  deriving DecidableEq

/-- The members of a plan. -/
def SemanticMutationPlannedRequest.toValue (p : SemanticMutationPlannedRequest) : Value := .obj (present [
  ("contractVersion", some (.str p.contractVersion)),
  ("requestId", some (.str p.requestId)),
  ("requestRevision", some (.str p.requestRevision)),
  ("authorizationRevision", some (.str p.authorizationRevision)),
  ("operationRegistryRevision", some (.str p.operationRegistryRevision)),
  ("expectationRevision", some (.str p.expectationRevision)),
  ("verificationPolicyRevision", some (.str p.verificationPolicyRevision)),
  ("verificationAdapterId", some (.str p.verificationAdapterId)),
  ("verificationAdapterRevision", some (.str p.verificationAdapterRevision)),
  ("verificationPlanningRevision", some (.str p.verificationPlanningRevision)),
  ("base", some p.base.toValue),
  ("status", some (.str (if p.rejectedAt.isSome then "rejected" else "ready"))),
  ("rejectedAt", p.rejectedAt.map fun stage => .str stage.toText),
  ("sourceChanges", some (.arr (p.sourceChanges.map SemanticMutationSourceChange.toValue))),
  ("staged", p.staged.map SemanticMutationBase.toValue),
  ("actualDelta", p.actualDelta.map FactDelta.toValue),
  ("impact", p.impact.map SemanticImpactPropagation.toValue),
  ("risk", p.risk.map fun risk => .str risk.toText),
  ("requiredVerification", p.requiredVerification.map fun rs => .arr (rs.map VerificationRequirement.toValue)),
  ("rollbackManifestDigest", p.rollbackManifestDigest.map .str),
  ("diagnostics", some (.arr (p.diagnostics.map SemanticMutationDiagnostic.toValue))),
  ("planRevision", some (.str p.planRevision))])

def SemanticMutationRequestRejection.toValue (r : SemanticMutationRequestRejection) : Value := .obj (present [
  ("contractVersion", some (.str r.contractVersion)),
  ("requestId", r.requestId.map .str),
  ("status", some (.str "rejected")),
  ("rejectedAt", some (.str "request")),
  ("diagnostics", some (.arr (r.diagnostics.map SemanticMutationDiagnostic.toValue))),
  ("diagnosticRevision", some (.str r.diagnosticRevision))])

def SemanticMutationPlan.toValue : SemanticMutationPlan → Value
  | .request rejection => rejection.toValue
  | .planned plan => plan.toValue

/-! ## Results -/

inductive VerificationStatus where
  | passed | failed | blocked
  deriving DecidableEq, Repr

def VerificationStatus.toText : VerificationStatus → Text
  | .passed => "passed"
  | .failed => "failed"
  | .blocked => "blocked"

structure SemanticMutationVerificationExecutionRef where
  adapterId : Text
  adapterRevision : Text
  reportRevision : Text
  planRevision : Text
  attempted : SemanticMutationBase
  stagedSourceDigest : Text
  requiredVerificationDigest : Text
  status : VerificationStatus
  verificationExecutionRevision : Text
  deriving DecidableEq

/-- The members under the revision of the reference. -/
def SemanticMutationVerificationExecutionRef.members (v : SemanticMutationVerificationExecutionRef) :
    List (Text × Value) := [
  ("adapterId", .str v.adapterId),
  ("adapterRevision", .str v.adapterRevision),
  ("reportRevision", .str v.reportRevision),
  ("planRevision", .str v.planRevision),
  ("attempted", v.attempted.toValue),
  ("stagedSourceDigest", .str v.stagedSourceDigest),
  ("requiredVerificationDigest", .str v.requiredVerificationDigest),
  ("status", .str v.status.toText)]

def SemanticMutationVerificationExecutionRef.toValue (v : SemanticMutationVerificationExecutionRef) : Value :=
  .obj (v.members ++ [(Text.ofString "verificationExecutionRevision", .str v.verificationExecutionRevision)])

inductive SemanticMutationRecoveryFailureState where
  | rollbackFailed | restoreValidationFailed | rebuildFailed | concurrentWrite
  deriving DecidableEq, Repr

def SemanticMutationRecoveryFailureState.toText : SemanticMutationRecoveryFailureState → Text
  | .rollbackFailed => "rollback-failed"
  | .restoreValidationFailed => "restore-validation-failed"
  | .rebuildFailed => "rebuild-failed"
  | .concurrentWrite => "concurrent-write"

inductive SemanticMutationResultStatus where
  | accepted | rejected | rolledBack | recoveryRequired
  deriving DecidableEq, Repr

def SemanticMutationResultStatus.toText : SemanticMutationResultStatus → Text
  | .accepted => "accepted"
  | .rejected => "rejected"
  | .rolledBack => "rolled-back"
  | .recoveryRequired => "recovery-required"

/-- A result before its revision; which evidence is present depends on the status. -/
structure SemanticMutationResultDraft where
  contractVersion : Text
  requestId : Text
  requestRevision : Text
  planRevision : Text
  base : SemanticMutationBase
  status : SemanticMutationResultStatus
  transactionId : Option Text
  attempted : Option SemanticMutationBase
  accepted : Option SemanticMutationBase
  actualDelta : Option FactDelta
  impact : Option SemanticImpactPropagation
  sourceChanges : List SemanticMutationSourceChange
  verification : Option SemanticMutationVerificationExecutionRef
  recoveryState : Option SemanticMutationRecoveryFailureState
  diagnostics : List SemanticMutationDiagnostic
  deriving DecidableEq

structure SemanticMutationResult extends SemanticMutationResultDraft where
  resultRevision : Text
  deriving DecidableEq

/-- The members under the revision of a result. -/
def SemanticMutationResultDraft.members (r : SemanticMutationResultDraft) : List (Text × Value) := present [
  ("contractVersion", some (.str r.contractVersion)),
  ("requestId", some (.str r.requestId)),
  ("requestRevision", some (.str r.requestRevision)),
  ("planRevision", some (.str r.planRevision)),
  ("base", some r.base.toValue),
  ("status", some (.str r.status.toText)),
  ("transactionId", r.transactionId.map .str),
  ("attempted", r.attempted.map SemanticMutationBase.toValue),
  ("accepted", r.accepted.map SemanticMutationBase.toValue),
  ("actualDelta", r.actualDelta.map FactDelta.toValue),
  ("impact", r.impact.map SemanticImpactPropagation.toValue),
  ("sourceChanges", some (.arr (r.sourceChanges.map SemanticMutationSourceChange.toValue))),
  ("verification", r.verification.map SemanticMutationVerificationExecutionRef.toValue),
  ("recoveryState", r.recoveryState.map fun state => .str state.toText),
  ("diagnostics", some (.arr (r.diagnostics.map SemanticMutationDiagnostic.toValue)))]

def SemanticMutationResult.toValue (r : SemanticMutationResult) : Value :=
  .obj (r.members ++ [(Text.ofString "resultRevision", .str r.resultRevision)])

/-- What the writer of a terminal knows. -/
inductive SemanticMutationTerminalEvidence where
  | accepted (transactionId : Text) (attempted accepted : SemanticMutationBase)
      (verification : SemanticMutationVerificationExecutionRef)
  | rejected (transactionId : Option Text) (attempted : Option SemanticMutationBase)
      (verification : Option SemanticMutationVerificationExecutionRef) (diagnostics : List SemanticMutationDiagnostic)
  | rolledBack (transactionId : Text) (attempted : SemanticMutationBase)
      (verification : SemanticMutationVerificationExecutionRef) (diagnostics : List SemanticMutationDiagnostic)
  | recoveryRequired (transactionId : Text) (attempted : SemanticMutationBase)
      (verification : SemanticMutationVerificationExecutionRef) (recoveryState : SemanticMutationRecoveryFailureState)
      (diagnostics : List SemanticMutationDiagnostic)

end SecPlatform.Semantics
