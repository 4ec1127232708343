import SecPlatform.Compiler.SemanticMutation.OperationRegistry

/-!
# The invariant of a plan

A plan is ready or names the stage that rejected it. What it may and must carry depends on that stage; the
revision of a plan is taken of all it carries.
-/

namespace SecPlatform.Compiler.SemanticMutation

open Contracts Semantics

/-! ## Keys -/

/-- The keys that a plan may have besides the common ones. -/
inductive PlanKey where
  | rejectedAt | sourceChanges | staged | actualDelta | impact | risk | requiredVerification | rollbackManifestDigest
  deriving DecidableEq, Repr

def PLAN_KEYS : List PlanKey := [
  .rejectedAt, .sourceChanges, .staged, .actualDelta, .impact, .risk, .requiredVerification, .rollbackManifestDigest]

def hasKey (plan : SemanticMutationPlanDraft) : PlanKey → Bool
  | .rejectedAt => plan.rejectedAt.isSome
  | .sourceChanges => true
  | .staged => plan.staged.isSome
  | .actualDelta => plan.actualDelta.isSome
  | .impact => plan.impact.isSome
  | .risk => plan.risk.isSome
  | .requiredVerification => plan.requiredVerification.isSome
  | .rollbackManifestDigest => plan.rollbackManifestDigest.isSome

def exactKeys (plan : SemanticMutationPlanDraft) (variant : List PlanKey) : Bool :=
  PLAN_KEYS.all fun key => hasKey plan key == variant.contains key

/-! ## Revision -/

def planPayload (draft : SemanticMutationPlanDraft) : Value := .obj [
  ("domain", .str "semantic-mutation-plan-v2"),
  ("contractVersion", .str draft.contractVersion),
  ("status", .str (if draft.rejectedAt.isSome then "rejected" else "ready")),
  ("rejectedAt", .str (draft.rejectedAt.elim [] SemanticMutationDiagnosticStage.toText)),
  ("requestId", .str draft.requestId),
  ("requestRevision", .str draft.requestRevision),
  ("authorizationRevision", .str draft.authorizationRevision),
  ("base", draft.base.toValue),
  ("operationRegistryRevision", .str draft.operationRegistryRevision),
  ("expectationRevision", .str draft.expectationRevision),
  ("verificationPolicyRevision", .str draft.verificationPolicyRevision),
  ("verificationAdapterId", .str draft.verificationAdapterId),
  ("verificationAdapterRevision", .str draft.verificationAdapterRevision),
  ("verificationPlanningRevision", .str draft.verificationPlanningRevision),
  ("sourceChanges", .arr (draft.sourceChanges.map SemanticMutationSourceChange.toValue)),
  ("staged", draft.staged.elim .null SemanticMutationBase.toValue),
  ("actualDeltaRevision", .str (draft.actualDelta.elim [] FactDelta.deltaRevision)),
  ("impactRevision", .str (draft.impact.elim [] SemanticImpactPropagation.impactRevision)),
  ("risk", .str (draft.risk.elim [] SemanticMutationRisk.toText)),
  ("requiredVerification", .arr ((draft.requiredVerification.getD []).map VerificationRequirement.toValue)),
  ("rollbackManifestDigest", .str (draft.rollbackManifestDigest.getD [])),
  ("diagnostics", diagnosticsValue draft.diagnostics)]

def semanticMutationPlanRevision [Sha256] (draft : SemanticMutationPlanDraft) : Text := sha256 (planPayload draft)

/-! ## Parts -/

def exactBase (base : SemanticMutationBase) : Bool :=
  nonEmptyString base.transactionId && nonEmptyString base.inputRevision && nonEmptyString base.semanticRevision

def notBlank (value : Text) : Bool := decide (value.trim ≠ [])

def validSourceChange (change : SemanticMutationSourceChange) : Bool :=
  decide (change.invalidationFromStage = "resolve") &&
    [change.ownerId, change.adapterId, change.adapterRevision, change.relativePath, change.beforeByteDigest,
      change.stagedByteDigest].all notBlank &&
    isDigest change.beforeByteDigest && isDigest change.stagedByteDigest

def assertSourceStage (plan : SemanticMutationPlanDraft) : Except Text Unit :=
  match plan.sourceChanges, plan.staged, plan.rollbackManifestDigest with
  | [change], some staged, some rollbackManifestDigest =>
      require (validSourceChange change && exactBase staged && isDigest rollbackManifestDigest)
        "Staged semantic mutation plan violates source/staged/rollback invariants"
  | _, _, _ => .error "Staged semantic mutation plan violates source/staged/rollback invariants"

def bindsEndpoint (endpoint : FactDeltaEndpoint) (base : SemanticMutationBase) : Bool :=
  decide (endpoint.transactionId = base.transactionId) && decide (endpoint.inputRevision = base.inputRevision) &&
    decide (endpoint.semanticRevision = base.semanticRevision)

def assertDeltaBinding (plan : SemanticMutationPlanDraft) : Except Text Unit :=
  match plan.actualDelta, plan.staged with
  | some delta, some staged =>
      require (bindsEndpoint delta.fromEndpoint plan.base && bindsEndpoint delta.toEndpoint staged)
        "Semantic mutation Fact Delta does not bind plan endpoints"
  | _, _ => .error "Semantic mutation Fact Delta does not bind plan endpoints"

def assertImpactBinding (plan : SemanticMutationPlanDraft) : Except Text Unit :=
  match plan.impact, plan.actualDelta, plan.staged with
  | some impact, some delta, some staged =>
      require (impact.deltaRevision = delta.deltaRevision ∧
          impact.fromSemanticRevision = plan.base.semanticRevision ∧
          impact.toSemanticRevision = staged.semanticRevision)
        "Semantic mutation Impact does not bind the canonical Fact Delta/endpoints"
  | _, _, _ => .error "Semantic mutation Impact does not bind the canonical Fact Delta/endpoints"

def requirementsValue (requirements : List VerificationRequirement) : Value :=
  .arr (requirements.map VerificationRequirement.toValue)

def assertVerification (plan : SemanticMutationPlanDraft) : Except Text Unit :=
  match plan.requiredVerification with
  | some requirements =>
      require (nonEmptyString plan.verificationAdapterId && nonEmptyString plan.verificationAdapterRevision &&
          isDigest plan.verificationPlanningRevision && !requirements.isEmpty &&
          canonicalEquals (requirementsValue requirements) (requirementsValue (canonicalVerificationUnion [requirements])))
        "Semantic mutation verification planning fields are incomplete or non-canonical"
  | none => .error "Semantic mutation verification planning fields are incomplete or non-canonical"

def withoutVerificationAdapter (plan : SemanticMutationPlanDraft) : Bool :=
  plan.verificationAdapterId.isEmpty && plan.verificationAdapterRevision.isEmpty &&
    plan.verificationPlanningRevision.isEmpty

/-! ## Ready and rejected plans -/

def assertReadyPlan (plan : SemanticMutationPlanDraft) : Except Text Unit := do
  require (exactKeys plan [.sourceChanges, .staged, .actualDelta, .impact, .risk, .requiredVerification,
      .rollbackManifestDigest] && plan.diagnostics.isEmpty && decide (plan.risk = some .high))
    "Ready semantic mutation plan violates v1 evidence invariants"
  assertSourceStage plan
  assertDeltaBinding plan
  assertImpactBinding plan
  assertVerification plan

def earliestDiagnosticStage (diagnostics : List SemanticMutationDiagnostic) : Option SemanticMutationDiagnosticStage :=
  ((sortBy (fun d => stageIndex d.stage) diagnostics).head?).map SemanticMutationDiagnostic.stage

def EARLY_STAGES : List SemanticMutationDiagnosticStage := [
  .base, .precondition, .sourceResolution, .path, .transform, .cas, .stagedRebuild]

def assertRejectedPlan (plan : SemanticMutationPlanDraft) (rejectedAt : SemanticMutationDiagnosticStage) :
    Except Text Unit := do
  require (!plan.diagnostics.isEmpty) "Rejected semantic mutation plan requires non-empty diagnostics"
  require (earliestDiagnosticStage plan.diagnostics = some rejectedAt)
    "Rejected semantic mutation diagnostics do not match rejectedAt precedence"
  if rejectedAt ∈ EARLY_STAGES then
    require (exactKeys plan [.rejectedAt, .sourceChanges] && plan.sourceChanges.isEmpty && withoutVerificationAdapter plan)
      "Early rejected semantic mutation plan leaks partial later-stage evidence"
  else
    assertSourceStage plan
    if rejectedAt = .factDelta then
      require (exactKeys plan [.rejectedAt, .sourceChanges, .staged, .rollbackManifestDigest] &&
          withoutVerificationAdapter plan)
        "Fact Delta rejection violates staged evidence boundaries"
    else if rejectedAt = .expectation ∨ rejectedAt = .impact then
      require (exactKeys plan [.rejectedAt, .sourceChanges, .staged, .actualDelta, .rollbackManifestDigest] &&
          withoutVerificationAdapter plan)
        (Text.cat [rejectedAt.toText, " rejection violates producer evidence boundaries"])
      assertDeltaBinding plan
    else
      require (decide (rejectedAt = .impactVerification) && exactKeys plan [.rejectedAt, .sourceChanges, .staged,
          .actualDelta, .impact, .risk, .requiredVerification, .rollbackManifestDigest] &&
          decide (plan.risk = some .high))
        "Impact/Verification rejection violates complete evidence invariants"
      assertDeltaBinding plan
      assertImpactBinding plan
      assertVerification plan

section Invariant

variable [Sha256] [EnglishLowerCase]

def assertRequestRejection (rejection : SemanticMutationRequestRejection) : Except Text Unit := do
  require (rejection.contractVersion = SEMANTIC_MUTATION_CONTRACT_VERSION ∧ rejection.diagnostics ≠ [])
    "Minimal request rejection violates diagnostic invariants"
  require (canonicalEquals (diagnosticsValue rejection.diagnostics)
      (diagnosticsValue (← canonicalDiagnostics rejection.diagnostics)) &&
      decide (rejection.diagnosticRevision = (← diagnosticRevision rejection.diagnostics)))
    "Minimal request rejection violates diagnostic invariants"

def assertPlanBase (plan : SemanticMutationPlanDraft) : Except Text Unit := do
  require (decide (plan.contractVersion = SEMANTIC_MUTATION_CONTRACT_VERSION) &&
      nonEmptyString plan.requestId && isDigest plan.requestRevision && isDigest plan.authorizationRevision &&
      decide (plan.operationRegistryRevision = SEMANTIC_MUTATION_OPERATION_REGISTRY_REVISION) &&
      decide (plan.expectationRevision = SEMANTIC_MUTATION_EXPECTATION_REVISION) &&
      decide (plan.verificationPolicyRevision = SEMANTIC_MUTATION_VERIFICATION_POLICY_REVISION) &&
      exactBase plan.base)
    "Semantic mutation plan base or canonical diagnostics are invalid"
  require (canonicalEquals (diagnosticsValue plan.diagnostics) (diagnosticsValue (← canonicalDiagnostics plan.diagnostics)))
    "Semantic mutation plan base or canonical diagnostics are invalid"

def assertSemanticMutationPlanInvariant (plan : SemanticMutationPlan) : Except Text Unit :=
  match plan with
  | .request rejection => assertRequestRejection rejection
  | .planned plan => do
      assertPlanBase plan.toSemanticMutationPlanDraft
      require (plan.planRevision = semanticMutationPlanRevision plan.toSemanticMutationPlanDraft)
        "Semantic mutation planRevision does not match canonical plan content"
      match plan.rejectedAt with
      | none => assertReadyPlan plan.toSemanticMutationPlanDraft
      | some rejectedAt => assertRejectedPlan plan.toSemanticMutationPlanDraft rejectedAt

end Invariant

end SecPlatform.Compiler.SemanticMutation
