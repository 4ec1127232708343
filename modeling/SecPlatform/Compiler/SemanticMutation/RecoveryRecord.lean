import SecPlatform.Compiler.SemanticMutation.NormalizeRequest
import SecPlatform.Compiler.SemanticMutation.Result
import SecPlatform.Semantics.Transaction

/-!
# Recovery records

The checker of a stored record. It reads the record by itself and against the record before it; the
revision of a record is taken of its fields in the order of their declaration.
-/

namespace SecPlatform.Compiler.SemanticMutation

open Contracts Semantics

/-! ## States -/

def isSemanticMutationRetainedTerminalState : SemanticMutationRecoveryState → Bool
  | .verified | .rolledBack => true
  | .prepared | .authoringCommitted | .recoveryRequired => false

def isSemanticMutationRecoveryTransitionAllowed (previous next : SemanticMutationRecoveryState) : Bool :=
  (SEMANTIC_MUTATION_RECOVERY_TRANSITIONS previous).contains next

/-- `Number.isSafeInteger(n) && n > 0`. -/
def isPositiveSafeInteger (n : Nat) : Bool := decide (0 < n) && decide (n < 2 ^ 53)

/-- The first record starts the sequence; each further one follows the record before it. -/
def validSequence (record : SemanticMutationRecoveryRecord) (previous : Option SemanticMutationRecoveryRecord) : Bool :=
  isPositiveSafeInteger record.sequence &&
    match previous with
    | none => decide (record.sequence = 1) && record.previousRecordRevision.isEmpty && decide (record.state = .prepared)
    | some previous => decide (record.sequence = previous.sequence + 1) &&
        decide (record.previousRecordRevision = previous.recordRevision) &&
        isSemanticMutationRecoveryTransitionAllowed previous.state record.state

def validTerminalSequence (record : SemanticMutationRecoveryRecordContent) : Bool :=
  if isSemanticMutationRetainedTerminalState record.state then record.terminalSequence.any isPositiveSafeInteger
  else record.terminalSequence.isNone

/-- The texts of a record that have to be digests. -/
def recordDigests (record : SemanticMutationRecoveryRecord) : List Text := [
  record.requestIdentityDigest, record.requestRevision, record.authorizationRevision, record.expectedPlanRevision,
  record.planRevision, record.editPlanRevision, record.rollbackManifestDigest, record.beforeByteDigest,
  record.committedByteDigest, record.verificationExecutionRevision, record.verificationReportRevision,
  record.recordRevision]

def hasResultStatus (record : SemanticMutationRecoveryRecordContent) (status : SemanticMutationResultStatus) : Bool :=
  record.result.any fun result => result.status = status

/-- The evidence of a record fits its state. -/
def assertTerminalEvidence (record : SemanticMutationRecoveryRecordContent) : Except Text Unit := do
  require ((record.state ≠ .prepared ∧ record.state ≠ .authoringCommitted) ∨
      (record.result = none ∧ record.recoveryState = none))
    "Active Semantic Mutation recovery record cannot contain terminal evidence"
  require (record.state ≠ .verified ∨ hasResultStatus record .accepted)
    "Verified recovery record requires an accepted terminal result"
  require (record.state ≠ .rolledBack ∨ hasResultStatus record .rolledBack)
    "Rolled-back recovery record requires a rolled-back terminal result"
  require (record.state ≠ .recoveryRequired ∨ (hasResultStatus record .recoveryRequired ∧
      record.recoveryState.isSome ∧ some record.recoveryState = record.result.map fun result => result.recoveryState))
    "Recovery-required record requires matching terminal evidence"
  require (record.state = .recoveryRequired ∨ record.recoveryState = none)
    "Only recovery-required records may contain a recovery failure state"

section Revisions

variable [Sha256]

def semanticMutationRequestIdentityDigest (identity : SemanticMutationRequestIdentity) : Text := sha256 (.obj [
  ("domain", .str "semantic-mutation-request-identity-v1"),
  ("graphId", .str identity.graphId),
  ("appId", .str identity.appId),
  ("requestId", .str identity.requestId)])

def semanticMutationRecoveryRecordRevision (record : SemanticMutationRecoveryRecordContent) : Text :=
  sha256 (.obj ((Text.ofString "domain", .str "semantic-mutation-recovery-record-v1") :: record.members))

/-! ## Bindings -/

def assertVerificationBinding (record : SemanticMutationRecoveryRecordContent) (plan : SemanticMutationPlannedRequest) :
    Except Text Unit :=
  let verification := record.verification
  require (nonEmptyString verification.adapterId && nonEmptyString verification.adapterRevision &&
      isDigest verification.reportRevision && decide (verification.status = .passed) &&
      decide (verification.adapterId = plan.verificationAdapterId) &&
      decide (verification.adapterRevision = plan.verificationAdapterRevision) &&
      decide (verification.planRevision = plan.planRevision) &&
      bindsStaged plan.toSemanticMutationPlanDraft verification.attempted &&
      decide (some verification.stagedSourceDigest =
        plan.sourceChanges.head?.map SemanticMutationSourceChange.stagedByteDigest) &&
      decide (verification.requiredVerificationDigest =
        semanticMutationRequiredVerificationDigest (plan.requiredVerification.getD [])) &&
      decide (verification.verificationExecutionRevision =
        semanticMutationVerificationExecutionRevision verification) &&
      decide (record.verificationExecutionRevision = verification.verificationExecutionRevision) &&
      decide (record.verificationReportRevision = verification.reportRevision))
    "Semantic Mutation recovery Verification is not bound to its plan/source/report"

/-- The identity of a record is that of its own request, plan and source change. -/
def identityIsBound (record : SemanticMutationRecoveryRecordContent) (request : NormalizedSemanticMutationRequest)
    (authorization : SemanticMutationAuthorizationContext) (plan : SemanticMutationPlannedRequest) : Bool :=
  exactBase record.base && exactBase record.staged &&
    decide (request.requestRevision = record.requestRevision) &&
    decide (authorization.authorizationRevision = record.authorizationRevision) &&
    decide (record.requestIdentityDigest =
      semanticMutationRequestIdentityDigest ⟨request.graphId, request.appId, request.requestId⟩) &&
    decide (record.requestRevision = plan.requestRevision) &&
    decide (record.authorizationRevision = plan.authorizationRevision) &&
    decide (record.expectedPlanRevision = plan.planRevision) && decide (record.planRevision = plan.planRevision) &&
    canonicalEquals record.base.toValue plan.base.toValue &&
    bindsStaged plan.toSemanticMutationPlanDraft record.staged &&
    canonicalEquals request.base.toValue record.base.toValue &&
    decide (some record.rollbackManifestDigest = plan.rollbackManifestDigest) &&
    decide (some record.relativePath = plan.sourceChanges.head?.map SemanticMutationSourceChange.relativePath) &&
    decide (some record.beforeByteDigest = plan.sourceChanges.head?.map SemanticMutationSourceChange.beforeByteDigest) &&
    decide (some record.committedByteDigest = plan.sourceChanges.head?.map SemanticMutationSourceChange.stagedByteDigest)

variable [EnglishLowerCase]

/-- The result of a record is one of its plan, of its transaction and with its diagnostics. -/
def assertResultBinding (record : SemanticMutationRecoveryRecordContent) (result : SemanticMutationResult) :
    Except Text Unit := do
  assertSemanticMutationResultInvariant result record.plan
  require (result.transactionId = some record.transactionId ∧
      canonicalEquals (diagnosticsValue result.diagnostics) (diagnosticsValue record.diagnostics))
    "Semantic Mutation recovery result does not bind its transaction/diagnostics"

def thrownMessage {α : Type} (parsed : Parsed α) : Except Text α := parsed.mapError SemanticMutationDiagnostic.message

def assertRecoveryCrossBindings (record : SemanticMutationRecoveryRecordContent) : Except Text Unit := do
  assertSemanticMutationPlanInvariant record.plan
  match record.plan with
  | .request _ => throw (Text.ofString "Semantic Mutation recovery record cannot bind a rejected plan")
  | .planned plan => do
      require (plan.rejectedAt = none) "Semantic Mutation recovery record cannot bind a rejected plan"
      let request ← thrownMessage (normalizeSemanticMutationRequest record.request)
      let authorization ← thrownMessage (normalizeSemanticMutationAuthorization record.authorization)
      require (identityIsBound record request authorization plan)
        "Semantic Mutation recovery identity/revision/source bindings are inconsistent"
      assertVerificationBinding record plan
      match record.result with
      | none => pure ()
      | some result => assertResultBinding record result

/-! ## The invariant -/

def assertSemanticMutationRecoveryRecordInvariant (record : SemanticMutationRecoveryRecord)
    (previous : Option SemanticMutationRecoveryRecord) : Except Text Unit := do
  require (decide (record.formatRevision = SEMANTIC_MUTATION_RECOVERY_RECORD_REVISION) &&
      validSequence record previous && nonEmptyString record.transactionId && nonEmptyString record.relativePath &&
      (recordDigests record).all isDigest && validTerminalSequence record.toSemanticMutationRecoveryRecordContent)
    "Semantic Mutation recovery record revision chain or content is invalid"
  require (canonicalEquals (diagnosticsValue record.diagnostics)
        (diagnosticsValue (← canonicalDiagnostics record.diagnostics)) &&
      decide (record.recordRevision =
        semanticMutationRecoveryRecordRevision record.toSemanticMutationRecoveryRecordContent))
    "Semantic Mutation recovery record revision chain or content is invalid"
  assertTerminalEvidence record.toSemanticMutationRecoveryRecordContent
  assertRecoveryCrossBindings record.toSemanticMutationRecoveryRecordContent

/-- Records accepted one after another, each against the record before it. -/
def assertRecoveryRecords : Option SemanticMutationRecoveryRecord → List SemanticMutationRecoveryRecord → Except Text Unit
  | _, [] => .ok ()
  | previous, record :: records => do
      assertSemanticMutationRecoveryRecordInvariant record previous
      assertRecoveryRecords (some record) records

end Revisions

end SecPlatform.Compiler.SemanticMutation
