import SecPlatform.Compiler.SemanticMutation.PlanInvariant

/-!
# Terminal results

The result of a plan, built from what the writer of the terminal knows, and the checker that recovery runs
over a stored result. The revision of a result is taken of its fields in the order of their declaration.
-/

namespace SecPlatform.Compiler.SemanticMutation

open Contracts Semantics

/-! ## Parts of a result -/

def resultDiagnostic (message : Text) : SemanticMutationDiagnostic :=
  mutationDiagnostic "SEMANTIC-MUTATION-010" .impactVerification message

/-- What every result of a plan has. -/
def resultOf (plan : SemanticMutationPlannedRequest) (status : SemanticMutationResultStatus)
    (diagnostics : List SemanticMutationDiagnostic) : SemanticMutationResultDraft where
  contractVersion := SEMANTIC_MUTATION_CONTRACT_VERSION
  requestId := plan.requestId
  requestRevision := plan.requestRevision
  planRevision := plan.planRevision
  base := plan.base
  status := status
  transactionId := none
  attempted := none
  accepted := none
  actualDelta := plan.actualDelta
  impact := plan.impact
  sourceChanges := plan.sourceChanges
  verification := none
  recoveryState := none
  diagnostics := diagnostics

def isRejectedEvidence : SemanticMutationTerminalEvidence → Bool
  | .rejected _ _ _ _ => true
  | .accepted _ _ _ _ | .rolledBack _ _ _ _ | .recoveryRequired _ _ _ _ _ => false

/-! ### Keys -/

/-- The keys that a result may have besides the common ones. -/
inductive ResultKey where
  | transactionId | attempted | accepted | actualDelta | impact | verification | recoveryState
  deriving DecidableEq, Repr

def RESULT_KEYS : List ResultKey := [
  .transactionId, .attempted, .accepted, .actualDelta, .impact, .verification, .recoveryState]

def hasResultKey (result : SemanticMutationResultDraft) : ResultKey → Bool
  | .transactionId => result.transactionId.isSome
  | .attempted => result.attempted.isSome
  | .accepted => result.accepted.isSome
  | .actualDelta => result.actualDelta.isSome
  | .impact => result.impact.isSome
  | .verification => result.verification.isSome
  | .recoveryState => result.recoveryState.isSome

def exactResultKeys (result : SemanticMutationResultDraft) (required : List ResultKey)
    (optional : List ResultKey := []) : Bool :=
  RESULT_KEYS.all fun key =>
    if hasResultKey result key then required.contains key || optional.contains key else !required.contains key

/-! ### Comparisons -/

def deltaEquals : Option FactDelta → Option FactDelta → Bool
  | some left, some right => canonicalEquals left.toValue right.toValue
  | left, right => left.isNone && right.isNone

def impactEquals : Option SemanticImpactPropagation → Option SemanticImpactPropagation → Bool
  | some left, some right => canonicalEquals left.toValue right.toValue
  | left, right => left.isNone && right.isNone

def sourceChangesValue (changes : List SemanticMutationSourceChange) : Value :=
  .arr (changes.map SemanticMutationSourceChange.toValue)

/-- The keys that a result of a ready plan must have. -/
def requiredResultKeys : SemanticMutationResultStatus → List ResultKey
  | .recoveryRequired => [.transactionId, .attempted, .actualDelta, .impact, .verification, .recoveryState]
  | .accepted => [.transactionId, .attempted, .accepted, .actualDelta, .impact, .verification]
  | .rejected | .rolledBack => [.transactionId, .attempted, .actualDelta, .impact, .verification]

def passed (result : SemanticMutationResultDraft) : Bool := result.verification.any fun v => v.status = .passed

section Revisions

variable [Sha256]

def semanticMutationVerificationExecutionRevision (verification : SemanticMutationVerificationExecutionRef) : Text :=
  sha256 (.obj ((Text.ofString "domain", .str "semantic-mutation-verification-execution-v1") :: verification.members))

def resultRevision (result : SemanticMutationResultDraft) : Text :=
  sha256 (.obj ((Text.ofString "domain", .str "semantic-mutation-result-v2") :: result.members))

def finalizeResult (result : SemanticMutationResultDraft) : SemanticMutationResult := ⟨result, resultRevision result⟩

/-! ## Binding of the verification -/

def bindsStaged (plan : SemanticMutationPlanDraft) (attempted : SemanticMutationBase) : Bool :=
  plan.staged.any fun staged => canonicalEquals attempted.toValue staged.toValue

/-- The verification is the one this plan asked for, of the endpoint that was attempted. -/
def verificationIsBound (plan : SemanticMutationPlannedRequest) (verification : SemanticMutationVerificationExecutionRef)
    (attempted : SemanticMutationBase) : Bool :=
  nonEmptyString verification.adapterId && nonEmptyString verification.adapterRevision &&
    nonEmptyString verification.reportRevision && isDigest verification.reportRevision &&
    decide (verification.adapterId = plan.verificationAdapterId) &&
    decide (verification.adapterRevision = plan.verificationAdapterRevision) &&
    decide (verification.planRevision = plan.planRevision) &&
    canonicalEquals verification.attempted.toValue attempted.toValue &&
    bindsStaged plan.toSemanticMutationPlanDraft attempted &&
    decide (some verification.stagedSourceDigest =
      plan.sourceChanges.head?.map SemanticMutationSourceChange.stagedByteDigest) &&
    decide (verification.requiredVerificationDigest =
      semanticMutationRequiredVerificationDigest (plan.requiredVerification.getD [])) &&
    decide (verification.verificationExecutionRevision = semanticMutationVerificationExecutionRevision verification)

def verificationDiagnostic (plan : SemanticMutationPlannedRequest)
    (verification : Option SemanticMutationVerificationExecutionRef) (attempted : Option SemanticMutationBase) :
    List SemanticMutationDiagnostic :=
  match verification, attempted with
  | some verification, some attempted =>
      if verificationIsBound plan verification attempted then []
      else [resultDiagnostic
        "Verification execution evidence is stale, partial, or bound to the wrong plan/source endpoint"]
  | _, _ => [resultDiagnostic "Terminal result requires exact Verification execution evidence"]

/-- The diagnostics of an execution: it has to be bound to the plan and to have passed. -/
def executionDiagnostics (plan : SemanticMutationPlannedRequest) (status : SemanticMutationResultStatus)
    (attempted : SemanticMutationBase) (verification : SemanticMutationVerificationExecutionRef) :
    List SemanticMutationDiagnostic :=
  verificationDiagnostic plan (some verification) (some attempted) ++
    if verification.status = .passed then [] else
      [resultDiagnostic (Text.cat [status.toText, " result requires passed Verification"])]

/-! ## The builder -/

section Builder

variable [EnglishLowerCase]

/-- The result of a plan that was rejected. -/
def rejectedPlanResult (plan : SemanticMutationPlannedRequest) : Except Text SemanticMutationResult := do
  let diagnostics ← canonicalDiagnostics plan.diagnostics
  require (diagnostics ≠ []) "Rejected terminal result requires diagnostics"
  return finalizeResult (resultOf plan .rejected diagnostics)

/-- The rejection of a ready plan. Evidence that is not bound to the plan is left out and diagnosed. -/
def rejectedResult (plan : SemanticMutationPlannedRequest) (transactionId : Option Text)
    (attempted : Option SemanticMutationBase) (verification : Option SemanticMutationVerificationExecutionRef)
    (diagnostics : List SemanticMutationDiagnostic) : Except Text SemanticMutationResult := do
  let diagnostics ← canonicalDiagnostics diagnostics
  require (diagnostics ≠ []) "Rejected terminal result requires non-empty diagnostics"
  let attemptedIsBound := attempted.all (bindsStaged plan.toSemanticMutationPlanDraft)
  let attemptedDiagnostics := if attemptedIsBound then [] else
    [resultDiagnostic "Rejected terminal attempted endpoint does not bind the ready plan"]
  let verificationDiagnostics := if verification.isNone then [] else verificationDiagnostic plan verification attempted
  let diagnostics ← canonicalDiagnostics (diagnostics ++ attemptedDiagnostics ++ verificationDiagnostics)
  return finalizeResult { resultOf plan .rejected diagnostics with
    transactionId := transactionId
    attempted := if attemptedIsBound then attempted else none
    verification := if verificationDiagnostics = [] then verification else none }

/-- The rejection of a terminal whose verification is not bound or has not passed. -/
def unverifiedResult (plan : SemanticMutationPlannedRequest) (transactionId : Text) (attempted : SemanticMutationBase)
    (verification : SemanticMutationVerificationExecutionRef)
    (diagnostics bindingDiagnostics executionDiagnostics : List SemanticMutationDiagnostic) :
    Except Text SemanticMutationResult := do
  let diagnostics ← canonicalDiagnostics (diagnostics ++ executionDiagnostics)
  return finalizeResult { resultOf plan .rejected diagnostics with
    transactionId := some transactionId
    attempted := if bindingDiagnostics = [] then some attempted else none
    verification := if bindingDiagnostics = [] then some verification else none }

/-- A terminal of a ready plan that rests on its verification. -/
def verifiedResult (plan : SemanticMutationPlannedRequest) (status : SemanticMutationResultStatus) (transactionId : Text)
    (attempted : SemanticMutationBase) (verification : SemanticMutationVerificationExecutionRef)
    (accepted : Option SemanticMutationBase) (recoveryState : Option SemanticMutationRecoveryFailureState)
    (diagnostics : List SemanticMutationDiagnostic) : Except Text SemanticMutationResult := do
  let diagnostics ← canonicalDiagnostics diagnostics
  let execution := executionDiagnostics plan status attempted verification
  if execution ≠ [] then
    unverifiedResult plan transactionId attempted verification diagnostics
      (verificationDiagnostic plan (some verification) (some attempted)) execution
  else
    require (status = .accepted ∨ diagnostics ≠ [])
      (Text.cat [status.toText, " terminal result requires non-empty diagnostics"])
    require (status ≠ .recoveryRequired ∨ ∃ d ∈ diagnostics, d.code = "SEMANTIC-MUTATION-012")
      "recovery-required terminal result requires SEMANTIC-MUTATION-012"
    require (∀ endpoint ∈ accepted, endpoint.inputRevision = attempted.inputRevision ∧
        endpoint.semanticRevision = attempted.semanticRevision)
      "Accepted endpoint must exactly preserve the attempted input/semantic revisions"
    return finalizeResult { resultOf plan status diagnostics with
      transactionId := some transactionId
      attempted := some attempted
      accepted := accepted
      verification := some verification
      recoveryState := recoveryState }

def terminalResult (plan : SemanticMutationPlannedRequest) :
    SemanticMutationTerminalEvidence → Except Text SemanticMutationResult
  | .rejected transactionId attempted verification diagnostics =>
      rejectedResult plan transactionId attempted verification diagnostics
  | .accepted transactionId attempted accepted verification =>
      verifiedResult plan .accepted transactionId attempted verification (some accepted) none []
  | .rolledBack transactionId attempted verification diagnostics =>
      verifiedResult plan .rolledBack transactionId attempted verification none none diagnostics
  | .recoveryRequired transactionId attempted verification recoveryState diagnostics =>
      verifiedResult plan .recoveryRequired transactionId attempted verification none (some recoveryState) diagnostics

def buildSemanticMutationResult (plan : SemanticMutationPlan) (evidence : Option SemanticMutationTerminalEvidence) :
    Except Text SemanticMutationResult := do
  assertSemanticMutationPlanInvariant plan
  match plan with
  | .request _ => do
      require (evidence.all isRejectedEvidence) "Rejected plans can only produce a rejected terminal result"
      throw (Text.ofString
        "Minimal request rejection has no canonical base/planRevision and cannot form a v2 terminal result")
  | .planned plan =>
      if plan.rejectedAt.isSome then
        require (evidence.all isRejectedEvidence) "Rejected plans can only produce a rejected terminal result"
        rejectedPlanResult plan
      else
        match evidence with
        | none => throw (Text.ofString "Ready plans require terminal evidence")
        | some evidence => terminalResult plan evidence

end Builder

/-! ## The checker -/

def assertRejectedResult (result : SemanticMutationResultDraft) (plan : SemanticMutationPlannedRequest) :
    Except Text Unit := do
  let verificationBound := result.verification.isNone ||
    (plan.rejectedAt.isNone && result.attempted.isSome &&
      (verificationDiagnostic plan result.verification result.attempted).isEmpty)
  require (exactResultKeys result [] [.transactionId, .attempted, .actualDelta, .impact, .verification] &&
      !result.diagnostics.isEmpty &&
      result.actualDelta.isSome == plan.actualDelta.isSome && result.impact.isSome == plan.impact.isSome &&
      result.attempted.all (bindsStaged plan.toSemanticMutationPlanDraft) && verificationBound &&
      canonicalEquals (sourceChangesValue result.sourceChanges) (sourceChangesValue plan.sourceChanges))
    "Rejected semantic mutation result violates terminal evidence boundaries"
  require (deltaEquals result.actualDelta plan.actualDelta)
    "Rejected result Fact Delta does not match its canonical plan"
  require (impactEquals result.impact plan.impact) "Rejected result Impact does not match its canonical plan"

def assertVerifiedResult (result : SemanticMutationResultDraft) (plan : SemanticMutationPlannedRequest) :
    Except Text Unit := do
  require (plan.rejectedAt.isNone && exactResultKeys result (requiredResultKeys result.status) &&
      decide (result.sourceChanges.length = 1) &&
      canonicalEquals (sourceChangesValue result.sourceChanges) (sourceChangesValue plan.sourceChanges) &&
      deltaEquals result.actualDelta plan.actualDelta && impactEquals result.impact plan.impact &&
      (verificationDiagnostic plan result.verification result.attempted).isEmpty)
    (Text.cat [result.status.toText, " semantic mutation result does not exactly bind the ready plan"])
  if result.status = .accepted then
    require (result.diagnostics.isEmpty && passed result &&
        decide (result.accepted.map SemanticMutationBase.inputRevision =
          result.attempted.map SemanticMutationBase.inputRevision) &&
        decide (result.accepted.map SemanticMutationBase.semanticRevision =
          result.attempted.map SemanticMutationBase.semanticRevision))
      "Accepted semantic mutation result violates terminal invariants"
  else
    require (!result.diagnostics.isEmpty)
      (Text.cat [result.status.toText, " semantic mutation result requires non-empty diagnostics"])
    require (result.status ≠ .recoveryRequired ∨ ∃ d ∈ result.diagnostics, d.code = "SEMANTIC-MUTATION-012")
      "recovery-required semantic mutation result requires SEMANTIC-MUTATION-012"
    require (passed result)
      (Text.cat [result.status.toText, " semantic mutation result requires passed Verification"])

variable [EnglishLowerCase]

def assertResultBase (result : SemanticMutationResult) (plan : SemanticMutationPlannedRequest) : Except Text Unit := do
  require (result.contractVersion = SEMANTIC_MUTATION_CONTRACT_VERSION ∧ result.requestId = plan.requestId ∧
      result.requestRevision = plan.requestRevision ∧ result.planRevision = plan.planRevision ∧
      canonicalEquals result.base.toValue plan.base.toValue)
    "Semantic mutation resultRevision does not match canonical result content"
  require (canonicalEquals (diagnosticsValue result.diagnostics)
      (diagnosticsValue (← canonicalDiagnostics result.diagnostics)) ∧
      result.resultRevision = resultRevision result.toSemanticMutationResultDraft)
    "Semantic mutation resultRevision does not match canonical result content"

def assertSemanticMutationResultInvariant (result : SemanticMutationResult) (plan : SemanticMutationPlan) :
    Except Text Unit := do
  assertSemanticMutationPlanInvariant plan
  match plan with
  | .request _ => throw (Text.ofString "Minimal request rejection cannot own a v2 terminal result")
  | .planned plan => do
      assertResultBase result plan
      if result.status = .rejected then assertRejectedResult result.toSemanticMutationResultDraft plan
      else assertVerifiedResult result.toSemanticMutationResultDraft plan

end Revisions

end SecPlatform.Compiler.SemanticMutation
