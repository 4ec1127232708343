import SecPlatform.DurableExecution.Contract

/-!
# Semantic operations and their recovery

An operation is bound to an attempt. After a crash a recovery operation reads back what its predecessor
attempt has done; the receipt of that readback joins the terminal of the owner or admits one retry. Receipts
and admissions count by identity: four sets hold those that were issued and those that were consumed.
-/

namespace SecPlatform.Execution

open Contracts

open DurableExecution (isId natValue)

/-! ## Objects -/

/-- A frozen object: its place in the heap and its fields. -/
structure Object (α : Type) where
  ref : Nat
  value : α
  deriving DecidableEq

/-! ## Operations -/

structure OperationRequirement where
  id : Text
  contractDigest : Text
  effectKinds : List Text
  failureKinds : List Text
  deriving DecidableEq

structure OperationBudget where
  resource : Text
  maximum : Nat
  deriving DecidableEq

structure SemanticOperationIdentity where
  operation : Text
  intentDigest : Text
  decisionDigest : Text
  identityDigest : Text
  deriving DecidableEq

structure SemanticOperationExecutionPlan where
  operationIdentityDigest : Text
  aggregateBudgets : List OperationBudget
  requirements : List OperationRequirement
  executionPlanDigest : Text
  deriving DecidableEq

structure SemanticOperationAttempt where
  operationIdentityDigest : Text
  executionPlanDigest : Text
  authorityGrantDigest : Text
  runIdDigest : Option Text
  resumeEpochDigest : Option Text
  attemptNonceDigest : Text
  deadlineAtUnixMs : Nat
  attemptDigest : Text
  deriving DecidableEq

structure SemanticOperationPlan where
  identity : SemanticOperationIdentity
  execution : SemanticOperationExecutionPlan
  attempt : SemanticOperationAttempt
  deriving DecidableEq

structure CapabilityBinding where
  requirementId : Text
  contractDigest : Text
  providerIdentityDigest : Text
  bindingDigest : Text
  deriving DecidableEq

structure BoundSemanticOperation where
  plan : Object SemanticOperationPlan
  bindings : List CapabilityBinding
  bindingSetIdentityDigest : Text
  boundAttemptDigest : Text
  deriving DecidableEq

/-! ## Readbacks and admissions -/

inductive DomainReadbackDisposition where
  | applied
  | notApplied
  | unknown
  deriving DecidableEq, Repr

def DomainReadbackDisposition.toText : DomainReadbackDisposition → Text
  | .applied => "applied"
  | .notApplied => "not-applied"
  | .unknown => "unknown"

/-- What the journal says of the predecessor attempt. -/
structure RecoveredPredecessorAttemptReference where
  operationIdentityDigest : Text
  executionPlanDigest : Text
  bindingSetIdentityDigest : Text
  boundAttemptDigest : Text
  attemptNonceDigest : Text
  authorityGrantDigest : Text
  resumeEpochDigest : Option Text
  deadlineAtUnixMs : Nat
  deriving DecidableEq

/-- The fields of a recovered readback under its digest. Its recovery mode is `recovered`. -/
structure RecoveredDomainReadbackFields where
  operationIdentityDigest : Text
  executionPlanDigest : Text
  bindingSetIdentityDigest : Text
  boundAttemptDigest : Text
  durableObservationDigest : Text
  predecessorExecutionPlanDigest : Text
  predecessorBindingSetIdentityDigest : Text
  predecessorBoundAttemptDigest : Text
  predecessorAttemptNonceDigest : Text
  predecessorAuthorityGrantDigest : Text
  predecessorResumeEpochDigest : Option Text
  predecessorDeadlineAtUnixMs : Nat
  readbackContractDigest : Text
  readbackReferenceDigest : Text
  currentPhysicalEpochDigest : Text
  disposition : DomainReadbackDisposition
  deriving DecidableEq

structure RecoveredDomainReadbackReceipt extends RecoveredDomainReadbackFields where
  readbackReceiptDigest : Text
  deriving DecidableEq

structure OwnerTerminalJoinFields where
  operationIdentityDigest : Text
  executionPlanDigest : Text
  bindingSetIdentityDigest : Text
  boundAttemptDigest : Text
  readbackReceiptDigest : Text
  ownerTerminalContractDigest : Text
  ownerTerminalReferenceDigest : Text
  deriving DecidableEq

structure OwnerTerminalJoinReceipt extends OwnerTerminalJoinFields where
  joinReceiptDigest : Text
  deriving DecidableEq

structure RecoveredRetryAdmissionFields where
  operationIdentityDigest : Text
  previousExecutionPlanDigest : Text
  previousBindingSetIdentityDigest : Text
  previousBoundAttemptDigest : Text
  previousAttemptNonceDigest : Text
  previousDeadlineAtUnixMs : Nat
  recoveryBoundAttemptDigest : Text
  recoveryAuthorityGrantDigest : Text
  recoveryResumeEpochDigest : Text
  recoveredReadbackReceiptDigest : Text
  currentPhysicalEpochDigest : Text
  deriving DecidableEq

structure RecoveredRetryAdmission extends RecoveredRetryAdmissionFields where
  retryAdmissionDigest : Text
  deriving DecidableEq

/-! ## Values under a digest -/

def nullableText : Option Text → Value
  | none => .null
  | some text => .str text

def RecoveredDomainReadbackFields.toValue (r : RecoveredDomainReadbackFields) : Value := .obj [
  ("recoveryMode", .str "recovered"),
  ("operationIdentityDigest", .str r.operationIdentityDigest),
  ("executionPlanDigest", .str r.executionPlanDigest),
  ("bindingSetIdentityDigest", .str r.bindingSetIdentityDigest),
  ("boundAttemptDigest", .str r.boundAttemptDigest),
  ("providerSettlementSetDigest", .null),
  ("durableObservationDigest", .str r.durableObservationDigest),
  ("predecessorExecutionPlanDigest", .str r.predecessorExecutionPlanDigest),
  ("predecessorBindingSetIdentityDigest", .str r.predecessorBindingSetIdentityDigest),
  ("predecessorBoundAttemptDigest", .str r.predecessorBoundAttemptDigest),
  ("predecessorAttemptNonceDigest", .str r.predecessorAttemptNonceDigest),
  ("predecessorAuthorityGrantDigest", .str r.predecessorAuthorityGrantDigest),
  ("predecessorResumeEpochDigest", nullableText r.predecessorResumeEpochDigest),
  ("predecessorDeadlineAtUnixMs", natValue r.predecessorDeadlineAtUnixMs),
  ("readbackContractDigest", .str r.readbackContractDigest),
  ("readbackReferenceDigest", .str r.readbackReferenceDigest),
  ("currentPhysicalEpochDigest", .str r.currentPhysicalEpochDigest),
  ("disposition", .str r.disposition.toText)]

def OwnerTerminalJoinFields.toValue (j : OwnerTerminalJoinFields) : Value := .obj [
  ("recoveryMode", .str "recovered"),
  ("operationIdentityDigest", .str j.operationIdentityDigest),
  ("executionPlanDigest", .str j.executionPlanDigest),
  ("bindingSetIdentityDigest", .str j.bindingSetIdentityDigest),
  ("boundAttemptDigest", .str j.boundAttemptDigest),
  ("providerSettlementSetDigest", .null),
  ("readbackReceiptDigest", .str j.readbackReceiptDigest),
  ("ownerTerminalContractDigest", .str j.ownerTerminalContractDigest),
  ("ownerTerminalReferenceDigest", .str j.ownerTerminalReferenceDigest)]

def RecoveredRetryAdmissionFields.toValue (a : RecoveredRetryAdmissionFields) : Value := .obj [
  ("operationIdentityDigest", .str a.operationIdentityDigest),
  ("previousExecutionPlanDigest", .str a.previousExecutionPlanDigest),
  ("previousBindingSetIdentityDigest", .str a.previousBindingSetIdentityDigest),
  ("previousBoundAttemptDigest", .str a.previousBoundAttemptDigest),
  ("previousAttemptNonceDigest", .str a.previousAttemptNonceDigest),
  ("previousDeadlineAtUnixMs", natValue a.previousDeadlineAtUnixMs),
  ("recoveryBoundAttemptDigest", .str a.recoveryBoundAttemptDigest),
  ("recoveryAuthorityGrantDigest", .str a.recoveryAuthorityGrantDigest),
  ("recoveryResumeEpochDigest", .str a.recoveryResumeEpochDigest),
  ("recoveredReadbackReceiptDigest", .str a.recoveredReadbackReceiptDigest),
  ("currentPhysicalEpochDigest", .str a.currentPhysicalEpochDigest)]

/-! ## The sets of tokens -/

/-- The compiled plans, and the receipts and admissions that were issued and consumed. -/
structure RecoveryTokens where
  nextRef : Nat
  compiledPlans : List (Object SemanticOperationPlan)
  issuedReadbacks : List (Object RecoveredDomainReadbackReceipt)
  consumedReadbacks : List (Object RecoveredDomainReadbackReceipt)
  issuedAdmissions : List (Object RecoveredRetryAdmission)
  consumedAdmissions : List (Object RecoveredRetryAdmission)
  deriving DecidableEq

def RecoveryTokens.initial : RecoveryTokens := ⟨0, [], [], [], [], []⟩

/-- A call throws the text of an error. -/
abbrev Checked := Except Text

def requireDigest (value label : Text) : Checked Text :=
  if isDigest value then .ok value else .error (Text.cat [label, " must be a canonical SHA-256 digest."])

def requireId (value label : Text) : Checked Text :=
  if isId value then .ok value else .error (Text.cat [label, " must be a canonical semantic identity."])

section Operations

variable [Sha256]

/-- `sha256` of a value without numbers that are not finite. -/
def digestOf (value : Value) : Text := (Sha256.rawSha256 (canonicalEncoding value)).val

/-! ## Binding -/

def compileCapabilityBinding (requirementId contractDigest providerIdentityDigest : Text) : Checked CapabilityBinding := do
  let requirementId ← requireId requirementId "Capability binding requirement id"
  let contractDigest ← requireDigest contractDigest "Capability binding contract digest"
  let providerIdentityDigest ← requireDigest providerIdentityDigest "Capability binding provider identity digest"
  return ⟨requirementId, contractDigest, providerIdentityDigest, digestOf (.obj [("requirementId", .str requirementId),
    ("contractDigest", .str contractDigest), ("providerIdentityDigest", .str providerIdentityDigest)])⟩

def assertSemanticOperationPlan (tokens : RecoveryTokens) (plan : Object SemanticOperationPlan) : Checked Unit :=
  require (plan ∈ tokens.compiledPlans) "Semantic operation binding requires a foundation-compiled operation plan."

def assertBound (bindings : List CapabilityBinding) (requirement : OperationRequirement) : Checked Unit :=
  match bindings.find? fun binding => binding.requirementId = requirement.id with
  | none => .error (Text.cat ["Semantic operation requirement ", requirement.id, " is not exactly bound."])
  | some binding =>
      if binding.contractDigest ≠ requirement.contractDigest then
        .error (Text.cat ["Semantic operation requirement ", requirement.id, " is not exactly bound."])
      else do
        let canonical ← compileCapabilityBinding binding.requirementId binding.contractDigest
          binding.providerIdentityDigest
        require (canonical.bindingDigest = binding.bindingDigest)
          (Text.cat ["Semantic operation requirement ", requirement.id, " binding is noncanonical."])

def bindSemanticOperation (tokens : RecoveryTokens) (plan : Object SemanticOperationPlan)
    (suppliedBindings : List CapabilityBinding) : Checked BoundSemanticOperation := do
  assertSemanticOperationPlan tokens plan
  let bindings := sortBy CapabilityBinding.requirementId suppliedBindings
  require (bindings.length = plan.value.execution.requirements.length ∧
    (bindings.map CapabilityBinding.requirementId).Nodup)
    "Semantic operation requires exactly one binding per requirement."
  plan.value.execution.requirements.forM (assertBound bindings)
  let bindingSetIdentityDigest := digestOf (.obj [
    ("operationIdentityDigest", .str plan.value.identity.identityDigest),
    ("executionPlanDigest", .str plan.value.execution.executionPlanDigest),
    ("bindings", .arr (bindings.map fun binding => .str binding.bindingDigest))])
  let boundAttemptDigest := digestOf (.obj [("attemptDigest", .str plan.value.attempt.attemptDigest),
    ("bindingSetIdentityDigest", .str bindingSetIdentityDigest)])
  return ⟨plan, bindings, bindingSetIdentityDigest, boundAttemptDigest⟩

def assertSemanticOperationProjection (tokens : RecoveryTokens) (operation : BoundSemanticOperation) : Checked Unit := do
  let rebound ← bindSemanticOperation tokens operation.plan operation.bindings
  require (rebound.bindingSetIdentityDigest = operation.bindingSetIdentityDigest ∧
    rebound.boundAttemptDigest = operation.boundAttemptDigest) "Semantic operation projection is not canonical."

/-! ## Issuing readbacks -/

def readbackReceiptDigest (fields : RecoveredDomainReadbackFields) : Text :=
  digestOf (.obj [("domain", .str "sec.operation.domain-readback-receipt"), ("readback", fields.toValue)])

structure RecoveredReadbackInput where
  predecessor : RecoveredPredecessorAttemptReference
  durableObservationDigest : Text
  readbackContractDigest : Text
  readbackReferenceDigest : Text
  currentPhysicalEpochDigest : Text
  disposition : DomainReadbackDisposition
  deriving DecidableEq

def requireNullableDigest (value : Option Text) (label : Text) : Checked (Option Text) :=
  match value with
  | none => .ok none
  | some value => (requireDigest value label).map some

def maximumSafeInteger : Nat := 2 ^ 53 - 1

/-- The receipt of a recovered readback, before it is added to the issued ones. -/
def recoveredDomainReadbackReceipt (tokens : RecoveryTokens) (recoveryOperation : BoundSemanticOperation)
    (input : RecoveredReadbackInput) : Checked RecoveredDomainReadbackReceipt := do
  assertSemanticOperationProjection tokens recoveryOperation
  let predecessor := input.predecessor
  require (predecessor.operationIdentityDigest = recoveryOperation.plan.value.identity.identityDigest ∧
    predecessor.executionPlanDigest = recoveryOperation.plan.value.execution.executionPlanDigest ∧
    predecessor.bindingSetIdentityDigest = recoveryOperation.bindingSetIdentityDigest ∧
    predecessor.boundAttemptDigest ≠ recoveryOperation.boundAttemptDigest ∧
    recoveryOperation.plan.value.attempt.resumeEpochDigest ≠ none)
    "Recovered domain readback does not bind one predecessor and current recovery authority."
  require (1 ≤ predecessor.deadlineAtUnixMs ∧ predecessor.deadlineAtUnixMs ≤ maximumSafeInteger)
    "Recovered domain predecessor deadline is invalid."
  let fields : RecoveredDomainReadbackFields := {
    operationIdentityDigest := recoveryOperation.plan.value.identity.identityDigest
    executionPlanDigest := recoveryOperation.plan.value.execution.executionPlanDigest
    bindingSetIdentityDigest := recoveryOperation.bindingSetIdentityDigest
    boundAttemptDigest := recoveryOperation.boundAttemptDigest
    durableObservationDigest := ←
      requireDigest input.durableObservationDigest "Recovered domain durable observation digest"
    predecessorExecutionPlanDigest := ←
      requireDigest predecessor.executionPlanDigest "Recovered predecessor execution plan digest"
    predecessorBindingSetIdentityDigest := ←
      requireDigest predecessor.bindingSetIdentityDigest "Recovered predecessor binding set digest"
    predecessorBoundAttemptDigest := ←
      requireDigest predecessor.boundAttemptDigest "Recovered predecessor bound attempt digest"
    predecessorAttemptNonceDigest := ←
      requireDigest predecessor.attemptNonceDigest "Recovered predecessor attempt nonce digest"
    predecessorAuthorityGrantDigest := ←
      requireDigest predecessor.authorityGrantDigest "Recovered predecessor authority grant digest"
    predecessorResumeEpochDigest := ←
      requireNullableDigest predecessor.resumeEpochDigest "Recovered predecessor resume epoch digest"
    predecessorDeadlineAtUnixMs := predecessor.deadlineAtUnixMs
    readbackContractDigest := ← requireDigest input.readbackContractDigest "Domain readback contract digest"
    readbackReferenceDigest := ← requireDigest input.readbackReferenceDigest "Domain readback reference digest"
    currentPhysicalEpochDigest := ←
      requireDigest input.currentPhysicalEpochDigest "Domain readback physical epoch digest"
    disposition := input.disposition }
  return { fields with readbackReceiptDigest := readbackReceiptDigest fields }

def issueRecoveredDomainReadbackReceipt (tokens : RecoveryTokens) (recoveryOperation : BoundSemanticOperation)
    (input : RecoveredReadbackInput) : Checked (Object RecoveredDomainReadbackReceipt) × RecoveryTokens :=
  match recoveredDomainReadbackReceipt tokens recoveryOperation input with
  | .error e => (.error e, tokens)
  | .ok receipt =>
      let issued : Object RecoveredDomainReadbackReceipt := ⟨tokens.nextRef, receipt⟩
      (.ok issued, { tokens with
        nextRef := tokens.nextRef + 1
        issuedReadbacks := issued :: tokens.issuedReadbacks })

def assertDomainReadbackReceipt (readback : RecoveredDomainReadbackReceipt) : Checked Unit :=
  require (isDigest readback.readbackReceiptDigest ∧
    readbackReceiptDigest readback.toRecoveredDomainReadbackFields = readback.readbackReceiptDigest)
    "Domain readback projection digest is invalid."

/-! ## Joining the terminal of the owner -/

def assertReadbackBindsOperation (operation : BoundSemanticOperation) (readback : RecoveredDomainReadbackReceipt) :
    Checked Unit := do
  assertDomainReadbackReceipt readback
  require (readback.operationIdentityDigest = operation.plan.value.identity.identityDigest ∧
    readback.executionPlanDigest = operation.plan.value.execution.executionPlanDigest ∧
    readback.bindingSetIdentityDigest = operation.bindingSetIdentityDigest ∧
    readback.boundAttemptDigest = operation.boundAttemptDigest)
    "Domain readback does not bind the exact operation attempt."

def issueOwnerTerminalJoinReceipt (operation : BoundSemanticOperation) (readback : RecoveredDomainReadbackReceipt)
    (ownerTerminalContractDigest ownerTerminalReferenceDigest : Text) : Checked OwnerTerminalJoinReceipt := do
  let fields : OwnerTerminalJoinFields := {
    operationIdentityDigest := operation.plan.value.identity.identityDigest
    executionPlanDigest := operation.plan.value.execution.executionPlanDigest
    bindingSetIdentityDigest := operation.bindingSetIdentityDigest
    boundAttemptDigest := operation.boundAttemptDigest
    readbackReceiptDigest := readback.readbackReceiptDigest
    ownerTerminalContractDigest := ← requireDigest ownerTerminalContractDigest "Owner terminal contract digest"
    ownerTerminalReferenceDigest := ← requireDigest ownerTerminalReferenceDigest "Owner terminal reference digest" }
  return { fields with
    joinReceiptDigest := digestOf (.obj [("domain", .str "sec.operation.owner-terminal-join"), ("join", fields.toValue)]) }

def alreadyConsumedReadback : Text := "Recovered domain readback was already consumed by a terminal or retry policy."

/-- What a join checks before it consumes the readback. -/
def assertJoinable (tokens : RecoveryTokens) (operation : BoundSemanticOperation)
    (readback : Object RecoveredDomainReadbackReceipt) : Checked Unit := do
  assertSemanticOperationProjection tokens operation
  assertReadbackBindsOperation operation readback.value
  require (readback ∈ tokens.issuedReadbacks) "Recovered owner terminal join requires a recovered readback."
  require (readback ∉ tokens.consumedReadbacks) alreadyConsumedReadback

/-- The readback is consumed before the digests of the terminal are checked. -/
def issueRecoveredOwnerTerminalJoinReceipt (tokens : RecoveryTokens) (operation : BoundSemanticOperation)
    (readback : Object RecoveredDomainReadbackReceipt)
    (ownerTerminalContractDigest ownerTerminalReferenceDigest : Text) :
    Checked OwnerTerminalJoinReceipt × RecoveryTokens :=
  match assertJoinable tokens operation readback with
  | .error e => (.error e, tokens)
  | .ok () =>
      (issueOwnerTerminalJoinReceipt operation readback.value ownerTerminalContractDigest ownerTerminalReferenceDigest,
        { tokens with consumedReadbacks := readback :: tokens.consumedReadbacks })

/-! ## Admitting a retry -/

/-- What an admission checks, and the resume epoch of the recovery. -/
def assertRetryable (tokens : RecoveryTokens) (recoveryOperation : BoundSemanticOperation)
    (readback : Object RecoveredDomainReadbackReceipt) : Checked Text := do
  assertSemanticOperationProjection tokens recoveryOperation
  assertDomainReadbackReceipt readback.value
  let attempt := recoveryOperation.plan.value.attempt
  match attempt.resumeEpochDigest with
  | none => .error "Retry admission requires a conclusive recovered not-applied readback."
  | some resumeEpochDigest =>
      require (readback ∈ tokens.issuedReadbacks ∧ readback.value.disposition = .notApplied ∧
        readback.value.operationIdentityDigest = recoveryOperation.plan.value.identity.identityDigest ∧
        readback.value.executionPlanDigest = recoveryOperation.plan.value.execution.executionPlanDigest ∧
        readback.value.bindingSetIdentityDigest = recoveryOperation.bindingSetIdentityDigest ∧
        readback.value.boundAttemptDigest = recoveryOperation.boundAttemptDigest)
        "Retry admission requires a conclusive recovered not-applied readback."
      require (readback ∉ tokens.consumedReadbacks) alreadyConsumedReadback
      return resumeEpochDigest

def retryAdmissionDigest (fields : RecoveredRetryAdmissionFields) : Text :=
  digestOf (.obj [("domain", .str "sec.operation.recovered-retry-admission"), ("admission", fields.toValue)])

def recoveredRetryAdmission (recoveryOperation : BoundSemanticOperation) (resumeEpochDigest : Text)
    (readback : RecoveredDomainReadbackReceipt) : RecoveredRetryAdmission :=
  let fields : RecoveredRetryAdmissionFields := {
    operationIdentityDigest := readback.operationIdentityDigest
    previousExecutionPlanDigest := readback.predecessorExecutionPlanDigest
    previousBindingSetIdentityDigest := readback.predecessorBindingSetIdentityDigest
    previousBoundAttemptDigest := readback.predecessorBoundAttemptDigest
    previousAttemptNonceDigest := readback.predecessorAttemptNonceDigest
    previousDeadlineAtUnixMs := readback.predecessorDeadlineAtUnixMs
    recoveryBoundAttemptDigest := readback.boundAttemptDigest
    recoveryAuthorityGrantDigest := recoveryOperation.plan.value.attempt.authorityGrantDigest
    recoveryResumeEpochDigest := resumeEpochDigest
    recoveredReadbackReceiptDigest := readback.readbackReceiptDigest
    currentPhysicalEpochDigest := readback.currentPhysicalEpochDigest }
  { fields with retryAdmissionDigest := retryAdmissionDigest fields }

def issueRecoveredRetryAdmission (tokens : RecoveryTokens) (recoveryOperation : BoundSemanticOperation)
    (readback : Object RecoveredDomainReadbackReceipt) : Checked (Object RecoveredRetryAdmission) × RecoveryTokens :=
  match assertRetryable tokens recoveryOperation readback with
  | .error e => (.error e, tokens)
  | .ok resumeEpochDigest =>
      let admission : Object RecoveredRetryAdmission :=
        ⟨tokens.nextRef, recoveredRetryAdmission recoveryOperation resumeEpochDigest readback.value⟩
      (.ok admission, { tokens with
        nextRef := tokens.nextRef + 1
        consumedReadbacks := readback :: tokens.consumedReadbacks
        issuedAdmissions := admission :: tokens.issuedAdmissions })

/-! ## Consuming an admission -/

def assertRecoveredRetryAdmission (tokens : RecoveryTokens) (admission : Object RecoveredRetryAdmission) :
    Checked Unit := do
  require (admission ∈ tokens.issuedAdmissions) "Recovered retry projection is invalid."
  require (isDigest admission.value.retryAdmissionDigest ∧
    retryAdmissionDigest admission.value.toRecoveredRetryAdmissionFields = admission.value.retryAdmissionDigest)
    "Recovered retry projection digest is invalid."

def alreadyConsumedAdmission : Text := "Recovered retry admission was already consumed."

/-- `now` is the time the clock shows. -/
def assertRecoveredRetryAdmissionForSuccessor (tokens : RecoveryTokens) (now : Nat)
    (admission : Object RecoveredRetryAdmission) (successor : BoundSemanticOperation)
    (currentPhysicalEpochDigest : Text) : Checked Unit := do
  assertRecoveredRetryAdmission tokens admission
  assertSemanticOperationProjection tokens successor
  let attempt := successor.plan.value.attempt
  let refused : Text := "Recovered retry admission does not authorize this successor attempt."
  require (successor.plan.value.identity.identityDigest = admission.value.operationIdentityDigest ∧
    successor.plan.value.execution.executionPlanDigest = admission.value.previousExecutionPlanDigest ∧
    successor.bindingSetIdentityDigest = admission.value.previousBindingSetIdentityDigest ∧
    successor.boundAttemptDigest ≠ admission.value.previousBoundAttemptDigest ∧
    successor.boundAttemptDigest ≠ admission.value.recoveryBoundAttemptDigest ∧
    attempt.authorityGrantDigest = admission.value.recoveryAuthorityGrantDigest ∧
    attempt.resumeEpochDigest = some admission.value.recoveryResumeEpochDigest) refused
  let epoch ← requireDigest currentPhysicalEpochDigest "Recovered retry current physical epoch digest"
  require (epoch = admission.value.currentPhysicalEpochDigest ∧
    attempt.deadlineAtUnixMs ≤ admission.value.previousDeadlineAtUnixMs ∧ now < attempt.deadlineAtUnixMs) refused
  require (admission ∉ tokens.consumedAdmissions) alreadyConsumedAdmission

def consumeRecoveredRetryAdmission (tokens : RecoveryTokens) (now : Nat) (admission : Object RecoveredRetryAdmission)
    (successor : BoundSemanticOperation) (currentPhysicalEpochDigest : Text) : Checked Unit × RecoveryTokens :=
  match assertRecoveredRetryAdmissionForSuccessor tokens now admission successor currentPhysicalEpochDigest with
  | .error e => (.error e, tokens)
  | .ok () =>
      if admission ∈ tokens.consumedAdmissions then (.error alreadyConsumedAdmission, tokens)
      else (.ok (), { tokens with consumedAdmissions := admission :: tokens.consumedAdmissions })

/-! ## Calls -/

/-- A call of the token functions, in any order and with any arguments; any plan may have been compiled. -/
inductive RecoveryCall where
  | compilePlan (plan : SemanticOperationPlan)
  | issueReadback (recoveryOperation : BoundSemanticOperation) (input : RecoveredReadbackInput)
  | joinTerminal (operation : BoundSemanticOperation) (readback : Object RecoveredDomainReadbackReceipt)
      (ownerTerminalContractDigest ownerTerminalReferenceDigest : Text)
  | admitRetry (recoveryOperation : BoundSemanticOperation) (readback : Object RecoveredDomainReadbackReceipt)
  | consumeRetry (now : Nat) (admission : Object RecoveredRetryAdmission) (successor : BoundSemanticOperation)
      (currentPhysicalEpochDigest : Text)

inductive RecoveryResult where
  | plan (plan : Object SemanticOperationPlan)
  | readback (receipt : Object RecoveredDomainReadbackReceipt)
  | joined (receipt : OwnerTerminalJoinReceipt)
  | admitted (admission : Object RecoveredRetryAdmission)
  | consumed
  | thrown (message : Text)
  deriving DecidableEq

def RecoveryResult.of {α : Type} (f : α → RecoveryResult) (outcome : Checked α × RecoveryTokens) :
    RecoveryResult × RecoveryTokens :=
  match outcome with
  | (.ok a, tokens) => (f a, tokens)
  | (.error e, tokens) => (.thrown e, tokens)

def perform (tokens : RecoveryTokens) : RecoveryCall → RecoveryResult × RecoveryTokens
  | .compilePlan plan =>
      let compiled : Object SemanticOperationPlan := ⟨tokens.nextRef, plan⟩
      (.plan compiled, { tokens with
        nextRef := tokens.nextRef + 1
        compiledPlans := compiled :: tokens.compiledPlans })
  | .issueReadback recoveryOperation input =>
      RecoveryResult.of .readback (issueRecoveredDomainReadbackReceipt tokens recoveryOperation input)
  | .joinTerminal operation readback contract reference =>
      RecoveryResult.of .joined (issueRecoveredOwnerTerminalJoinReceipt tokens operation readback contract reference)
  | .admitRetry recoveryOperation readback =>
      RecoveryResult.of .admitted (issueRecoveredRetryAdmission tokens recoveryOperation readback)
  | .consumeRetry now admission successor epoch =>
      RecoveryResult.of (fun _ => .consumed) (consumeRecoveredRetryAdmission tokens now admission successor epoch)

end Operations

end SecPlatform.Execution
