import SecPlatform.Execution.SemanticOperation

/-!
# Compiled operations and the settlement of their providers

An operation is compiled from lists in any order: its budgets and requirements, and the kinds of effects and failures of
each requirement. Bound to providers and executed, it is settled by one receipt for each of its requirements.
-/

namespace SecPlatform.Execution

open Contracts

open DurableExecution (natValue)

/-! ## Requirements and budgets -/

def operationEffectKinds : List Text := ["filesystem", "network", "persistent-state", "process", "provider"]

def operationBudgetResources : List Text := ["duration-ms", "input-bytes", "output-bytes", "processes", "records"]

def canonicalUniqueStrings (values : List Text) (label : Text) : Checked (List Text) := do
  let canonical := sortBy id values
  require ((∀ value ∈ canonical, value ≠ [] ∧ Text.trim value = value) ∧ canonical.Nodup)
    (Text.cat [label, " must contain unique non-empty canonical values."])
  return canonical

/-- A budget as it is handed over: the keys of the object and the values under two of them. -/
structure OperationBudgetInput where
  keys : List Text
  resource : Text
  maximum : JsNumber
  deriving DecidableEq

/-- `Number.isSafeInteger`, for the numbers that are not negative. -/
def safeInteger? (n : JsNumber) : Option Nat := n.toNat?.filter fun k => k ≤ maximumSafeInteger

/-- `isCanonicalOperationBudgetMaximum`, with the number. -/
def canonicalOperationBudgetMaximum (resource : Text) (maximum : JsNumber) : Option Nat :=
  (safeInteger? maximum).filter fun k =>
    resource ∈ operationBudgetResources ∧ (0 < k ∨ resource = Text.ofString "input-bytes")

def canonicalOperationBudget (budget : OperationBudgetInput) : Checked OperationBudget := do
  require (sortBy id budget.keys = [Text.ofString "maximum", Text.ofString "resource"])
    "Semantic operation aggregate budget is not canonical."
  match canonicalOperationBudgetMaximum budget.resource budget.maximum with
  | some maximum => return ⟨budget.resource, maximum⟩
  | none => .error "Semantic operation aggregate budget is not canonical."

def canonicalRequirement (requirement : OperationRequirement) : Checked OperationRequirement := do
  let id ← requireId requirement.id "Operation requirement id"
  let effectKinds ←
    canonicalUniqueStrings requirement.effectKinds (Text.cat ["Operation requirement ", id, " effect kinds"])
  require (∀ kind ∈ effectKinds, kind ∈ operationEffectKinds)
    (Text.cat ["Operation requirement ", id, " contains an unsupported Effect kind."])
  let contractDigest ←
    requireDigest requirement.contractDigest (Text.cat ["Operation requirement ", id, " contract digest"])
  let failureKinds ←
    canonicalUniqueStrings requirement.failureKinds (Text.cat ["Operation requirement ", id, " failure kinds"])
  return { id, contractDigest, effectKinds, failureKinds }

/-! ## Intents and plans -/

structure SemanticOperationIntentInput where
  operation : Text
  intentDigest : Text
  decisionDigest : Text
  aggregateBudgets : List OperationBudgetInput
  requirements : List OperationRequirement
  deriving DecidableEq

structure SemanticOperationIntent where
  identity : SemanticOperationIdentity
  execution : SemanticOperationExecutionPlan
  deriving DecidableEq

structure SemanticOperationAttemptContext where
  authorityGrantDigest : Text
  runIdDigest : Option Text
  resumeEpochDigest : Option Text
  attemptNonceDigest : Text
  deriving DecidableEq

def textArray (texts : List Text) : Value := .arr (texts.map .str)

def OperationBudget.toValue (budget : OperationBudget) : Value :=
  .obj [("resource", .str budget.resource), ("maximum", natValue budget.maximum)]

def OperationRequirement.toValue (requirement : OperationRequirement) : Value := .obj [
  ("id", .str requirement.id),
  ("contractDigest", .str requirement.contractDigest),
  ("effectKinds", textArray requirement.effectKinds),
  ("failureKinds", textArray requirement.failureKinds)]

section Operations

variable [Sha256]

def semanticOperationIdentity (operation intentDigest decisionDigest : Text) : SemanticOperationIdentity :=
  ⟨operation, intentDigest, decisionDigest, digestOf (.obj [("operation", .str operation),
    ("intentDigest", .str intentDigest), ("decisionDigest", .str decisionDigest)])⟩

def semanticOperationExecutionPlan (operationIdentityDigest : Text) (aggregateBudgets : List OperationBudget)
    (requirements : List OperationRequirement) : SemanticOperationExecutionPlan :=
  ⟨operationIdentityDigest, aggregateBudgets, requirements, digestOf (.obj [
    ("operationIdentityDigest", .str operationIdentityDigest),
    ("aggregateBudgets", .arr (aggregateBudgets.map OperationBudget.toValue)),
    ("requirements", .arr (requirements.map OperationRequirement.toValue))])⟩

def compileSemanticOperationIntent (input : SemanticOperationIntentInput) : Checked SemanticOperationIntent := do
  let operation ← requireId input.operation "Semantic operation"
  let aggregateBudgets ← (sortBy OperationBudgetInput.resource input.aggregateBudgets).mapM canonicalOperationBudget
  require (aggregateBudgets.map OperationBudget.resource).Nodup
    "Semantic operation aggregate budgets must be unique by resource."
  let canonicalRequirements ← input.requirements.mapM canonicalRequirement
  let requirements := sortBy OperationRequirement.id canonicalRequirements
  require (requirements ≠ [] ∧ (requirements.map OperationRequirement.id).Nodup)
    "Semantic operation must have unique capability requirements."
  let intentDigest ← requireDigest input.intentDigest "Semantic operation intent digest"
  let decisionDigest ← requireDigest input.decisionDigest "Semantic operation decision digest"
  let identity := semanticOperationIdentity operation intentDigest decisionDigest
  return ⟨identity, semanticOperationExecutionPlan identity.identityDigest aggregateBudgets requirements⟩

def planDeadline (deadlineAtUnixMs : JsNumber) : Checked Nat :=
  match (safeInteger? deadlineAtUnixMs).filter fun k => 1 ≤ k with
  | some deadline => .ok deadline
  | none => .error "Semantic operation deadline must be an absolute safe integer."

/-- `compileSemanticOperationPlan`, with the attempt contexts that have been issued; the plan is yet to be added to the
compiled ones. -/
def compileSemanticOperationPlan (contexts : List (Object SemanticOperationAttemptContext))
    (deadlineAtUnixMs : JsNumber) (input : SemanticOperationIntentInput)
    (attempt : Object SemanticOperationAttemptContext) : Checked SemanticOperationPlan := do
  let deadline ← planDeadline deadlineAtUnixMs
  require (attempt ∈ contexts) "Semantic operation attempt context is not foundation-compiled."
  let intent ← compileSemanticOperationIntent input
  let context := attempt.value
  return ⟨intent.identity, intent.execution, {
    operationIdentityDigest := intent.identity.identityDigest
    executionPlanDigest := intent.execution.executionPlanDigest
    authorityGrantDigest := context.authorityGrantDigest
    runIdDigest := context.runIdDigest
    resumeEpochDigest := context.resumeEpochDigest
    attemptNonceDigest := context.attemptNonceDigest
    deadlineAtUnixMs := deadline
    attemptDigest := digestOf (.obj [
      ("operationIdentityDigest", .str intent.identity.identityDigest),
      ("executionPlanDigest", .str intent.execution.executionPlanDigest),
      ("authorityGrantDigest", .str context.authorityGrantDigest),
      ("runIdDigest", nullableText context.runIdDigest),
      ("resumeEpochDigest", nullableText context.resumeEpochDigest),
      ("attemptNonceDigest", .str context.attemptNonceDigest),
      ("deadlineAtUnixMs", natValue deadline)]) }⟩

/-! ## Settlements -/

inductive ProviderPhysicalDisposition where
  | notStarted
  | settled
  | unknown
  deriving DecidableEq, Repr

def ProviderPhysicalDisposition.toText : ProviderPhysicalDisposition → Text
  | .notStarted => "not-started"
  | .settled => "settled"
  | .unknown => "unknown"

/-- The fields of a settlement under its digest. -/
structure ProviderSettlementFields where
  requirementId : Text
  contractDigest : Text
  bindingDigest : Text
  operationIdentityDigest : Text
  executionPlanDigest : Text
  boundAttemptDigest : Text
  physicalDisposition : ProviderPhysicalDisposition
  providerSettlementReferenceDigest : Text
  deriving DecidableEq

structure ProviderSettlementReceipt extends ProviderSettlementFields where
  providerReceiptDigest : Text
  deriving DecidableEq

def ProviderSettlementFields.members (fields : ProviderSettlementFields) : List (Text × Value) := [
  ("requirementId", .str fields.requirementId),
  ("contractDigest", .str fields.contractDigest),
  ("bindingDigest", .str fields.bindingDigest),
  ("operationIdentityDigest", .str fields.operationIdentityDigest),
  ("executionPlanDigest", .str fields.executionPlanDigest),
  ("boundAttemptDigest", .str fields.boundAttemptDigest),
  ("physicalDisposition", .str fields.physicalDisposition.toText),
  ("providerSettlementReferenceDigest", .str fields.providerSettlementReferenceDigest)]

def ProviderSettlementReceipt.toValue (receipt : ProviderSettlementReceipt) : Value :=
  .obj (receipt.members ++ [(Text.ofString "providerReceiptDigest", Json.str receipt.providerReceiptDigest)])

def providerReceiptDigest (fields : ProviderSettlementFields) : Text :=
  digestOf (.obj [("domain", .str "sec.operation.provider-settlement-receipt"), ("receipt", .obj fields.members)])

def ProviderSettlementFields.signed (fields : ProviderSettlementFields) : ProviderSettlementReceipt :=
  ⟨fields, providerReceiptDigest fields⟩

def issueProviderSettlementReceipt (tokens : RecoveryTokens) (operation : BoundSemanticOperation)
    (requirementId : Text) (physicalDisposition : ProviderPhysicalDisposition) (reference : Text) :
    Checked ProviderSettlementReceipt := do
  assertSemanticOperationProjection tokens operation
  let requirementId ← requireId requirementId "Provider settlement requirement id"
  let requirement := operation.plan.value.execution.requirements.find? fun r => r.id = requirementId
  let binding := operation.bindings.find? fun b => b.requirementId = requirementId
  match requirement, binding with
  | some requirement, some binding => do
      require (binding.contractDigest = requirement.contractDigest)
        "Provider settlement does not bind an exact operation requirement."
      let reference ← requireDigest reference "Provider settlement reference digest"
      return ProviderSettlementFields.signed {
        requirementId
        contractDigest := requirement.contractDigest
        bindingDigest := binding.bindingDigest
        operationIdentityDigest := operation.plan.value.identity.identityDigest
        executionPlanDigest := operation.plan.value.execution.executionPlanDigest
        boundAttemptDigest := operation.boundAttemptDigest
        physicalDisposition
        providerSettlementReferenceDigest := reference }
  | _, _ => .error "Provider settlement does not bind an exact operation requirement."

def assertProviderSettlementReceipt (receipt : ProviderSettlementReceipt) : Checked Unit :=
  require (isDigest receipt.providerReceiptDigest ∧
    providerReceiptDigest receipt.toProviderSettlementFields = receipt.providerReceiptDigest)
    "Provider settlement projection digest is invalid."

structure ProviderSettlementSet where
  operationIdentityDigest : Text
  executionPlanDigest : Text
  bindingSetIdentityDigest : Text
  boundAttemptDigest : Text
  settlements : List ProviderSettlementReceipt
  providerReceiptDigests : List Text
  providerSettlementSetDigest : Text
  deriving DecidableEq

/-- The settlement and the binding at the place of a requirement. -/
def assertSettlement (operation : BoundSemanticOperation) (settlements : List ProviderSettlementReceipt)
    (requirement : OperationRequirement) (index : Nat) : Checked Unit :=
  match settlements[index]? with
  | none => .error "Provider settlement projection is invalid."
  | some settlement => do
      assertProviderSettlementReceipt settlement
      let binding := operation.bindings[index]?
      require (settlement.requirementId = requirement.id ∧
          (binding.any fun binding => binding.requirementId = requirement.id ∧
            settlement.bindingDigest = binding.bindingDigest) ∧
          settlement.contractDigest = requirement.contractDigest ∧
          settlement.operationIdentityDigest = operation.plan.value.identity.identityDigest ∧
          settlement.executionPlanDigest = operation.plan.value.execution.executionPlanDigest ∧
          settlement.boundAttemptDigest = operation.boundAttemptDigest)
        (Text.cat ["Provider settlement for ", requirement.id, " does not bind the exact requirement attempt."])

/-- The set of these settlements, with its digest. -/
def providerSettlementSet (operation : BoundSemanticOperation) (settlements : List ProviderSettlementReceipt) :
    ProviderSettlementSet :=
  let identity := operation.plan.value.identity.identityDigest
  let plan := operation.plan.value.execution.executionPlanDigest
  let digests := settlements.map fun settlement => settlement.providerReceiptDigest
  ⟨identity, plan, operation.bindingSetIdentityDigest, operation.boundAttemptDigest, settlements, digests, digestOf (.obj [
    ("domain", .str "sec.operation.provider-settlement-set"),
    ("settlementSet", .obj [
      ("operationIdentityDigest", .str identity),
      ("executionPlanDigest", .str plan),
      ("bindingSetIdentityDigest", .str operation.bindingSetIdentityDigest),
      ("boundAttemptDigest", .str operation.boundAttemptDigest),
      ("settlements", .arr (settlements.map ProviderSettlementReceipt.toValue)),
      ("providerReceiptDigests", textArray digests)])])⟩

def compileProviderSettlementSet (tokens : RecoveryTokens) (operation : BoundSemanticOperation)
    (suppliedSettlements : List ProviderSettlementReceipt) : Checked ProviderSettlementSet := do
  assertSemanticOperationProjection tokens operation
  let settlements := sortBy (fun settlement => settlement.requirementId) suppliedSettlements
  let requirements := operation.plan.value.execution.requirements
  require (settlements.length = requirements.length ∧ (settlements.map fun settlement => settlement.requirementId).Nodup)
    "Provider settlement set requires exactly one receipt per requirement."
  requirements.zipIdx.forM fun entry => assertSettlement operation settlements entry.1 entry.2
  return providerSettlementSet operation settlements

end Operations

end SecPlatform.Execution
