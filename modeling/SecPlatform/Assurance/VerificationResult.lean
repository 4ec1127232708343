import Mathlib.Data.Prod.Lex
import SecPlatform.Contracts.Canonical
import SecPlatform.Library.Except
import SecPlatform.Library.IsoDate
import SecPlatform.Library.Sorting

/-!
# Verification results

A gate is observed in environments, a claim asks for gates. The aggregate folds the observations of each
required gate that apply to the claim, then the gates of a claim and then the claims, and always keeps the
worst status.
-/

namespace SecPlatform.Assurance

open Contracts

/-! ## Results of gates -/

inductive VerificationResultStatus where
  | passed | failed | notRun | unsupported | invalidated
  deriving DecidableEq, Repr

def VerificationResultStatus.toText : VerificationResultStatus → Text
  | .passed => "passed"
  | .failed => "failed"
  | .notRun => "not-run"
  | .unsupported => "unsupported"
  | .invalidated => "invalidated"

inductive VerificationDisposition where
  | executed | reused | notExecuted
  deriving DecidableEq, Repr

inductive VerificationApplicability where
  | required | optional | notApplicable | unresolved
  deriving DecidableEq, Repr

inductive VerificationReasonCode where
  | executedSuccess | executedFailure | notApplicable | failFastPrerequisiteFailed
  | currentRunnerNotOwningEnvironment | notDispatched | requiredArtifactMissing | capabilityUnsupported
  | platformUnsupported | selectionUnresolved | inputInvalidated | evidenceStale | supersededRevision | cancelled
  | timeout | cleanupFailed | processSettlementFailed
  deriving DecidableEq, Repr

def VerificationReasonCode.toText : VerificationReasonCode → Text
  | .executedSuccess => "executed-success"
  | .executedFailure => "executed-failure"
  | .notApplicable => "not-applicable"
  | .failFastPrerequisiteFailed => "fail-fast-prerequisite-failed"
  | .currentRunnerNotOwningEnvironment => "current-runner-not-owning-environment"
  | .notDispatched => "not-dispatched"
  | .requiredArtifactMissing => "required-artifact-missing"
  | .capabilityUnsupported => "capability-unsupported"
  | .platformUnsupported => "platform-unsupported"
  | .selectionUnresolved => "selection-unresolved"
  | .inputInvalidated => "input-invalidated"
  | .evidenceStale => "evidence-stale"
  | .supersededRevision => "superseded-revision"
  | .cancelled => "cancelled"
  | .timeout => "timeout"
  | .cleanupFailed => "cleanup-failed"
  | .processSettlementFailed => "process-settlement-failed"

structure VerificationGateExecution where
  argv : List Text
  startedAt : Text
  finishedAt : Text
  durationMs : JsNumber
  exitCode : Option JsNumber
  outputDigest : Text
  failureFingerprint : Option Text
  deriving DecidableEq

structure VerificationGateEnvironment where
  runtime : Text
  os : Text
  arch : Text
  filesystem : Option Text
  capabilities : List Text
  toolchainRevision : Text
  providerRevisions : List Text
  deriving DecidableEq

structure VerificationGateResult where
  schema : Text
  gateId : Text
  gateRevision : Text
  owner : Text
  requirementKey : Text
  subjectRevision : Text
  inputDigest : Text
  applicability : VerificationApplicability
  status : VerificationResultStatus
  disposition : VerificationDisposition
  reasonCode : VerificationReasonCode
  requiredForClaims : List Text
  supportedClaims : List Text
  environment : Option VerificationGateEnvironment
  execution : Option VerificationGateExecution
  evidenceRefs : List Text
  invalidationRules : List Text
  diagnostic : Option Text
  deriving DecidableEq

structure VerificationClaimDefinition where
  claimId : Text
  requiredGateIds : List Text
  owningEnvironments : List Text
  deriving DecidableEq

def VERIFICATION_GATE_RESULT_SCHEMA : Text := "sec-verification-gate-result-v1"

/-! ## Validation -/

/-- A text that is not empty and has no control character. -/
def isPlainText (value : Text) : Bool :=
  decide (value ≠ []) && value.all fun c => decide (0x20 ≤ c) && !(decide (0x7F ≤ c) && decide (c ≤ 0x9F))

def assertString (value label : Text) : Except Text Unit :=
  require (isPlainText value) (Text.cat [label, " must be a non-empty control-character-free string."])

def assertIdentity (value label : Text) : Except Text Unit := do
  assertString value label
  require (value.trim = value) (Text.cat [label, " must not have leading or trailing whitespace."])

def assertNullableString (value : Option Text) (label : Text) : Except Text Unit :=
  match value with
  | none => .ok ()
  | some value => assertString value label

def assertStringArray (values : List Text) (label : Text) : Except Text Unit :=
  values.zipIdx.forM fun (value, index) => assertString value (Text.cat [label, "[", Text.ofNat index, "]"])

def assertUniqueIdentityArray (values : List Text) (label : Text) : Except Text Unit :=
  forUnique id (fun index value => assertIdentity value (Text.cat [label, "[", Text.ofNat index, "]"]))
    (fun value => Text.cat [label, " must not contain duplicate identity ", value, "."]) [] values

def assertDigest (value label : Text) : Except Text Unit := do
  require (isDigest value) (Text.cat [label, " must be a sha256 digest."])
  require (value.drop 7 ≠ List.replicate 64 (unit '0')) (Text.cat [label, " cannot use the all-zero proof placeholder."])

/-- A text that is no date at all fails under another message. -/
def assertIsoDate (value label : Text) : Except Text Unit := do
  assertString value label
  require (IsoDate.isoTime value).isSome (Text.cat [label, " must be a canonical ISO timestamp."])

/-- The reasons of a status. -/
def statusReasons : VerificationResultStatus → List VerificationReasonCode
  | .passed => [.executedSuccess]
  | .failed => [.executedFailure, .timeout, .cleanupFailed, .processSettlementFailed]
  | .notRun => [.notApplicable, .failFastPrerequisiteFailed, .currentRunnerNotOwningEnvironment, .notDispatched,
      .requiredArtifactMissing]
  | .unsupported => [.capabilityUnsupported, .platformUnsupported]
  | .invalidated => [.selectionUnresolved, .inputInvalidated, .evidenceStale, .supersededRevision, .cancelled]

def statusReasonMessage : VerificationResultStatus → Text
  | .passed => " passed status requires reasonCode executed-success."
  | .failed => " failed status requires an execution-failure reasonCode."
  | .notRun => " not-run status requires a not-run reasonCode."
  | .unsupported => " unsupported status requires capability-unsupported or platform-unsupported."
  | .invalidated => " invalidated status requires an invalidation reasonCode."

def assertStatusReason (status : VerificationResultStatus) (reasonCode : VerificationReasonCode) (label : Text) :
    Except Text Unit :=
  require (reasonCode ∈ statusReasons status) (Text.cat [label, statusReasonMessage status])

def assertEnvironment (environment : VerificationGateEnvironment) (label : Text) : Except Text Unit := do
  assertString environment.runtime (Text.cat [label, ".runtime"])
  assertString environment.os (Text.cat [label, ".os"])
  assertString environment.arch (Text.cat [label, ".arch"])
  assertNullableString environment.filesystem (Text.cat [label, ".filesystem"])
  assertStringArray environment.capabilities (Text.cat [label, ".capabilities"])
  assertString environment.toolchainRevision (Text.cat [label, ".toolchainRevision"])
  assertStringArray environment.providerRevisions (Text.cat [label, ".providerRevisions"])

def assertExecution (execution : VerificationGateExecution) (label : Text) : Except Text Unit := do
  assertStringArray execution.argv (Text.cat [label, ".argv"])
  require (execution.argv ≠ []) (Text.cat [label, ".argv must identify the actual invocation."])
  assertIsoDate execution.startedAt (Text.cat [label, ".startedAt"])
  assertIsoDate execution.finishedAt (Text.cat [label, ".finishedAt"])
  require (execution.startedAt ≠ "1970-01-01T00:00:00.000Z" ∧
      (IsoDate.isoTime execution.startedAt).getD 0 ≤ (IsoDate.isoTime execution.finishedAt).getD 0)
    (Text.cat [label, " must describe one real forward execution interval."])
  require (execution.durationMs.isInteger && !execution.durationMs.isNegative)
    (Text.cat [label, ".durationMs must be a non-negative integer."])
  require (execution.exitCode.all fun code => code.isInteger && !code.isNegative)
    (Text.cat [label, ".exitCode must be null or a non-negative integer."])
  assertDigest execution.outputDigest (Text.cat [label, ".outputDigest"])
  assertNullableString execution.failureFingerprint (Text.cat [label, ".failureFingerprint"])

def gateResultLabel : Text := "verification gate result"

/-- A message about the gate result or one of its fields. -/
def gateMessage (message : Text) : Text := Text.cat [gateResultLabel, message]

/-- How status, disposition, applicability and evidence of a gate result go together. -/
def assertCrossFields (gate : VerificationGateResult) : Except Text Unit := do
  require (¬(gate.status = .passed ∧ gate.disposition = .notExecuted))
    (gateMessage " passed status cannot pair with not-executed disposition.")
  require (gate.status = .failed → gate.disposition = .executed ∨ gate.disposition = .reused)
    (gateMessage " failed status requires executed or reused disposition.")
  require (gate.status = .notRun → gate.disposition = .notExecuted)
    (gateMessage " not-run status requires not-executed disposition.")
  require (gate.disposition = .reused → gate.status = .passed ∨ gate.status = .failed)
    (gateMessage " reused disposition requires passed or failed status.")
  require (gate.disposition = .executed → gate.execution.isSome)
    (gateMessage " executed disposition requires non-null execution.")
  require (gate.disposition = .executed → gate.environment.isSome)
    (gateMessage " executed disposition requires non-null environment.")
  require (gate.disposition = .reused → gate.evidenceRefs ≠ [])
    (gateMessage " reused disposition requires non-empty evidenceRefs.")
  require (gate.disposition = .reused → gate.environment.isSome)
    (gateMessage " reused disposition requires a non-null environment identity.")
  require (gate.disposition = .reused → gate.execution.isNone)
    (gateMessage " reused disposition must have null execution.")
  require (gate.disposition = .notExecuted → gate.execution.isNone)
    (gateMessage " not-executed disposition must have null execution.")
  require (gate.applicability = .unresolved → gate.status = .invalidated)
    (gateMessage " unresolved applicability requires invalidated status.")
  require (gate.applicability = .notApplicable → gate.status = .notRun)
    (gateMessage " not-applicable applicability requires not-run status.")

/-- `CodexDevelopmentAssertVerificationGateResult`. -/
def assertVerificationGateResult (gate : VerificationGateResult) : Except Text Unit := do
  require (gate.schema = VERIFICATION_GATE_RESULT_SCHEMA)
    (Text.cat [gateResultLabel, ".schema must be ", VERIFICATION_GATE_RESULT_SCHEMA, "."])
  assertIdentity gate.gateId (gateMessage ".gateId")
  assertString gate.gateRevision (gateMessage ".gateRevision")
  assertString gate.owner (gateMessage ".owner")
  assertString gate.requirementKey (gateMessage ".requirementKey")
  assertString gate.subjectRevision (gateMessage ".subjectRevision")
  require (gate.subjectRevision.any fun c => c ≠ unit '0')
    (gateMessage ".subjectRevision cannot use an all-zero placeholder.")
  assertDigest gate.inputDigest (gateMessage ".inputDigest")
  assertStatusReason gate.status gate.reasonCode gateResultLabel
  assertUniqueIdentityArray gate.requiredForClaims (gateMessage ".requiredForClaims")
  assertUniqueIdentityArray gate.supportedClaims (gateMessage ".supportedClaims")
  match gate.environment with
  | some environment => assertEnvironment environment (gateMessage ".environment")
  | none => .ok ()
  match gate.execution with
  | some execution => assertExecution execution (gateMessage ".execution")
  | none => .ok ()
  assertStringArray gate.evidenceRefs (gateMessage ".evidenceRefs")
  assertStringArray gate.invalidationRules (gateMessage ".invalidationRules")
  assertNullableString gate.diagnostic (gateMessage ".diagnostic")
  assertCrossFields gate

def assertVerificationClaimDefinition (claim : VerificationClaimDefinition) (label : Text) : Except Text Unit := do
  assertIdentity claim.claimId (Text.cat [label, ".claimId"])
  assertUniqueIdentityArray claim.requiredGateIds (Text.cat [label, ".requiredGateIds"])
  assertUniqueIdentityArray claim.owningEnvironments (Text.cat [label, ".owningEnvironments"])
  require (claim.requiredGateIds ≠ []) (Text.cat [label, ".requiredGateIds must not be empty."])
  require (claim.owningEnvironments ≠ []) (Text.cat [label, ".owningEnvironments must not be empty."])

/-! ## Identities -/

/-- `CodexDevelopmentVerificationEnvironmentIdentity` of the environment of an observation. -/
def environmentIdentity (gate : VerificationGateResult) : Option Text :=
  gate.environment.map fun environment => Text.cat [environment.os, "-", environment.arch]

/-- An observation is known by its gate and its environment. -/
def observationIdentity (gate : VerificationGateResult) : Text × Option Text := (gate.gateId, environmentIdentity gate)

def observationText (gate : VerificationGateResult) : Text :=
  Json.render (.arr [.str gate.gateId, (environmentIdentity gate).elim .null .str] : Value)

/-- What two observations have to share to authorize a pass together. -/
def logicalProofIdentity (gate : VerificationGateResult) : Text := Json.render (.obj [
  ("gateRevision", .str gate.gateRevision),
  ("owner", .str gate.owner),
  ("requirementKey", .str gate.requirementKey),
  ("subjectRevision", .str gate.subjectRevision),
  ("inputDigest", .str gate.inputDigest),
  ("requiredForClaims", .arr ((sortBy id gate.requiredForClaims).map .str)),
  ("invalidationRules", .arr ((sortBy id gate.invalidationRules).map .str))] : Value)

/-- An observation applies in the environments that own the claim, and without one when nothing was executed. -/
def observationAppliesToClaim (claim : VerificationClaimDefinition) (gate : VerificationGateResult) : Bool :=
  match environmentIdentity gate with
  | none => gate.disposition = .notExecuted
  | some environment => claim.owningEnvironments.isEmpty || claim.owningEnvironments.contains environment

/-! ## Input -/

/-- The coverage of a caller may throw. -/
structure VerificationAggregateInput where
  claims : List VerificationClaimDefinition
  gateResults : List VerificationGateResult
  isCoverageComplete : Option (VerificationClaimDefinition → List VerificationGateResult → Except Text Bool)

def aggregateLabel : Text := "verification aggregate input"

def assertClaims (claims : List VerificationClaimDefinition) : Except Text Unit :=
  forUnique VerificationClaimDefinition.claimId
    (fun index claim => assertVerificationClaimDefinition claim
      (Text.cat [aggregateLabel, ".claims[", Text.ofNat index, "]"]))
    (fun claim => Text.cat [aggregateLabel, ".claims must not contain duplicate claimId ", claim.claimId, "."]) [] claims

def assertGateResults (gates : List VerificationGateResult) : Except Text Unit :=
  forUnique observationIdentity (fun _ gate => assertVerificationGateResult gate)
    (fun gate => Text.cat
      [aggregateLabel, ".gateResults must not contain duplicate gate observation ", observationText gate, "."]) [] gates

/-- A gate is linked to a claim only when the claim asks for it. -/
def assertPlanned (claims : List VerificationClaimDefinition) (gate : VerificationGateResult) (claimId : Text) :
    Except Text Unit :=
  match claims.find? fun claim => decide (claim.claimId = claimId) with
  | some claim => require (gate.gateId ∈ claim.requiredGateIds)
      (Text.cat [aggregateLabel, " gate ", gate.gateId, " requiredForClaims linkage to ", claimId,
        " is absent from the trusted claim plan."])
  | none => .ok ()

/-- A gate that a claim asks for is linked to it, also by its support when it passed. -/
def assertLinked (claim : VerificationClaimDefinition) (gateId : Text) (gate : VerificationGateResult) :
    Except Text Unit := do
  require (claim.claimId ∈ gate.requiredForClaims)
    (Text.cat [aggregateLabel, " required gate ", gateId, " lacks requiredForClaims linkage to ", claim.claimId, "."])
  require (gate.status = .passed → claim.claimId ∈ gate.supportedClaims)
    (Text.cat [aggregateLabel, " passed required gate ", gateId, " lacks supportedClaims linkage to ", claim.claimId, "."])

/-- The observations of a gate. -/
def gateGroup (gates : List VerificationGateResult) (gateId : Text) : List VerificationGateResult :=
  gates.filter fun gate => decide (gate.gateId = gateId)

def assertVerificationAggregateInput (input : VerificationAggregateInput) : Except Text Unit := do
  assertClaims input.claims
  assertGateResults input.gateResults
  input.gateResults.forM fun gate => gate.requiredForClaims.forM (assertPlanned input.claims gate)
  input.claims.forM fun claim => claim.requiredGateIds.forM fun gateId =>
    (gateGroup input.gateResults gateId).forM (assertLinked claim gateId)

/-! ## Decisions -/

/-- Failed, invalidated, unsupported, not run and passed, from the worst to the best. -/
def STATUS_PRIORITY : VerificationResultStatus → Nat
  | .passed => 0
  | .notRun => 1
  | .unsupported => 2
  | .invalidated => 3
  | .failed => 4

structure StatusDecision where
  status : VerificationResultStatus
  reasonCode : VerificationReasonCode
  deriving DecidableEq

/-- The worst status comes first, under it the least reason. -/
def decisionKey (decision : StatusDecision) : Nat ×ₗ Text :=
  toLex (4 - STATUS_PRIORITY decision.status, decision.reasonCode.toText)

def chooseHighestStatus {α : Type} (decision : α → StatusDecision) (values : List α) : Option α :=
  (sortBy (fun value => decisionKey (decision value)) values).head?

def selectionUnresolved : StatusDecision := ⟨.invalidated, .selectionUnresolved⟩

structure GateDecision extends StatusDecision where
  gateId : Text
  observations : List VerificationGateResult

def observationDecision (claim : VerificationClaimDefinition) (gate : VerificationGateResult) : StatusDecision :=
  if claim.claimId ∉ gate.requiredForClaims then selectionUnresolved
  else if gate.status = .passed ∧ claim.claimId ∉ gate.supportedClaims then selectionUnresolved
  else ⟨gate.status, gate.reasonCode⟩

/-- The decisions about the observations that apply; two proofs under one gate are a decision of their own. -/
def applicableDecisions (claim : VerificationClaimDefinition) (applicable : List VerificationGateResult) :
    List StatusDecision :=
  applicable.map (observationDecision claim) ++
    if 1 < (applicable.map logicalProofIdentity).dedup.length then [selectionUnresolved] else []

def decideRequiredGate (claim : VerificationClaimDefinition) (gateId : Text) (observations : List VerificationGateResult) :
    GateDecision :=
  if observations.isEmpty then ⟨⟨.notRun, .notDispatched⟩, gateId, []⟩
  else
    let applicable := observations.filter (observationAppliesToClaim claim)
    if applicable.isEmpty then ⟨⟨.notRun, .currentRunnerNotOwningEnvironment⟩, gateId, []⟩
    else
      let decisive := chooseHighestStatus id (applicableDecisions claim applicable)
      ⟨decisive.getD selectionUnresolved, gateId, applicable⟩

/-- Every required gate has an applicable observation that passed with both linkages. -/
def defaultCoverageComplete (claim : VerificationClaimDefinition) (observations : List VerificationGateResult) : Bool :=
  claim.requiredGateIds.all fun gateId => observations.any fun gate =>
    decide (gate.gateId = gateId) && decide (gate.status = .passed) && gate.requiredForClaims.contains claim.claimId &&
      gate.supportedClaims.contains claim.claimId && observationAppliesToClaim claim gate

/-! ## The aggregate -/

structure VerificationClaimResult extends StatusDecision where
  claimId : Text
  contributingGateIds : List Text
  coverageComplete : Bool
  deriving DecidableEq

structure VerificationAggregateResult where
  overallStatus : VerificationResultStatus
  overallReasonCode : VerificationReasonCode
  claimResults : List VerificationClaimResult
  deriving DecidableEq

/-- The coverage of the caller is asked only where the default is complete. -/
def isCoverageComplete (input : VerificationAggregateInput) (claim : VerificationClaimDefinition)
    (observations : List VerificationGateResult) : Except Text Bool :=
  match input.isCoverageComplete with
  | none => .ok (defaultCoverageComplete claim observations)
  | some custom => if defaultCoverageComplete claim observations then custom claim observations else .ok false

def gateDecisions (claim : VerificationClaimDefinition) (gates : List VerificationGateResult) : List GateDecision :=
  claim.requiredGateIds.map fun gateId => decideRequiredGate claim gateId (gateGroup gates gateId)

/-- What the decisions and the coverage of a claim say of it. -/
def claimResult (claimId : Text) (decisions : List GateDecision) (coverageComplete : Bool) : VerificationClaimResult :=
  let contributingGateIds := uniqueSorted ((decisions.flatMap GateDecision.observations).map VerificationGateResult.gateId)
  match chooseHighestStatus GateDecision.toStatusDecision decisions with
  | none => ⟨selectionUnresolved, claimId, contributingGateIds, false⟩
  | some decisive =>
      if decisive.status = .passed ∧ !coverageComplete then ⟨selectionUnresolved, claimId, contributingGateIds, false⟩
      else ⟨decisive.toStatusDecision, claimId, contributingGateIds, coverageComplete⟩

def aggregateClaim (input : VerificationAggregateInput) (claim : VerificationClaimDefinition) :
    Except Text VerificationClaimResult := do
  let decisions := gateDecisions claim input.gateResults
  let coverageComplete ← isCoverageComplete input claim (decisions.flatMap GateDecision.observations)
  return claimResult claim.claimId decisions coverageComplete

/-- The overall status is the worst of the claims, and invalidated without claims. -/
def aggregateResult (claimResults : List VerificationClaimResult) : VerificationAggregateResult :=
  let sorted := sortBy VerificationClaimResult.claimId claimResults
  let decisive := ((chooseHighestStatus VerificationClaimResult.toStatusDecision sorted).map
    VerificationClaimResult.toStatusDecision).getD selectionUnresolved
  ⟨decisive.status, decisive.reasonCode, sorted⟩

/-- `CodexDevelopmentAggregateVerificationClaims`. -/
def aggregateVerificationClaims (input : VerificationAggregateInput) : Except Text VerificationAggregateResult := do
  assertVerificationAggregateInput input
  let claimResults ← input.claims.mapM (aggregateClaim input)
  return aggregateResult claimResults

end SecPlatform.Assurance
