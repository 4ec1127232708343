import SecPlatform.Semantics.Mutation

/-!
# Transactions of semantic mutations

The records that carry a mutation through a crash, and the states they pass.
-/

namespace SecPlatform.Semantics

open Contracts

def SEMANTIC_MUTATION_RECOVERY_RECORD_REVISION : Text := "semantic-mutation-recovery-record-v1"

/-! ## States -/

inductive SemanticMutationRecoveryState where
  | prepared | authoringCommitted | verified | rolledBack | recoveryRequired
  deriving DecidableEq, Repr

def SemanticMutationRecoveryState.toText : SemanticMutationRecoveryState → Text
  | .prepared => "prepared"
  | .authoringCommitted => "authoring-committed"
  | .verified => "verified"
  | .rolledBack => "rolled-back"
  | .recoveryRequired => "recovery-required"

def SEMANTIC_MUTATION_RECOVERY_TRANSITIONS : SemanticMutationRecoveryState → List SemanticMutationRecoveryState
  | .prepared => [.authoringCommitted, .recoveryRequired]
  | .authoringCommitted => [.verified, .rolledBack, .recoveryRequired]
  | .verified | .rolledBack | .recoveryRequired => []

/-! ## Records -/

structure SemanticMutationRequestIdentity where
  graphId : Text
  appId : Text
  requestId : Text
  deriving DecidableEq

/-- The request and the authorization are stored as they were given. -/
structure SemanticMutationRecoveryRecordContent where
  formatRevision : Text
  sequence : Nat
  previousRecordRevision : Text
  state : SemanticMutationRecoveryState
  transactionId : Text
  requestIdentityDigest : Text
  requestRevision : Text
  authorizationRevision : Text
  expectedPlanRevision : Text
  planRevision : Text
  editPlanRevision : Text
  rollbackManifestDigest : Text
  relativePath : Text
  beforeByteDigest : Text
  committedByteDigest : Text
  base : SemanticMutationBase
  staged : SemanticMutationBase
  verificationExecutionRevision : Text
  verificationReportRevision : Text
  request : Value
  authorization : Value
  plan : SemanticMutationPlan
  verification : SemanticMutationVerificationExecutionRef
  result : Option SemanticMutationResult
  recoveryState : Option SemanticMutationRecoveryFailureState
  terminalSequence : Option Nat
  diagnostics : List SemanticMutationDiagnostic
  deriving DecidableEq

structure SemanticMutationRecoveryRecord extends SemanticMutationRecoveryRecordContent where
  recordRevision : Text
  deriving DecidableEq

/-- The members under the revision of a record. -/
def SemanticMutationRecoveryRecordContent.members (r : SemanticMutationRecoveryRecordContent) : List (Text × Value) :=
  present [
    ("formatRevision", some (.str r.formatRevision)),
    ("sequence", some (.num (.ofNat r.sequence))),
    ("previousRecordRevision", some (.str r.previousRecordRevision)),
    ("state", some (.str r.state.toText)),
    ("transactionId", some (.str r.transactionId)),
    ("requestIdentityDigest", some (.str r.requestIdentityDigest)),
    ("requestRevision", some (.str r.requestRevision)),
    ("authorizationRevision", some (.str r.authorizationRevision)),
    ("expectedPlanRevision", some (.str r.expectedPlanRevision)),
    ("planRevision", some (.str r.planRevision)),
    ("editPlanRevision", some (.str r.editPlanRevision)),
    ("rollbackManifestDigest", some (.str r.rollbackManifestDigest)),
    ("relativePath", some (.str r.relativePath)),
    ("beforeByteDigest", some (.str r.beforeByteDigest)),
    ("committedByteDigest", some (.str r.committedByteDigest)),
    ("base", some r.base.toValue),
    ("staged", some r.staged.toValue),
    ("verificationExecutionRevision", some (.str r.verificationExecutionRevision)),
    ("verificationReportRevision", some (.str r.verificationReportRevision)),
    ("request", some r.request),
    ("authorization", some r.authorization),
    ("plan", some r.plan.toValue),
    ("verification", some r.verification.toValue),
    ("result", r.result.map SemanticMutationResult.toValue),
    ("recoveryState", r.recoveryState.map fun state => .str state.toText),
    ("diagnostics", some (.arr (r.diagnostics.map SemanticMutationDiagnostic.toValue))),
    ("terminalSequence", r.terminalSequence.map fun n => .num (.ofNat n))]

end SecPlatform.Semantics
