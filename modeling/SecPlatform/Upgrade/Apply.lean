import SecPlatform.Library.Calls
import SecPlatform.Upgrade.Failure

/-!
# The apply lifecycle of an upgrade

Snapshot, publication, compilation, restore and cleanup are injected operations; the lifecycle decides their
order, and whether a failure is rolled back, left for recovery or reported after the commit. Every operation may
answer with any value of its type or throw.
-/

namespace SecPlatform.Upgrade

open SecPlatform.Contracts (Value)
open CallM

/-! ## Artifacts -/

structure PlanBlock where
  id : Text
  version : Text
  deriving DecidableEq

/-- A workspace plan: its blocks and the rest of its fields. -/
structure PlanFile where
  blocks : List PlanBlock
  rest : Value
  deriving DecidableEq

structure LockFile where
  resolvedBlocks : List PlanBlock
  rest : Value
  deriving DecidableEq

structure UpgradePlan where
  workspaceIdentityDigest : Text
  operationIdentityDigest : Text
  blockId : Text
  planRevision : Text
  rest : Value
  deriving DecidableEq

structure UpgradeExecutionAttempt where
  leaseGeneration : Nat
  leaseId : Text
  ownerFileIdentityDigest : Text
  attemptRevision : Text
  deriving DecidableEq

inductive Settlement where
  | applied
  | rolledBack
  | recoveryRequired
  deriving DecidableEq

structure UpgradeExecutionReceipts where
  workspacePlanRevision : Text
  resultLockRevision : Text
  planArtifactRevision : Text
  deriving DecidableEq

structure UpgradeExecutionReadback where
  workspaceBlockVersion : Option Text
  resolvedBlockVersion : Option Text
  deriving DecidableEq

/-- A terminal without its own revision. -/
structure UpgradeExecutionTerminalInput where
  workspaceIdentityDigest : Text
  operationIdentityDigest : Text
  planRevision : Text
  attempt : UpgradeExecutionAttempt
  receipts : UpgradeExecutionReceipts
  settlement : Settlement
  readback : UpgradeExecutionReadback
  deriving DecidableEq

structure UpgradeExecutionTerminal extends UpgradeExecutionTerminalInput where
  terminalRevision : Text
  deriving DecidableEq

/-- The digests of the artifacts and the schema of a terminal. -/
structure UpgradeArtifacts where
  workspacePlanRevision : Option PlanFile → Except Thrown Text
  lockStateRevision : Option LockFile → Except Thrown Text
  terminalRevision : UpgradeExecutionTerminalInput → Except Thrown Text
  validateUpgradeExecutionTerminal : UpgradeExecutionTerminal → Except Thrown Unit

def UpgradeArtifacts.createUpgradeExecutionTerminal (artifacts : UpgradeArtifacts)
    (input : UpgradeExecutionTerminalInput) : Except Thrown UpgradeExecutionTerminal := do
  let revision ← artifacts.terminalRevision input
  artifacts.validateUpgradeExecutionTerminal ⟨input, revision⟩
  return ⟨input, revision⟩

def blockVersion (blockId : Text) (blocks : List PlanBlock) : Option Text :=
  (blocks.find? fun block => block.id == blockId).map (·.version)

/-- A terminal compiled from observed state. -/
def UpgradeArtifacts.compileUpgradeExecutionTerminal (artifacts : UpgradeArtifacts) (plan : UpgradePlan)
    (attempt : UpgradeExecutionAttempt) (resultLock : Option LockFile) (settlement : Settlement)
    (persistedPlanRevision : Text) (workspacePlan : Option PlanFile) : Except Thrown UpgradeExecutionTerminal := do
  let workspacePlanRevision ← artifacts.workspacePlanRevision workspacePlan
  let resultLockRevision ← artifacts.lockStateRevision resultLock
  artifacts.createUpgradeExecutionTerminal
    { workspaceIdentityDigest := plan.workspaceIdentityDigest
      operationIdentityDigest := plan.operationIdentityDigest
      planRevision := plan.planRevision
      attempt := attempt
      receipts := ⟨workspacePlanRevision, resultLockRevision, persistedPlanRevision⟩
      settlement := settlement
      readback := ⟨workspacePlan.bind fun file => blockVersion plan.blockId file.blocks,
        resultLock.bind fun lock => blockVersion plan.blockId lock.resolvedBlocks⟩ }

/-! ## The injected operations -/

structure UpgradeRecoverySnapshotLocator where
  path : Text
  device : Text
  inode : Text
  parentPath : Text
  parentDevice : Text
  parentInode : Text
  deriving DecidableEq

def UpgradeRecoverySnapshotLocator.toValue (locator : UpgradeRecoverySnapshotLocator) : Value :=
  .obj [
    (Text.ofString "path", .str locator.path),
    (Text.ofString "device", .str locator.device),
    (Text.ofString "inode", .str locator.inode),
    (Text.ofString "parentPath", .str locator.parentPath),
    (Text.ofString "parentDevice", .str locator.parentDevice),
    (Text.ofString "parentInode", .str locator.parentInode),
    (Text.ofString "status", .str (Text.ofString "retained-locator-only"))]

inductive Resolution where
  | committed
  | absent
  | unknown
  deriving DecidableEq

inductive DiagnosticsPhase where
  | apply
  | recovery
  deriving DecidableEq

/-- The calls of the lifecycle. -/
inductive UpgradeCall (Backup : Type) where
  | snapshot
  | recoverySnapshot (backup : Backup)
  | clearExecutionTerminal
  | clearDiagnostics
  | publishPlan (plan : UpgradePlan)
  | apply (backup : Backup)
  | readPersistedPlan
  | readWorkspacePlan
  | publish (terminal : UpgradeExecutionTerminal)
  | resolvePublication (expected : UpgradeExecutionTerminal)
  | isBeforeEffectFailure (failure : Thrown)
  | recordGeneratedArtifacts (lock : LockFile)
  | restore (backup : Backup)
  | publishExecutionTerminal (terminal : UpgradeExecutionTerminal)
  | publishDiagnostics (phase : DiagnosticsPhase) (terminal : UpgradeExecutionTerminal) (failure : Thrown)
      (resultLock : Option LockFile)
  | retireBackup (backup : Backup) (primaryFailure : Option Thrown)

/-- What a call that does not throw returns. -/
abbrev UpgradeCall.Answer {Backup : Type} : UpgradeCall Backup → Type
  | .snapshot => Backup
  | .recoverySnapshot _ => UpgradeRecoverySnapshotLocator
  | .clearExecutionTerminal | .clearDiagnostics | .publishPlan _ => Unit
  | .apply _ => LockFile
  | .readPersistedPlan => UpgradePlan
  | .readWorkspacePlan => PlanFile
  | .publish _ | .publishExecutionTerminal _ => UpgradeExecutionTerminal
  | .resolvePublication _ => Resolution
  | .isBeforeEffectFailure _ => Bool
  | .recordGeneratedArtifacts _ | .restore _ | .publishDiagnostics .. | .retireBackup .. => Unit

/-- The mutable variables of the lifecycle. -/
structure LifecycleState where
  pendingApplyFailure : Option Thrown
  retainBackupForRecovery : Bool
  appliedTerminalCommitted : Bool
  appliedTerminalCommitUnknown : Bool
  appliedTerminalDurabilityUncertain : Bool
  postCommitFailures : List Thrown

def LifecycleState.initial : LifecycleState := ⟨none, false, false, false, false, []⟩

variable {Backup : Type}

abbrev Lifecycle (Backup α : Type) : Type := CallM LifecycleState (UpgradeCall Backup) UpgradeCall.Answer Thrown α

/-- One of the injected operations. -/
abbrev call (k : UpgradeCall Backup) : Lifecycle Backup k.Answer := perform k

def blocked (message : Text) (details : Value) (cause : Option Thrown) : Thrown :=
  .coded (Text.ofString "UPGRADE-BLOCKED-005") message (.value details) cause

/-! ## Terminals -/

structure UpgradeApplyInput where
  plan : PlanFile
  existingLock : Option LockFile
  upgradePlan : UpgradePlan
  attempt : UpgradeExecutionAttempt

/-- A workspace plan that cannot be read back is recorded as unresolved when recovery is required. -/
def buildUpgradeExecutionTerminal (artifacts : UpgradeArtifacts) (input : UpgradeApplyInput)
    (resultLock : Option LockFile) (settlement : Settlement) : Lifecycle Backup UpgradeExecutionTerminal := do
  let persistedPlan ← call .readPersistedPlan
  let workspacePlan ← tryCatch (some <$> call .readWorkspacePlan) fun failure =>
    if settlement ≠ .recoveryRequired then throw failure else pure none
  result (artifacts.compileUpgradeExecutionTerminal input.upgradePlan input.attempt resultLock settlement
    persistedPlan.planRevision workspacePlan)

/-- `AppliedUpgradeTerminalPublicationOutcome`: a committed terminal, with the failure of the publication when its
durability is uncertain, or a terminal that is not committed as far as is known. -/
inductive PublicationOutcome where
  | committed (terminal : UpgradeExecutionTerminal) (uncertain : Option Thrown)
  | notCommitted (commitUnknown : Bool) (publicationFailure : Thrown)

/-- `resolvePublication` and `isBeforeEffectFailure` are called in the handler, where nothing catches their
throws. -/
def publishAppliedUpgradeTerminal (expected : UpgradeExecutionTerminal) : Lifecycle Backup PublicationOutcome :=
  tryCatch ((PublicationOutcome.committed · none) <$> call (.publish expected)) fun publicationFailure => do
    let resolution ← call (.resolvePublication expected)
    match resolution with
    | .committed => pure (.committed expected (some publicationFailure))
    | .unknown => pure (.notCommitted true publicationFailure)
    | .absent =>
        (fun before => .notCommitted (!before) publicationFailure) <$>
          call (.isBeforeEffectFailure publicationFailure)

/-! ## Rollback -/

structure UpgradeRollbackResolution where
  settlement : Settlement
  retainBackupForRecovery : Bool
  diagnosticFailure : Thrown

def rollbackStatus (settlement : Settlement) : Value :=
  .str (Text.ofString (if settlement = .rolledBack then "restored" else "recovery-required"))

/-- The coded failure of the apply itself. -/
def applyDiagnostic (applyFailure : Thrown) (settlement : Settlement) : Except Thrown Thrown :=
  match applyFailure with
  | .coded code message details cause => withRollbackDiagnostics code message details cause
  | failure =>
      .ok (blocked (Text.ofString "Upgrade apply failed: " ++ failure.failureMessage)
        (.obj [(Text.ofString "rollbackStatus", rollbackStatus settlement)]) (some failure))

def failureCode : Thrown → Text
  | .coded code _ _ _ => code
  | _ => []

def recoveryDiagnostic (applyFailure failure rollbackFailure : Thrown) (locator : UpgradeRecoverySnapshotLocator) :
    Thrown :=
  blocked (Text.ofString "Upgrade recovery is required: " ++ rollbackFailure.failureMessage)
    (.obj [
      (Text.ofString "rollbackStatus", .str (Text.ofString "recovery-required")),
      (Text.ofString "originalErrorCode", .str (failureCode failure)),
      (Text.ofString "recoverySnapshot", locator.toValue)])
    (some (.aggregate [applyFailure, rollbackFailure] (Text.ofString "Upgrade apply and rollback failed")
      (some applyFailure)))

def commitUnresolved : Thrown :=
  blocked (Text.ofString "Upgrade applied terminal publication could not be resolved as committed or absent")
    (.obj []) none

/-- The failure of the restore, if it was called and threw; an unknown commit is not restored. -/
def restoreFailure (backup : Backup) (appliedTerminalCommitUnknown : Bool) : Lifecycle Backup (Option Thrown) :=
  if appliedTerminalCommitUnknown then pure (some commitUnresolved)
  else tryCatch ((fun _ => none) <$> call (.restore backup)) fun recoveryError => pure (some recoveryError)

def resolveUpgradeRollback (applyFailure : Thrown) (appliedTerminalCommitUnknown : Bool)
    (locator : UpgradeRecoverySnapshotLocator) (backup : Backup) : Lifecycle Backup UpgradeRollbackResolution := do
  let rollbackFailure ← restoreFailure backup appliedTerminalCommitUnknown
  let settlement : Settlement := if rollbackFailure.isNone then .rolledBack else .recoveryRequired
  let failure ← result (applyDiagnostic applyFailure settlement)
  pure {
    settlement := settlement
    retainBackupForRecovery := rollbackFailure.isSome
    diagnosticFailure := (rollbackFailure.map (recoveryDiagnostic applyFailure failure · locator)).getD failure }

/-! ## Failure artifacts -/

/-- A publication whose failure is kept as a secondary one. -/
def attempted {α : Type} (publication : Lifecycle Backup α) : Lifecycle Backup (Option α × List Thrown) :=
  tryCatch ((fun value => (some value, [])) <$> publication) fun failure => pure (none, [failure])

/-- An unknown commit suppresses a competing failure terminal, and without a terminal there are no diagnostics. -/
def publishUpgradeApplyFailureArtifacts {α : Type} (primary : Thrown) (appliedTerminalCommitUnknown : Bool)
    (buildTerminal : Lifecycle Backup UpgradeExecutionTerminal)
    (publishDiagnostics : UpgradeExecutionTerminal → Lifecycle Backup Unit) : Lifecycle Backup α := do
  let published ← (if appliedTerminalCommitUnknown then pure (none, [])
    else attempted (buildTerminal >>= fun built => call (.publishExecutionTerminal built)))
  let diagnosed ← published.1.elim (pure (none, [])) fun terminal => attempted (publishDiagnostics terminal)
  let failure ← result (upgradeFailureWithSecondaryFailures primary (published.2 ++ diagnosed.2)
    (Text.ofString "Upgrade apply failed and failure artifact publication did not complete"))
  throw failure

/-! ## Resource settlement -/

/-- Every cleanup is attempted, whatever the ones before it did. -/
def settleCleanup : List (Text × Lifecycle Backup Unit) → Lifecycle Backup (List (Text × Thrown))
  | [] => pure []
  | (label, settle) :: rest => do
      let settled ← attempted settle
      let others ← settleCleanup rest
      pure (settled.2.map (label, ·) ++ others)

/-- `settleResourcesAsync` with a primary failure. -/
def settleResourcesAsync {α : Type} (label : Text) (primary : Thrown) (cleanup : List (Text × Lifecycle Backup Unit)) :
    Lifecycle Backup α := do
  let failures ← settleCleanup cleanup
  throw (if failures.isEmpty then primary else .composite ((label, primary) :: failures))

/-! ## The lifecycle -/

structure UpgradeAppliedWorkspaceResult where
  plan : PlanFile
  lock : LockFile
  upgradePlan : UpgradePlan
  upgradeExecutionTerminal : UpgradeExecutionTerminal

/-- After a commit nothing is rolled back; an uncertain durability keeps the locator in the failure. -/
def buildUpgradeCommittedFailure (failure : Thrown) (durabilityUncertain : Bool)
    (locator : UpgradeRecoverySnapshotLocator) (postCommitFailures : List Thrown) : Except Thrown Thrown := do
  let primary ← failure.asError
  let postCommitFailure ←
    if durabilityUncertain then do
      let message ← primary.message
      pure (blocked (Text.ofString "Upgrade applied terminal is externally visible but its durability did not settle: "
          ++ message)
        (.obj [
          (Text.ofString "rollbackStatus", .str (Text.ofString "recovery-required")),
          (Text.ofString "recoverySnapshot", locator.toValue)])
        (some primary))
    else pure primary
  upgradeFailureWithSecondaryFailures postCommitFailure (postCommitFailures.filter fun other => !other.same failure)
    (Text.ofString "Upgrade applied terminal committed but post-commit work failed")

def requireApplied (terminal : UpgradeExecutionTerminal) : Except Thrown Unit :=
  if terminal.settlement = .applied then .ok ()
  else .error (blocked (Text.ofString "Upgrade execution did not settle as applied") (.obj []) none)

/-- An uncertain durability keeps the backup, and its failure for later. -/
def noteUncertainty (publicationFailure : Thrown) (s : LifecycleState) : LifecycleState :=
  { s with
    appliedTerminalDurabilityUncertain := true
    retainBackupForRecovery := true
    postCommitFailures := s.postCommitFailures ++ [publicationFailure] }

/-- The rest of the attempt once the outcome of the publication is known. -/
def settlePublication (input : UpgradeApplyInput) (lock : LockFile) :
    PublicationOutcome → Lifecycle Backup UpgradeAppliedWorkspaceResult
  | .notCommitted commitUnknown publicationFailure => do
      change ({ · with appliedTerminalCommitUnknown := commitUnknown })
      throw publicationFailure
  | .committed terminal none => do
      change ({ · with appliedTerminalCommitted := true })
      result (requireApplied terminal)
      call (.recordGeneratedArtifacts lock)
      pure ⟨input.plan, lock, input.upgradePlan, terminal⟩
  | .committed terminal (some publicationFailure) => do
      change ({ · with appliedTerminalCommitted := true })
      change (noteUncertainty publicationFailure)
      result (requireApplied terminal)
      let failure ← result publicationFailure.asError
      throw failure

/-- The attempt up to the terminal it expects. -/
def prepareUpgrade (artifacts : UpgradeArtifacts) (input : UpgradeApplyInput) (backup : Backup) :
    Lifecycle Backup (LockFile × UpgradeExecutionTerminal) := do
  call .clearExecutionTerminal
  call .clearDiagnostics
  call (.publishPlan input.upgradePlan)
  let lock ← call (.apply backup)
  let expectedTerminal ← buildUpgradeExecutionTerminal artifacts input (some lock) .applied
  pure (lock, expectedTerminal)

/-- The body of the `try`. -/
def attemptUpgrade (artifacts : UpgradeArtifacts) (input : UpgradeApplyInput) (backup : Backup) :
    Lifecycle Backup UpgradeAppliedWorkspaceResult := do
  let prepared ← prepareUpgrade artifacts input backup
  let outcome ← publishAppliedUpgradeTerminal prepared.2
  settlePublication input prepared.1 outcome

/-- A failure is kept as the pending one, and thrown again. -/
def rethrow {α : Type} (failure : Thrown) : Lifecycle Backup α := do
  change ({ · with pendingApplyFailure := some failure })
  throw failure

def rollBackUpgrade (artifacts : UpgradeArtifacts) (input : UpgradeApplyInput) (backup : Backup)
    (locator : UpgradeRecoverySnapshotLocator) (applyFailure : Thrown) (appliedTerminalCommitUnknown : Bool) :
    Lifecycle Backup UpgradeAppliedWorkspaceResult := do
  change ({ · with retainBackupForRecovery := true })
  let rollback ← resolveUpgradeRollback applyFailure appliedTerminalCommitUnknown locator backup
  change ({ · with retainBackupForRecovery := rollback.retainBackupForRecovery })
  let restored := rollback.settlement = .rolledBack
  tryCatch
    (publishUpgradeApplyFailureArtifacts rollback.diagnosticFailure appliedTerminalCommitUnknown
      (buildUpgradeExecutionTerminal artifacts input (if restored then input.existingLock else none)
        rollback.settlement)
      fun terminal => call (.publishDiagnostics (if restored then .apply else .recovery) terminal
        rollback.diagnosticFailure (if restored then none else input.existingLock)))
    fun failure : Thrown => result failure.asError >>= rethrow

/-- The handler of the `try`. -/
def recoverUpgrade (artifacts : UpgradeArtifacts) (input : UpgradeApplyInput) (backup : Backup)
    (locator : UpgradeRecoverySnapshotLocator) (failure : Thrown) : Lifecycle Backup UpgradeAppliedWorkspaceResult := do
  let s ← current
  if s.appliedTerminalCommitted then
    result (buildUpgradeCommittedFailure failure s.appliedTerminalDurabilityUncertain locator s.postCommitFailures)
      >>= rethrow
  else rollBackUpgrade artifacts input backup locator failure s.appliedTerminalCommitUnknown

def executeUpgradeApplyLifecycle (artifacts : UpgradeArtifacts) (input : UpgradeApplyInput) :
    Lifecycle Backup UpgradeAppliedWorkspaceResult := do
  let backup ← call .snapshot
  let locator ← tryCatch (call (.recoverySnapshot backup)) fun failure =>
    settleResourcesAsync (Text.ofString "upgrade-recovery-snapshot") failure
      [(Text.ofString "upgrade-backup", call (.retireBackup backup none))]
  finallyDo (tryCatch (attemptUpgrade artifacts input backup) (recoverUpgrade artifacts input backup locator))
    fun s => if s.retainBackupForRecovery then pure ()
      else call (.retireBackup backup s.pendingApplyFailure)

end SecPlatform.Upgrade
