import SecPlatform.BranchLifecycle.Audit

/-!
# Closing out a branch

The authorization decides what may be deleted of a prepared branch. Every doubt is a blocker, and one blocker takes both
deletions back. The status of a closeout is read from a later inventory.
-/

namespace SecPlatform.BranchLifecycle

open Contracts
open VerificationAction (LocaleText)

/-! ## Preparations -/

inductive AbsorptionBasis where
  | nativeAncestor | identicalTree
  deriving DecidableEq, Repr

structure MainAbsorption where
  sourceSha : Text
  sourceTreeSha : Text
  mainSha : Text
  mainTreeSha : Text
  basis : AbsorptionBasis
  deriving DecidableEq

/-- A bundle, or the absorption of the branch by main. -/
structure BranchRecoveryAuthority where
  path : Text
  sha256 : Text
  verified : Bool
  verifyOutput : Text
  absorption : Option MainAbsorption
  deriving DecidableEq

def BranchRecoveryAuthority.kind (recovery : BranchRecoveryAuthority) : Text :=
  if recovery.absorption.isSome then "main-absorption" else "bundle"

inductive RefState where
  | present | absent
  deriving DecidableEq, Repr

def RefState.toText : RefState → Text
  | .present => "present"
  | .absent => "absent"

structure BranchCloseoutPreparation where
  schema : Text
  repository : RepositoryIdentity
  branch : Text
  refState : RefState
  expectedHeadSha : Text
  expectedRemoteSha : Text
  expectedLocalSha : Option Text
  expectedPrHeadSha : Option Text
  pullRequestNumber : Option Int
  pullRequestStateAtPreparation : Option PullRequestState
  recovery : BranchRecoveryAuthority
  worktreePathsAtPreparation : List Text
  preparationDigest : Text
  deriving DecidableEq

def BRANCH_CLOSEOUT_PREPARATION_SCHEMA : Text := "sec-branch-closeout-preparation-v1"

def BRANCH_REF_CLOSEOUT_CAPABILITY : Text := "branch-ref-closeout-v1"

inductive BranchCloseoutDisposition where
  | merged | closedSuperseded | completedSpike
  deriving DecidableEq, Repr

def BranchCloseoutDisposition.toText : BranchCloseoutDisposition → Text
  | .merged => "merged"
  | .closedSuperseded => "closed-superseded"
  | .completedSpike => "completed-spike"

inductive DurableGoalKind where
  | main | issue | evidence
  deriving DecidableEq, Repr

structure BranchCloseoutRequest where
  capability : Text
  disposition : BranchCloseoutDisposition
  durableGoalKind : DurableGoalKind
  durableGoalReference : Text
  deriving DecidableEq

/-! ## Digests -/

section Locale

variable [LocaleText]

mutual
/-- `stableValue`: the members of every object in the order of `localeCompare`. -/
def stableValue : Value → Value
  | .arr items => .arr (stableItems items)
  | .obj members => .obj (Json.ownOrder ((stableMembers members).insertionSort fun left right =>
      LocaleText.localeCompare left.1 right.1 ≠ .gt))
  | .null => .null
  | .bool b => .bool b
  | .num n => .num n
  | .str s => .str s

def stableItems : List Value → List Value
  | [] => []
  | v :: vs => stableValue v :: stableItems vs

def stableMembers : List (Text × Value) → List (Text × Value)
  | [] => []
  | (k, v) :: ms => (k, stableValue v) :: stableMembers ms
end

def branchLifecycleDigest [Sha256] (value : Value) : Text := (Sha256.rawSha256 (stableValue value).render).val

end Locale

def nullableText (value : Option Text) : Value :=
  match value with
  | none => .null
  | some data => .str data

def numberValue (number : Int) : Value := .num (JsNumber.read ⟨decide (number < 0), Digit.ofNat number.natAbs, [], none⟩)

def branchCloseoutPreparationIdentity (preparation : BranchCloseoutPreparation) : Value := .obj [
  ("schema", .str preparation.schema),
  ("repository", .obj [
    ("fullName", .str preparation.repository.fullName),
    ("remote", .str preparation.repository.remote),
    ("defaultBranch", .str preparation.repository.defaultBranch)]),
  ("branch", .str preparation.branch),
  ("refState", .str preparation.refState.toText),
  ("expectedHeadSha", .str preparation.expectedHeadSha),
  ("expectedRemoteSha", .str preparation.expectedRemoteSha),
  ("expectedPrHeadSha", nullableText preparation.expectedPrHeadSha),
  ("pullRequestNumber", (preparation.pullRequestNumber.map numberValue).getD .null),
  ("pullRequestStateAtPreparation",
    nullableText (preparation.pullRequestStateAtPreparation.map PullRequestState.toText)),
  ("recovery", .obj [
    ("kind", .str preparation.recovery.kind),
    ("sha256", .str preparation.recovery.sha256),
    ("verified", .bool preparation.recovery.verified)])]

def assertBranchCloseoutPreparation [LocaleText] [Sha256] (preparation : BranchCloseoutPreparation) :
    Except Text Unit := do
  require (preparation.schema = BRANCH_CLOSEOUT_PREPARATION_SCHEMA) "Branch closeout preparation schema mismatch."
  require (branchLifecycleDigest (branchCloseoutPreparationIdentity preparation) = preparation.preparationDigest)
    "Branch closeout preparation digest mismatch."
  assertGitBranchName preparation.branch "Git branch"
  assertGitSha preparation.expectedHeadSha "expectedHeadSha"
  assertGitSha preparation.expectedRemoteSha "expectedRemoteSha"
  let _ ← normalizeSha preparation.expectedLocalSha "expectedLocalSha"
  let _ ← normalizeSha preparation.expectedPrHeadSha "expectedPrHeadSha"

/-! ## Recovery -/

/-- The functions of `path` on the host. -/
class HostPaths where
  isAbsolute : Text → Bool
  resolve : Text → Text
  relative : Text → Text → Text
  sep : Text

section Paths

variable [HostPaths]

def normalizeAbsolutePath (value : Text) : Except Text Text := do
  require (HostPaths.isAbsolute value) (Text.cat ["Path must be absolute: ", value])
  return HostPaths.resolve value

def isPathWithin (candidate parent : Text) : Except Text Bool := do
  let normalizedCandidate ← normalizeAbsolutePath candidate
  let normalizedParent ← normalizeAbsolutePath parent
  let relative := HostPaths.relative normalizedParent normalizedCandidate
  return decide (relative = []) || (decide (relative ≠ Text.ofString "..") &&
    !decide (Text.cat ["..", HostPaths.sep] <+: relative) && !HostPaths.isAbsolute relative)

def assertMainAbsorption (recovery : BranchRecoveryAuthority) : Except Text Unit :=
  match recovery.absorption with
  | none => .ok ()
  | some absorption => do
      assertGitSha absorption.sourceSha "Recovery source"
      assertGitSha absorption.sourceTreeSha "Recovery source tree"
      assertGitSha absorption.mainSha "Recovery main"
      assertGitSha absorption.mainTreeSha "Recovery main tree"
      require (recovery.verifyOutput ≠ [] ∧ recovery.verifyOutput.length ≤ 4096)
        "Main absorption verification output is invalid."

def assertOutside (recoveryPath forbiddenRoot : Text) : Except Text Unit := do
  let within ← isPathWithin recoveryPath forbiddenRoot
  require (within = false) (Text.cat
    ["Recovery authority must be outside repository/common-dir/worktree roots: ", forbiddenRoot])

def assertDurableRecoveryAuthority (recovery : BranchRecoveryAuthority) (inventory : BranchLifecycleInventory) :
    Except Text Unit := do
  require recovery.verified "Recovery authority must be verified."
  require (isDigest recovery.sha256) "Recovery authority digest must be SHA-256."
  assertMainAbsorption recovery
  let recoveryPath ← normalizeAbsolutePath recovery.path
  let forbiddenRoots := (inventory.repository.root :: inventory.repository.commonDir ::
    inventory.worktrees.map BranchWorktreeObservation.path).eraseDups
  forbiddenRoots.forM (assertOutside recoveryPath)

end Paths

/-! ## Blockers -/

/-- The blocker when the condition holds. -/
def blockIf (condition : Prop) [Decidable condition] (blocker : Text) : List Text := entryIf condition blocker

def currentPullRequest (inventory : BranchLifecycleInventory) (number : Int) : Option BranchPullRequestObservation :=
  inventory.pullRequests.find? fun pullRequest => pullRequest.number = number

def remoteRef (inventory : BranchLifecycleInventory) (branch : Text) : Option BranchRefObservation :=
  inventory.remoteBranches.find? fun ref => ref.branch = branch

def localRef (inventory : BranchLifecycleInventory) (branch : Text) : Option BranchRefObservation :=
  inventory.localBranches.find? fun ref => ref.branch = branch

/-- The message of the error, when the check throws one. -/
def thrown (check : Except Text Unit) : List Text :=
  match check with
  | .ok _ => []
  | .error message => [message]

/-- The head that the prepared pull request has to have. -/
def BranchCloseoutPreparation.pullRequestHead (preparation : BranchCloseoutPreparation) : Option Text :=
  match preparation.refState with
  | .absent => preparation.expectedPrHeadSha
  | .present => some preparation.expectedHeadSha

/-- `/^main@([0-9a-f]{40})$/u`. -/
def mainGoalSha (reference : Text) : Option Text :=
  if Text.ofString "main@" <+: reference ∧ isGitSha (reference.drop 5) then some (reference.drop 5) else none

def durableGoalBlocker (request : BranchCloseoutRequest) (inventory : BranchLifecycleInventory) : Option Text :=
  if request.durableGoalReference.trim ≠ request.durableGoalReference then
    some "durable goal reference must be trimmed"
  else if request.durableGoalReference = [] then some "durable goal reference is required"
  else if request.disposition = .merged then
    if request.durableGoalKind ≠ .main then some "merged closeout must retain its durable goal on main"
    else match mainGoalSha request.durableGoalReference with
      | none => some "merged durable goal must be \x60main@<40-char-sha>\x60"
      | some sha =>
          if inventory.mainRemoteSha ≠ some sha then some "merged durable goal SHA must match current remote main"
          else none
  else if request.durableGoalKind = .main then
    some "non-merged closeout must retain its goal in an Issue or canonical Evidence"
  else none

/-- Before and now the pull request is the one that was prepared. -/
def preparedPullRequestBlockers (preparation : BranchCloseoutPreparation) (before : BranchLifecycleInventory) :
    List Text :=
  match preparation.pullRequestNumber with
  | none => []
  | some number =>
      blockIf (¬(currentPullRequest before number).any fun pullRequest =>
          pullRequest.headBranch = preparation.branch ∧ pullRequest.headSha = preparation.pullRequestHead ∧
            some pullRequest.state = preparation.pullRequestStateAtPreparation)
        "preparation does not bind one exact PR head and state"

def absentPullRequestBlockers (preparation : BranchCloseoutPreparation) (pullRequest : BranchPullRequestObservation) :
    List Text :=
  blockIf (pullRequest.headBranch ≠ preparation.branch) "current PR head branch differs from the prepared branch" ++
  blockIf (pullRequest.headSha ≠ none ∧ pullRequest.headSha ≠ preparation.expectedPrHeadSha)
    "current PR head SHA differs from the prepared PR-recorded head" ++
  match preparation.pullRequestStateAtPreparation with
  | none => []
  | some state => blockIf (pullRequest.state ≠ state) (Text.cat ["current PR state must be ", state.toText])

def refStateBlockers (preparation : BranchCloseoutPreparation) (before current : BranchLifecycleInventory) : List Text :=
  match preparation.refState with
  | .absent =>
      blockIf (remoteRef before preparation.branch ≠ none ∨ remoteRef current preparation.branch ≠ none)
        "absent-ref closeout observed a surviving remote ref" ++
      match currentPullRequest current (preparation.pullRequestNumber.getD (-1)) with
      | none => []
      | some pullRequest => absentPullRequestBlockers preparation pullRequest
  | .present =>
      blockIf ((remoteRef before preparation.branch).map BranchRefObservation.sha ≠ some preparation.expectedRemoteSha)
        "preparation does not bind the exact pre-merge remote ref"

/-- The state that a disposition demands of its pull request. -/
def BranchCloseoutDisposition.pullRequestState : BranchCloseoutDisposition → Option PullRequestState
  | .merged => some .merged
  | .closedSuperseded => some .closed
  | .completedSpike => none

def boundPullRequestBlockers (preparation : BranchCloseoutPreparation) (disposition : BranchCloseoutDisposition)
    (current : BranchLifecycleInventory) : List Text :=
  match disposition.pullRequestState with
  | none => []
  | some state =>
      match preparation.pullRequestNumber with
      | none => ["merged or closed-superseded closeout requires an exact PR binding"]
      | some number =>
          match currentPullRequest current number with
          | none => ["current PR readback is missing"]
          | some pullRequest =>
              blockIf (pullRequest.headBranch ≠ preparation.branch ∨ pullRequest.headSha ≠ preparation.pullRequestHead)
                "current PR identity differs from the prepared PR" ++
              blockIf (pullRequest.state ≠ state) (Text.cat ["current PR state must be ", state.toText])

def workPackageBlockers (preparation : BranchCloseoutPreparation) (current : BranchLifecycleInventory) : List Text :=
  let active := current.activeWorkPackage
  if active.state = .active ∧ active.branch = some preparation.branch then
    ["active Work Package still selects the candidate being closed out"]
  else blockIf (active.state = .invalid ∨ active.state = .unresolved)
    "active Work Package readback is invalid or unresolved"

/-- An open pull request has the branch as its head, from this repository, or as its base. -/
def consumesBranch (branch : Text) (pullRequest : BranchPullRequestObservation) : Bool :=
  decide (pullRequest.state = .opened) &&
    ((!pullRequest.isCrossRepository && decide (pullRequest.headBranch = branch)) ||
      decide (pullRequest.baseBranch = branch))

/-! ## Classification -/

def dispositionClassifications : BranchCloseoutDisposition → List BranchLifecycleClassification
  | .merged => [.activeCandidate, .openPrCandidate, .mergedCloseout, .protectedPending]
  | .closedSuperseded => [.closedSuperseded, .protectedPending]
  | .completedSpike => [.completedSpike, .orphanUnknown, .protectedPending]

def resolveClassification [LocaleText] (inventory : BranchLifecycleInventory) (branch : Text) :
    Except Text ClassifiedBranchLifecycle := do
  let classified ← classifyBranchLifecycle inventory []
  return (classified.find? fun entry => entry.branch = branch).getD
    ⟨branch, none, none, .orphanUnknown, [], [], ["branch absent from current inventory"]⟩

/-! ## Worktrees -/

/-- What a receipt of a physical closeout has to be about. -/
structure WorktreeCloseoutTarget where
  repositoryRoot : Text
  targetPath : Text
  branch : Text
  headSha : Text
  treeSha : Text
  recoveryAuthorityDigest : Text
  deriving DecidableEq

/-- `assertTrustedCompletedWorktreePhysicalCloseout`: the tokens of this process, checked against the file system. -/
class WorktreeCloseouts where
  Token : Type
  trusted : Token → WorktreeCloseoutTarget → Bool

structure BranchCloseoutInput [WorktreeCloseouts] where
  preparation : BranchCloseoutPreparation
  request : BranchCloseoutRequest
  before : BranchLifecycleInventory
  current : BranchLifecycleInventory
  worktreeCleanupTokens : Option (List WorktreeCloseouts.Token)
  expectedHeadTreeSha : Option Text
  foreignWorktreeObservationDigests : Option (List Text)

section Worktrees

variable [LocaleText] [WorktreeCloseouts]

def foreignBlockers (input : BranchCloseoutInput) : List Text :=
  let foreignObservations := uniqueLocale (input.foreignWorktreeObservationDigests.getD [])
  if foreignObservations.any fun digest => !isDigest digest then
    ["foreign worktree closeout observation identity is invalid"]
  else blockIf (foreignObservations ≠ []) "external-maintainer-disposition-required"

/-- One receipt for every path that a worktree of the branch had. -/
def receiptBlockers (input : BranchCloseoutInput) (targetPath : Text) : List Text :=
  let matches_ := (input.worktreeCleanupTokens.getD []).filter fun token => WorktreeCloseouts.trusted token
    { repositoryRoot := input.current.repository.root
      targetPath
      branch := input.preparation.branch
      headSha := input.preparation.expectedHeadSha
      treeSha := input.expectedHeadTreeSha.getD []
      recoveryAuthorityDigest := input.preparation.recovery.sha256 }
  blockIf (matches_.length ≠ 1)
    (Text.cat ["exact completed worktree cleanup receipt is required for ", targetPath])

def worktreeBlockers (input : BranchCloseoutInput) : List Text :=
  let preparedBoundPaths := uniqueLocale input.preparation.worktreePathsAtPreparation
  if matchingWorktrees input.current input.preparation.branch ≠ [] then
    ["registered worktree must reach completed physical closeout before branch/ref CAS"]
  else if preparedBoundPaths ≠ [] then
    blockIf (¬input.expectedHeadTreeSha.any isGitSha)
      "exact prepared head tree is required to consume worktree cleanup receipts" ++
    preparedBoundPaths.flatMap (receiptBlockers input)
  else []

/-- `path (details)`. -/
def worktreeProtection (worktree : BranchWorktreeObservation) : Text :=
  let count (label : Text) (value : Option Nat) : Text :=
    Text.cat [label, "=", (value.map Text.ofNat).getD "unknown"]
  let details : List Text := worktree.observation.toText ::
    (blockIf (worktree.locked = true) (Text.ofString "locked") ++
      blockIf (worktree.prunable = true) (Text.ofString "prunable") ++
      [count "dirty" worktree.dirtyCount, count "untracked" worktree.untrackedCount])
  Text.cat [worktree.path, " (", Text.joinWith "," details, ")"]

end Worktrees

/-! ## Actions -/

inductive RemoteAction where
  | deleteCas | alreadyAbsent | blocked
  deriving DecidableEq, Repr

inductive LocalAction where
  | deleteExact | alreadyAbsent | protectLocal | blocked
  deriving DecidableEq, Repr

structure BranchCloseoutAuthorization where
  branch : Text
  classification : BranchLifecycleClassification
  remoteAction : RemoteAction
  localAction : LocalAction
  blockers : List Text
  protections : List Text
  deriving DecidableEq

def remoteDecision (preparation : BranchCloseoutPreparation) (current : BranchLifecycleInventory) :
    RemoteAction × List Text :=
  match remoteRef current preparation.branch with
  | none => (.alreadyAbsent, [])
  | some ref =>
      if ref.sha = preparation.expectedRemoteSha then (.deleteCas, [])
      else (.blocked, ["remote branch SHA changed after preparation"])

section Authorize

variable [LocaleText]

/-- The action, its blockers and its protections. -/
def localDecision (preparation : BranchCloseoutPreparation) (current : BranchLifecycleInventory) :
    LocalAction × List Text × List Text :=
  let boundWorktrees := matchingWorktrees current preparation.branch
  match localRef current preparation.branch, preparation.expectedLocalSha with
  | none, _ => (.alreadyAbsent, [], [])
  | some _, none => (.blocked, ["local branch appeared after preparation"], [])
  | some ref, some expectedLocalSha =>
      if ref.sha ≠ expectedLocalSha then (.blocked, ["local branch SHA changed after preparation"], [])
      else if expectedLocalSha ≠ preparation.expectedHeadSha then
        (.protectLocal, [], [Text.cat ["local branch ", preparation.branch, "@", expectedLocalSha,
          " diverges from recovered remote head ", preparation.expectedHeadSha]])
      else if boundWorktrees ≠ [] then (.protectLocal, [], boundWorktrees.map worktreeProtection)
      else (.deleteExact, [], [])

variable [Sha256] [HostPaths] [WorktreeCloseouts]

/-- The blockers before the actions are chosen. -/
def factBlockers (input : BranchCloseoutInput) (classified : BranchLifecycleClassification) : List Text :=
  let { preparation, request, before, current, .. } := input
  thrown (assertBranchCloseoutPreparation preparation) ++
  blockIf (request.capability ≠ BRANCH_REF_CLOSEOUT_CAPABILITY) "branch/ref closeout capability is missing" ++
  blockIf (preparation.branch = current.repository.defaultBranch) "default branch cannot be closed out" ++
  blockIf (preparation.repository ≠ current.repository)
    "prepared repository identity does not match current inventory" ++
  preparedPullRequestBlockers preparation before ++
  refStateBlockers preparation before current ++
  thrown (assertDurableRecoveryAuthority preparation.recovery current) ++
  (durableGoalBlocker request current).toList ++
  boundPullRequestBlockers preparation request.disposition current ++
  workPackageBlockers preparation current ++
  blockIf (current.pullRequests.any (consumesBranch preparation.branch) = true)
    "branch is still consumed by an open PR" ++
  blockIf (before.unknowns ≠ [] ∨ current.unknowns ≠ []) "inventory contains unresolved facts" ++
  blockIf (classified ∉ dispositionClassifications request.disposition) (Text.cat
    ["disposition ", request.disposition.toText, " cannot close out ", classified.toText]) ++
  foreignBlockers input ++
  worktreeBlockers input

def authorizeBranchCloseout (input : BranchCloseoutInput) : Except Text BranchCloseoutAuthorization := do
  let { preparation, current, .. } := input
  let classified ← resolveClassification current preparation.branch
  let (remoteAction, remoteBlockers) := remoteDecision preparation current
  let (localAction, localBlockers, protections) := localDecision preparation current
  let blockers := factBlockers input classified.classification ++ remoteBlockers ++ localBlockers
  return {
    branch := preparation.branch
    classification := classified.classification
    remoteAction := if blockers ≠ [] ∧ remoteAction = .deleteCas then .blocked else remoteAction
    localAction := if blockers ≠ [] ∧ localAction = .deleteExact then .blocked else localAction
    blockers := uniqueLocale blockers
    protections := uniqueLocale protections }

end Authorize

/-! ## Status -/

inductive AttemptStatus where
  | success | skipped | failed
  deriving DecidableEq, Repr

structure BranchCloseoutAttempt where
  operation : Text
  status : AttemptStatus
  detail : Text
  deriving DecidableEq

inductive BranchCloseoutStatus where
  | completed | protectedPending | residue | blocked
  deriving DecidableEq, Repr

def residueFinding (finding : BranchLifecycleAuditFinding) : Text :=
  let branch : Text := match finding.branch with
    | none => []
    | some branch => if branch = [] then [] else Text.cat ["(", branch, ")"]
  Text.cat ["lifecycle ", finding.code, branch, ": ", finding.message]

def auditResidue (audit : BranchLifecycleAuditReport) : List Text :=
  if audit.status = .drift ∨ audit.status = .blocked then
    (audit.findings.filter fun finding => finding.severity = .error).map residueFinding
  else []

/-- The refs that are left and the attempts that failed. -/
def refResidue (authorization : BranchCloseoutAuthorization) (attempts : List BranchCloseoutAttempt)
    (remote localRef : Option BranchRefObservation) : List Text :=
  (remote.map fun ref => Text.cat ["remote ref remains at ", ref.sha]).toList ++
  (if authorization.localAction ≠ .protectLocal then
    (localRef.map fun ref => Text.cat ["local ref remains at ", ref.sha]).toList else []) ++
  (attempts.filter fun attempt => attempt.status = .failed).map fun attempt =>
    Text.cat [attempt.operation, ": ", attempt.detail]

def deriveBranchCloseoutStatus [LocaleText] (preparation : BranchCloseoutPreparation)
    (authorization : BranchCloseoutAuthorization) (attempts : List BranchCloseoutAttempt)
    (after : BranchLifecycleInventory) : Except Text (BranchCloseoutStatus × List Text) :=
  if authorization.blockers ≠ [] then .ok (.blocked, authorization.blockers)
  else do
    let remote := remoteRef after preparation.branch
    let localRef := localRef after preparation.branch
    let protects := localRef ≠ none ∧ authorization.localAction = .protectLocal
    let audit ← auditBranchLifecycle after
      (entryIf protects ⟨preparation.branch, .protectedPending, preparation.preparationDigest⟩)
    let residue := refResidue authorization attempts remote localRef ++ auditResidue audit
    if residue ≠ [] then return (.residue, uniqueLocale residue)
    else if protects then
      return (.protectedPending,
        if authorization.protections ≠ [] then authorization.protections
        else ["local branch remains protected by a worktree binding"])
    else return (.completed, [])

end SecPlatform.BranchLifecycle
