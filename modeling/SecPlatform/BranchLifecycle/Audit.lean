import Mathlib.Data.List.Infix
import SecPlatform.BranchLifecycle.Inventory
import SecPlatform.Library.Except
import SecPlatform.Library.OrderedMap
import SecPlatform.Library.Sorting
import SecPlatform.VerificationAction.JournalGenerations

/-!
# The lifecycle of branches

Every branch that an inventory names has one classification, and the audit reports what does not fit the lifecycle.
-/

namespace SecPlatform.BranchLifecycle

open Contracts
open VerificationAction (LocaleText)

/-! ## Grammars -/

/-- `/[\u0000-\u0020\u007f~^:?*[\]\\]/u`. -/
def isForbiddenRefCharacter (c : CodeUnit) : Bool :=
  c ≤ 0x20 || c = 0x7F || c ∈ (Text.ofString "~^:?*[]\\")

def isGitRefSegment (segment : Text) : Bool :=
  decide (segment ≠ []) && !decide (Text.ofString "." <+: segment) && !decide (Text.ofString ".lock" <:+ segment)

def isGitBranchName (value : Text) : Bool :=
  decide (value ≠ []) && decide (value.length ≤ 255) && decide (value.trim = value) &&
    decide (value ≠ Text.ofString "@") && decide (value ≠ Text.ofString "HEAD") &&
    !decide (Text.ofString "-" <+: value) && !decide (Text.ofString "/" <+: value) &&
    !decide (Text.ofString "/" <:+ value) && !decide (Text.ofString "." <:+ value) &&
    !decide (Text.ofString ".." <:+: value) && !decide (Text.ofString "@\x7b" <:+: value) &&
    !decide (Text.ofString "//" <:+: value) && !value.any isForbiddenRefCharacter &&
    (Text.splitAt (unit '/') value).all isGitRefSegment

def assertGitBranchName (value label : Text) : Except Text Unit :=
  require (isGitBranchName value) (Text.cat [label, " must be one bounded option-safe Git branch name."])

/-- `/^[0-9a-f]{40}$/u`. -/
def isGitSha (value : Text) : Bool := value.length = 40 && value.all isHexDigit

def assertGitSha (value label : Text) : Except Text Unit :=
  require (isGitSha value) (Text.cat [label, " must be a lowercase 40-character Git SHA."])

def normalizeSha (value : Option Text) (label : Text) : Except Text (Option Text) :=
  match value with
  | none => .ok none
  | some sha => do
      assertGitSha sha label
      return some sha

/-! ## Names -/

/-- One turn of the loop over the refs. -/
def mapRef (label : Text) (result : OrderedMap Text Text) (entry : BranchRefObservation) :
    Except Text (OrderedMap Text Text) := do
  assertGitBranchName entry.branch (Text.cat [label, " branch"])
  assertGitSha entry.sha (Text.cat [label, " ", entry.branch, " SHA"])
  require (result.has entry.branch = false) (Text.cat [label, " contains duplicate branch ", entry.branch, "."])
  return result.set entry.branch entry.sha

def mapRefs (entries : List BranchRefObservation) (label : Text) : Except Text (OrderedMap Text Text) :=
  entries.foldlM (mapRef label) OrderedMap.empty

section Locale

variable [LocaleText]

/-- `.sort((left, right) => left.localeCompare(right))`. -/
def sortLocale (values : List Text) : List Text :=
  values.insertionSort fun left right => LocaleText.localeCompare left right ≠ .gt

/-- `[...new Set(values)].sort((left, right) => left.localeCompare(right))`. -/
def uniqueLocale (values : List Text) : List Text := sortLocale values.eraseDups

def branchNames (inventory : BranchLifecycleInventory) : List Text :=
  uniqueLocale (inventory.repository.defaultBranch :: (
    inventory.localBranches.map BranchRefObservation.branch ++
    inventory.remoteBranches.map BranchRefObservation.branch ++
    inventory.worktrees.filterMap BranchWorktreeObservation.branch ++
    (inventory.pullRequests.filter fun pullRequest => !pullRequest.isCrossRepository).map
      BranchPullRequestObservation.headBranch ++
    inventory.activeWorkPackage.branch.toList))

def matchingPullRequests (inventory : BranchLifecycleInventory) (branch : Text) : List BranchPullRequestObservation :=
  sortBy BranchPullRequestObservation.number (inventory.pullRequests.filter fun pullRequest =>
    !pullRequest.isCrossRepository && decide (pullRequest.headBranch = branch))

def matchingWorktrees (inventory : BranchLifecycleInventory) (branch : Text) : List BranchWorktreeObservation :=
  (inventory.worktrees.filter fun worktree => worktree.branch = some branch).insertionSort fun left right =>
    LocaleText.localeCompare left.path right.path ≠ .gt

/-! ## Classification -/

def explicitDisposition (dispositions : List BranchLifecycleDispositionRecord) (branch : Text) :
    Option BranchDisposition :=
  (dispositions.find? fun disposition => disposition.branch = branch).map BranchLifecycleDispositionRecord.disposition

/-- A worktree that may hold work of its own. -/
def isProtectedWorktree (worktree : BranchWorktreeObservation) : Bool :=
  decide (worktree.observation = .unknown) || worktree.locked || worktree.prunable ||
    decide (worktree.dirtyCount ≠ some 0) || decide (worktree.untrackedCount ≠ some 0)

/-- The first rule that applies, with its reason. -/
def classification (inventory : BranchLifecycleInventory) (dispositions : List BranchLifecycleDispositionRecord)
    (localRefs remoteRefs : OrderedMap Text Text) (branch : Text) : BranchLifecycleClassification × Text :=
  let pullRequests := matchingPullRequests inventory branch
  let worktrees := matchingWorktrees inventory branch
  if branch = inventory.repository.defaultBranch then (.main, "default branch")
  else if inventory.activeWorkPackage.state = .active ∧ inventory.activeWorkPackage.branch = some branch then
    (.activeCandidate, "selected by the active Work Package resolver")
  else if pullRequests.any fun pullRequest => pullRequest.state = .opened then
    (.openPrCandidate, "head of an open pull request")
  else if worktrees ≠ [] then
    (.protectedPending,
      if worktrees.any isProtectedWorktree then "bound to a dirty, unknown, locked, or prunable worktree"
      else "bound to a worktree and therefore not locally deletable")
  else if explicitDisposition dispositions branch = some .protectedPending ∧ localRefs.has branch = true ∧
      remoteRefs.has branch = false then
    (.protectedPending, "bound to a durable protected-pending closeout receipt")
  else if pullRequests.any fun pullRequest => pullRequest.state = .merged then
    (.mergedCloseout, "head of a merged pull request")
  else if pullRequests.any fun pullRequest => pullRequest.state = .closed then
    (.closedSuperseded, "head of a closed pull request")
  else if explicitDisposition dispositions branch = some .completedSpike then
    (.completedSpike, "explicit completed-spike disposition")
  else (.orphanUnknown, "no active Work Package, open PR, worktree protection, or durable disposition")

def classifyBranchLifecycle (inventory : BranchLifecycleInventory)
    (dispositions : List BranchLifecycleDispositionRecord) : Except Text (List ClassifiedBranchLifecycle) := do
  let localRefs ← mapRefs inventory.localBranches "localBranches"
  let remoteRefs ← mapRefs inventory.remoteBranches "remoteBranches"
  return (branchNames inventory).map fun branch =>
    let (classification, reason) := classification inventory dispositions localRefs remoteRefs branch
    { branch
      localSha := localRefs.get? branch
      remoteSha := remoteRefs.get? branch
      classification
      worktreePaths := (matchingWorktrees inventory branch).map BranchWorktreeObservation.path
      pullRequestNumbers := (matchingPullRequests inventory branch).map BranchPullRequestObservation.number
      reasons := [reason] }

end Locale

/-! ## Findings -/

/-- The entry when the condition holds. -/
def entryIf {α : Type} (condition : Prop) [Decidable condition] (entry : α) : List α := if condition then [entry] else []

def errorFinding (code message : Text) (branch : Option Text) : BranchLifecycleAuditFinding := ⟨code, .error, message, branch⟩

def settingFindings (inventory : BranchLifecycleInventory) : List BranchLifecycleAuditFinding :=
  let setting := inventory.repositorySetting
  if setting.observation ≠ .resolved then
    [errorFinding "delete-branch-setting-unknown"
      (setting.reason.getD "GitHub delete_branch_on_merge setting is unknown.") none]
  else entryIf (setting.deleteBranchOnMerge ≠ some true)
    (errorFinding "delete-branch-setting-drift" "GitHub delete_branch_on_merge must be true." none)

def pruneFindings (inventory : BranchLifecycleInventory) : List BranchLifecycleAuditFinding :=
  let configuration := inventory.pruneConfiguration
  if configuration.observation ≠ .resolved then
    [errorFinding "prune-configuration-unknown"
      (configuration.reason.getD "Local prune configuration is unknown.") none]
  else
    let settings : List (Text × Option Bool) := [
      ("fetch.prune", configuration.fetchPrune),
      (Text.cat ["remote.", inventory.repository.remote, ".prune"], configuration.remotePrune),
      ("fetch.pruneTags", configuration.fetchPruneTags)]
    (settings.filter fun setting => setting.2 ≠ some true).map fun setting =>
      errorFinding "prune-configuration-drift" (Text.cat [setting.1, " must be true in this clone."]) none

def remoteSha (inventory : BranchLifecycleInventory) (branch : Text) : Option Text :=
  (inventory.remoteBranches.find? fun remote => remote.branch = branch).map BranchRefObservation.sha

/-- The remote default branch is not where the inventory says it is. -/
def readbackMismatch (inventory : BranchLifecycleInventory) : Except Text Bool :=
  match inventory.mainRemoteSha with
  | none => .ok true
  | some main => do
      let remote ← normalizeSha (remoteSha inventory inventory.repository.defaultBranch) "remote default branch SHA"
      return decide (remote ≠ some main)

def openPullRequests (inventory : BranchLifecycleInventory) : List BranchPullRequestObservation :=
  inventory.pullRequests.filter fun pullRequest =>
    decide (pullRequest.state = .opened) && !pullRequest.isCrossRepository

/-- `#` and the number, as in a template literal. -/
def numberText (number : Int) : Text :=
  if number < 0 then Text.cat ["#-", Text.ofNat number.natAbs] else Text.cat ["#", Text.ofNat number.natAbs]

def workPackageFindings (inventory : BranchLifecycleInventory) : List BranchLifecycleAuditFinding :=
  let active := inventory.activeWorkPackage
  match active.state with
  | .none =>
      (openPullRequests inventory).map (fun pullRequest => errorFinding "open-pr-without-active-package"
        (Text.cat ["Open PR ", numberText pullRequest.number, " has no active Work Package authorization."])
        (some pullRequest.headBranch)) ++
      (inventory.remoteBranches.filter fun remote => remote.branch ≠ inventory.repository.defaultBranch).map fun remote =>
        errorFinding "idle-remote-head-drift" "Idle repository must have no remote head except the default branch."
          (some remote.branch)
  | .active =>
      entryIf (active.branch = none) (errorFinding "active-candidate-branch-unknown"
        "Active Work Package resolution does not identify its candidate branch." none) ++
      ((openPullRequests inventory).filter fun pullRequest => active.branch ≠ some pullRequest.headBranch).map
        fun pullRequest => errorFinding "open-pr-outside-active-package"
          (Text.cat ["Open PR ", numberText pullRequest.number, " is not the active Work Package branch."])
          (some pullRequest.headBranch)
  | .invalid | .unresolved =>
      [errorFinding "active-work-package-unresolved"
        (active.reason.getD (Text.cat ["Active Work Package state is ", active.state.toText, "."])) none]

/-- `allowedRemoteBranches`: an idle repository takes the heads of its open pull requests out again. -/
def allowedRemoteBranches (inventory : BranchLifecycleInventory) : List Text :=
  let active := inventory.activeWorkPackage
  let heads := (openPullRequests inventory).map BranchPullRequestObservation.headBranch
  let allowed := inventory.repository.defaultBranch ::
    ((if active.state = .active then active.branch.toList else []) ++ heads)
  if active.state = .none then allowed.filter fun branch => branch ∉ heads else allowed

def classificationFindings (entry : ClassifiedBranchLifecycle) : List BranchLifecycleAuditFinding :=
  let closed := entry.classification = .mergedCloseout ∨ entry.classification = .closedSuperseded
  entryIf (entry.remoteSha ≠ none ∧ closed) (errorFinding "closed-pr-head-still-remote"
    (Text.cat ["Remote head remains after PR disposition (", entry.classification.toText, ")."]) (some entry.branch)) ++
  entryIf (entry.localSha ≠ none ∧ closed) (errorFinding "closed-pr-local-ref-remains"
    (Text.cat ["Local branch remains after PR disposition (", entry.classification.toText, ")."]) (some entry.branch)) ++
  entryIf (entry.remoteSha ≠ none ∧ entry.classification = .orphanUnknown) (errorFinding "orphan-remote-head"
    "Remote head has no machine-recognized lifecycle owner." (some entry.branch)) ++
  entryIf (entry.localSha ≠ none ∧ entry.classification = .orphanUnknown) (errorFinding "orphan-local-branch"
    "Local branch has no PR, active Work Package, worktree protection or disposition." (some entry.branch)) ++
  entryIf (entry.classification = .protectedPending) ⟨"protected-local-branch", .warning,
    "Local branch is intentionally protected by a worktree binding.", some entry.branch⟩

def auditStatus (inventory : BranchLifecycleInventory) (findings : List BranchLifecycleAuditFinding) : AuditStatus :=
  if findings.any fun finding => finding.severity = .error then
    if inventory.unknowns ≠ [] then .blocked else .drift
  else if findings ≠ [] then .protectedOnly else .clean

def auditBranchLifecycle [LocaleText] (inventory : BranchLifecycleInventory)
    (dispositions : List BranchLifecycleDispositionRecord) : Except Text BranchLifecycleAuditReport := do
  let classifications ← classifyBranchLifecycle inventory dispositions
  let defaultBranch := inventory.repository.defaultBranch
  let mismatch ← readbackMismatch inventory
  let findings :=
    (inventory.unknowns.map fun unknown => errorFinding "inventory-unknown" unknown none) ++
    settingFindings inventory ++ pruneFindings inventory ++
    entryIf (mismatch = true) (errorFinding "default-branch-readback-mismatch"
      "Default branch identity is absent or inconsistent with remote head inventory." (some defaultBranch)) ++
    workPackageFindings inventory ++
    ((inventory.remoteBranches.filter fun remote => remote.branch ∉ allowedRemoteBranches inventory).map fun remote =>
      errorFinding "unauthorized-remote-head" "Remote head is not default, active, or an open PR candidate."
        (some remote.branch)) ++
    classifications.flatMap classificationFindings
  return ⟨auditStatus inventory findings, classifications, findings⟩

end SecPlatform.BranchLifecycle
