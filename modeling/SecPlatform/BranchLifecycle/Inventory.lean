import SecPlatform.Contracts.Canonical

/-!
# Inventories of branches

What an observation of a repository lists: its refs, its worktrees, its pull requests, the selected work package, and
what the observer could not resolve. Fields that no decision reads are left out.
-/

namespace SecPlatform.BranchLifecycle

open Contracts

inductive Observation where
  | resolved | unknown
  deriving DecidableEq, Repr

def Observation.toText : Observation → Text
  | .resolved => "resolved"
  | .unknown => "unknown"

structure BranchRefObservation where
  branch : Text
  sha : Text
  deriving DecidableEq

structure BranchWorktreeObservation where
  path : Text
  branch : Option Text
  dirtyCount : Option Nat
  untrackedCount : Option Nat
  locked : Bool
  prunable : Bool
  observation : Observation
  deriving DecidableEq

/-- `open`, `closed` and `merged`. -/
inductive PullRequestState where
  | opened | closed | merged
  deriving DecidableEq, Repr

def PullRequestState.toText : PullRequestState → Text
  | .opened => "open"
  | .closed => "closed"
  | .merged => "merged"

structure BranchPullRequestObservation where
  number : Int
  headBranch : Text
  headSha : Option Text
  baseBranch : Text
  state : PullRequestState
  isCrossRepository : Bool
  deriving DecidableEq

inductive WorkPackageState where
  | active | none | invalid | unresolved
  deriving DecidableEq, Repr

def WorkPackageState.toText : WorkPackageState → Text
  | .active => "active"
  | .none => "none"
  | .invalid => "invalid"
  | .unresolved => "unresolved"

structure BranchActiveWorkPackageObservation where
  state : WorkPackageState
  branch : Option Text
  reason : Option Text
  deriving DecidableEq

structure BranchRepositorySettingObservation where
  observation : Observation
  deleteBranchOnMerge : Option Bool
  reason : Option Text
  deriving DecidableEq

structure BranchPruneConfigurationObservation where
  observation : Observation
  fetchPrune : Option Bool
  remotePrune : Option Bool
  fetchPruneTags : Option Bool
  reason : Option Text
  deriving DecidableEq

/-- The repository as the preparation records it. -/
structure RepositoryIdentity where
  root : Text
  commonDir : Text
  fullName : Text
  remote : Text
  defaultBranch : Text
  deriving DecidableEq

structure BranchLifecycleInventory where
  repository : RepositoryIdentity
  mainRemoteSha : Option Text
  localBranches : List BranchRefObservation
  remoteBranches : List BranchRefObservation
  worktrees : List BranchWorktreeObservation
  pullRequests : List BranchPullRequestObservation
  activeWorkPackage : BranchActiveWorkPackageObservation
  repositorySetting : BranchRepositorySettingObservation
  pruneConfiguration : BranchPruneConfigurationObservation
  unknowns : List Text
  deriving DecidableEq

/-! ## Classifications -/

inductive BranchLifecycleClassification where
  | main | activeCandidate | openPrCandidate | mergedCloseout | closedSuperseded | completedSpike | protectedPending
  | orphanUnknown
  deriving DecidableEq, Repr

def BranchLifecycleClassification.toText : BranchLifecycleClassification → Text
  | .main => "main"
  | .activeCandidate => "active-candidate"
  | .openPrCandidate => "open-pr-candidate"
  | .mergedCloseout => "merged-closeout"
  | .closedSuperseded => "closed-superseded"
  | .completedSpike => "completed-spike"
  | .protectedPending => "protected-pending"
  | .orphanUnknown => "orphan-unknown"

/-- The disposition of a branch: that of a closeout, or a branch that stays protected. -/
inductive BranchDisposition where
  | merged | closedSuperseded | completedSpike | protectedPending
  deriving DecidableEq, Repr

structure BranchLifecycleDispositionRecord where
  branch : Text
  disposition : BranchDisposition
  reference : Text
  deriving DecidableEq

structure ClassifiedBranchLifecycle where
  branch : Text
  localSha : Option Text
  remoteSha : Option Text
  classification : BranchLifecycleClassification
  worktreePaths : List Text
  pullRequestNumbers : List Int
  reasons : List Text
  deriving DecidableEq

/-! ## Reports -/

inductive BranchAuditSeverity where
  | error | warning
  deriving DecidableEq, Repr

structure BranchLifecycleAuditFinding where
  code : Text
  severity : BranchAuditSeverity
  message : Text
  branch : Option Text
  deriving DecidableEq

inductive AuditStatus where
  | clean | protectedOnly | drift | blocked
  deriving DecidableEq, Repr

structure BranchLifecycleAuditReport where
  status : AuditStatus
  classifications : List ClassifiedBranchLifecycle
  findings : List BranchLifecycleAuditFinding
  deriving DecidableEq

end SecPlatform.BranchLifecycle
