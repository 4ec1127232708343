import SecPlatform.Contracts.Canonical

/-!
# Work that can be selected

A candidate names a piece of work with what is known of its readiness, its order, its conflicts and its evidence. The
input of a selection binds a set of candidates to the state of the current work.
-/

namespace SecPlatform.WorkSelection

open Contracts

def WORK_SELECTION_INPUT_SCHEMA : Text := "sec-work-selection-input-v1"

def WORK_DECISION_SCHEMA : Text := "sec-work-decision-v1"

def WORK_SELECTION_POLICY_REVISION : Text := "work-selection-policy-v1"

/-! ## Enumerations -/

inductive WorkPriorityClass where
  | integrityCritical | activeCriticalPath | productCriticalPath | nearTermAcceleration | maintenanceRequired | defer
  deriving DecidableEq, Repr

namespace WorkPriorityClass

def all : List WorkPriorityClass :=
  [.integrityCritical, .activeCriticalPath, .productCriticalPath, .nearTermAcceleration, .maintenanceRequired, .defer]

def toText : WorkPriorityClass → Text
  | integrityCritical => "integrity-critical"
  | activeCriticalPath => "active-critical-path"
  | productCriticalPath => "product-critical-path"
  | nearTermAcceleration => "near-term-acceleration"
  | maintenanceRequired => "maintenance-required"
  | defer => "defer"

/-- `PRIORITY_ORDER`. -/
def order : WorkPriorityClass → Int
  | integrityCritical => 0
  | activeCriticalPath => 1
  | productCriticalPath => 2
  | nearTermAcceleration => 3
  | maintenanceRequired => 4
  | defer => 5

end WorkPriorityClass

inductive WorkKind where
  | focused | program | maintenance | diagnostic | spike
  deriving DecidableEq, Repr

def WorkKind.all : List WorkKind := [.focused, .program, .maintenance, .diagnostic, .spike]

def WorkKind.toText : WorkKind → Text
  | focused => "focused"
  | program => "program"
  | maintenance => "maintenance"
  | diagnostic => "diagnostic"
  | spike => "spike"

/-- `open` is `opened`. -/
inductive WorkLifecycle where
  | opened | alreadyInMain | superseded | deferred
  deriving DecidableEq, Repr

def WorkLifecycle.all : List WorkLifecycle := [.opened, .alreadyInMain, .superseded, .deferred]

def WorkLifecycle.toText : WorkLifecycle → Text
  | opened => "open"
  | alreadyInMain => "already-in-main"
  | superseded => "superseded"
  | deferred => "deferred"

inductive WorkReadiness where
  | ready | notReady | unresolved
  deriving DecidableEq, Repr

def WorkReadiness.all : List WorkReadiness := [.ready, .notReady, .unresolved]

def WorkReadiness.toText : WorkReadiness → Text
  | ready => "ready"
  | notReady => "not-ready"
  | unresolved => "unresolved"

inductive FactStatus where
  | satisfied | unsatisfied | unresolved
  deriving DecidableEq, Repr

def FactStatus.all : List FactStatus := [.satisfied, .unsatisfied, .unresolved]

def FactStatus.toText : FactStatus → Text
  | satisfied => "satisfied"
  | unsatisfied => "unsatisfied"
  | unresolved => "unresolved"

inductive ConflictStatus where
  | clear | writeConflict | resourceConflict | authorityConflict | unresolved
  deriving DecidableEq, Repr

def ConflictStatus.all : List ConflictStatus :=
  [.clear, .writeConflict, .resourceConflict, .authorityConflict, .unresolved]

def ConflictStatus.toText : ConflictStatus → Text
  | clear => "clear"
  | writeConflict => "write-conflict"
  | resourceConflict => "resource-conflict"
  | authorityConflict => "authority-conflict"
  | unresolved => "unresolved"

inductive Freshness where
  | fresh | stale | missing
  deriving DecidableEq, Repr

def Freshness.all : List Freshness := [.fresh, .stale, .missing]

def Freshness.toText : Freshness → Text
  | fresh => "fresh"
  | stale => "stale"
  | missing => "missing"

/-- `FRESHNESS_ORDER`. -/
def Freshness.order : Freshness → Int
  | fresh => 0
  | stale => 1
  | missing => 2

inductive RootCauseState where
  | notRepeated | repeatRootCause | unresolved
  deriving DecidableEq, Repr

def RootCauseState.all : List RootCauseState := [.notRepeated, .repeatRootCause, .unresolved]

def RootCauseState.toText : RootCauseState → Text
  | notRepeated => "not-repeated"
  | repeatRootCause => "repeat-root-cause"
  | unresolved => "unresolved"

inductive ScopeClosure where
  | closed | opened | unresolved
  deriving DecidableEq, Repr

def ScopeClosure.all : List ScopeClosure := [.closed, .opened, .unresolved]

def ScopeClosure.toText : ScopeClosure → Text
  | closed => "closed"
  | opened => "open"
  | unresolved => "unresolved"

def ScopeClosure.order : ScopeClosure → Int
  | closed => 0
  | opened => 1
  | unresolved => 2

inductive ActiveState where
  | none | incomplete | complete | unresolved
  deriving DecidableEq, Repr

def ActiveState.all : List ActiveState := [.none, .incomplete, .complete, .unresolved]

def ActiveState.toText : ActiveState → Text
  | none => "none"
  | incomplete => "incomplete"
  | complete => "complete"
  | unresolved => "unresolved"

inductive ActiveLegality where
  | notApplicable | legal | invalid | unresolved
  deriving DecidableEq, Repr

def ActiveLegality.all : List ActiveLegality := [.notApplicable, .legal, .invalid, .unresolved]

def ActiveLegality.toText : ActiveLegality → Text
  | notApplicable => "not-applicable"
  | legal => "legal"
  | invalid => "invalid"
  | unresolved => "unresolved"

inductive MainHealthRoutingState where
  | healthy | unhealthy | unresolved
  deriving DecidableEq, Repr

def MainHealthRoutingState.all : List MainHealthRoutingState := [.healthy, .unhealthy, .unresolved]

def MainHealthRoutingState.toText : MainHealthRoutingState → Text
  | healthy => "healthy"
  | unhealthy => "unhealthy"
  | unresolved => "unresolved"

inductive CloseoutState where
  | none | required | unresolved
  deriving DecidableEq, Repr

def CloseoutState.all : List CloseoutState := [.none, .required, .unresolved]

def CloseoutState.toText : CloseoutState → Text
  | none => "none"
  | required => "required"
  | unresolved => "unresolved"

inductive ControlState where
  | consistent | conflict | unresolved
  deriving DecidableEq, Repr

def ControlState.all : List ControlState := [.consistent, .conflict, .unresolved]

def ControlState.toText : ControlState → Text
  | consistent => "consistent"
  | conflict => "conflict"
  | unresolved => "unresolved"

/-! ## Inputs -/

structure WorkDependencyFact where
  ref : Text
  status : FactStatus
  deriving DecidableEq

structure WorkCandidate where
  workId : Text
  candidateRef : Text
  currentSpecRef : Text
  currentSpecRevision : Digest
  ownerRef : Option Text
  kind : WorkKind
  lifecycle : WorkLifecycle
  lifecycleRef : Text
  priorityClass : WorkPriorityClass
  priorityEvidenceRefs : List Text
  readiness : WorkReadiness
  readinessRef : Text
  prerequisiteFacts : List WorkDependencyFact
  orderedAfterFacts : List WorkDependencyFact
  conflictStatus : ConflictStatus
  conflictDecisionRefs : List Text
  blockedReadySuccessorCount : Nat
  roadmapDirect : Bool
  reproductionOrEvidenceFreshness : Freshness
  rootCauseState : RootCauseState
  rootCauseRef : Text
  scopeClosure : ScopeClosure
  exitCriteriaRef : Option Text
  nearTermConsumerRef : Option Text
  humanDecisionRef : Option Text
  deriving DecidableEq

structure WorkSelectionIdentity where
  exactMain : Text
  roadmapRevision : Digest
  candidateSetRevision : Digest
  deriving DecidableEq

structure CurrentWorkLifecycle where
  activeWorkId : Option Text
  activeRef : Option Text
  activeState : ActiveState
  activeLegality : ActiveLegality
  mainHealthState : MainHealthRoutingState
  mainHealthRef : Text
  closeoutState : CloseoutState
  closeoutRef : Text
  controlState : ControlState
  controlRef : Text
  deriving DecidableEq

structure WorkSelectionInput where
  identity : WorkSelectionIdentity
  current : CurrentWorkLifecycle
  candidates : List WorkCandidate
  deriving DecidableEq

/-! ## Digests -/

def nullable (value : Option Text) : Value :=
  match value with
  | none => .null
  | some data => .str data

def textList (values : List Text) : Value := .arr (values.map Json.str)

def WorkDependencyFact.toValue (fact : WorkDependencyFact) : Value :=
  .obj [("ref", .str fact.ref), ("status", .str fact.status.toText)]

def WorkCandidate.toValue (candidate : WorkCandidate) : Value := .obj [
  ("workId", .str candidate.workId),
  ("candidateRef", .str candidate.candidateRef),
  ("currentSpecRef", .str candidate.currentSpecRef),
  ("currentSpecRevision", .str candidate.currentSpecRevision.val),
  ("ownerRef", nullable candidate.ownerRef),
  ("kind", .str candidate.kind.toText),
  ("lifecycle", .str candidate.lifecycle.toText),
  ("lifecycleRef", .str candidate.lifecycleRef),
  ("priorityClass", .str candidate.priorityClass.toText),
  ("priorityEvidenceRefs", textList candidate.priorityEvidenceRefs),
  ("readiness", .str candidate.readiness.toText),
  ("readinessRef", .str candidate.readinessRef),
  ("prerequisiteFacts", .arr (candidate.prerequisiteFacts.map WorkDependencyFact.toValue)),
  ("orderedAfterFacts", .arr (candidate.orderedAfterFacts.map WorkDependencyFact.toValue)),
  ("conflictStatus", .str candidate.conflictStatus.toText),
  ("conflictDecisionRefs", textList candidate.conflictDecisionRefs),
  ("blockedReadySuccessorCount", .num (.ofNat candidate.blockedReadySuccessorCount)),
  ("roadmapDirect", .bool candidate.roadmapDirect),
  ("reproductionOrEvidenceFreshness", .str candidate.reproductionOrEvidenceFreshness.toText),
  ("rootCauseState", .str candidate.rootCauseState.toText),
  ("rootCauseRef", .str candidate.rootCauseRef),
  ("scopeClosure", .str candidate.scopeClosure.toText),
  ("exitCriteriaRef", nullable candidate.exitCriteriaRef),
  ("nearTermConsumerRef", nullable candidate.nearTermConsumerRef),
  ("humanDecisionRef", nullable candidate.humanDecisionRef)]

def candidateSetValue (candidates : List WorkCandidate) : Value := .arr (candidates.map WorkCandidate.toValue)

def WorkSelectionInput.toValue (input : WorkSelectionInput) : Value := .obj [
  ("schema", .str WORK_SELECTION_INPUT_SCHEMA),
  ("identity", .obj [
    ("exactMain", .str input.identity.exactMain),
    ("roadmapRevision", .str input.identity.roadmapRevision.val),
    ("candidateSetRevision", .str input.identity.candidateSetRevision.val),
    ("selectionPolicyRevision", .str WORK_SELECTION_POLICY_REVISION)]),
  ("current", .obj [
    ("activeWorkId", nullable input.current.activeWorkId),
    ("activeRef", nullable input.current.activeRef),
    ("activeState", .str input.current.activeState.toText),
    ("activeLegality", .str input.current.activeLegality.toText),
    ("mainHealthState", .str input.current.mainHealthState.toText),
    ("mainHealthRef", .str input.current.mainHealthRef),
    ("closeoutState", .str input.current.closeoutState.toText),
    ("closeoutRef", .str input.current.closeoutRef),
    ("controlState", .str input.current.controlState.toText),
    ("controlRef", .str input.current.controlRef)]),
  ("candidates", candidateSetValue input.candidates)]

/-- `sha256` of a value whose numbers are finite. -/
def workDigest [Sha256] (value : Value) : Digest := Sha256.rawSha256 (canonicalEncoding value)

end SecPlatform.WorkSelection
