import Mathlib.Data.Prod.Lex
import SecPlatform.WorkSelection.Parse

/-!
# The decision about the next work

Every candidate is evaluated field by field: what rejects it, what is unresolved about it, and what it is blocked by. The
candidates are ranked, and the best one is selected unless a better one is uncertain.
-/

namespace SecPlatform.WorkSelection

open Contracts

/-! ## Evaluation -/

/-- What one field of a candidate adds to its evaluation. -/
structure Findings where
  rejected : List Text
  unresolved : List Text
  blockers : List Text
  deriving DecidableEq

namespace Findings

def nothing : Findings := ⟨[], [], []⟩

def reject (reason : Text) (blockers : List Text) : Findings := ⟨[reason], [], blockers⟩

def doubt (reason : Text) (blockers : List Text) : Findings := ⟨[], [reason], blockers⟩

end Findings

def lifecycleFindings (candidate : WorkCandidate) : Findings :=
  if candidate.lifecycle = .alreadyInMain then .reject "already-in-main" [candidate.lifecycleRef]
  else if candidate.lifecycle = .superseded then .reject "superseded" [candidate.lifecycleRef]
  else if candidate.lifecycle = .deferred ∨ candidate.priorityClass = .defer then
    .reject "future-only" [candidate.lifecycleRef]
  else .nothing

def kindFindings (candidate : WorkCandidate) : Findings :=
  if candidate.kind = .diagnostic ∨ candidate.kind = .spike then .reject "non-merge-candidate" [candidate.candidateRef]
  else .nothing

def ownerFindings (candidate : WorkCandidate) : Findings :=
  if candidate.ownerRef = none then .reject "missing-owner" [candidate.candidateRef] else .nothing

def exitCriteriaFindings (candidate : WorkCandidate) : Findings :=
  if candidate.exitCriteriaRef = none then .reject "missing-exit-criteria" [candidate.candidateRef] else .nothing

def readinessFindings (candidate : WorkCandidate) : Findings :=
  match candidate.readiness with
  | .notReady => .reject "not-ready" [candidate.readinessRef]
  | .unresolved => .doubt "readiness-unresolved" [candidate.readinessRef]
  | .ready => .nothing

/-- One turn of a loop over facts. -/
def factFindings (unsatisfied unresolved : Text) (fact : WorkDependencyFact) : Findings :=
  match fact.status with
  | .satisfied => .nothing
  | .unsatisfied => .reject unsatisfied [fact.ref]
  | .unresolved => .doubt unresolved [fact.ref]

def conflictFindings (candidate : WorkCandidate) : Findings :=
  match candidate.conflictStatus with
  | .clear => .nothing
  | .unresolved => .doubt "unresolved-conflict" candidate.conflictDecisionRefs
  | status => .reject status.toText candidate.conflictDecisionRefs

def scopeFindings (candidate : WorkCandidate) : Findings :=
  match candidate.scopeClosure with
  | .opened => .reject "scope-not-closed" [candidate.candidateRef]
  | .unresolved => .doubt "scope-unresolved" [candidate.candidateRef]
  | .closed => .nothing

def evidenceFindings (candidate : WorkCandidate) : Findings :=
  if candidate.reproductionOrEvidenceFreshness = .missing ∧ candidate.priorityClass ≠ .maintenanceRequired ∧
      candidate.priorityClass ≠ .defer then
    .reject "required-evidence-missing" candidate.priorityEvidenceRefs
  else .nothing

def rootCauseFindings (candidate : WorkCandidate) : Findings :=
  if candidate.rootCauseState = .unresolved then .doubt "root-cause-unresolved" [candidate.rootCauseRef] else .nothing

def candidateFindings (candidate : WorkCandidate) : List Findings :=
  [lifecycleFindings candidate, kindFindings candidate, ownerFindings candidate, exitCriteriaFindings candidate,
    readinessFindings candidate] ++
  candidate.prerequisiteFacts.map (factFindings "prerequisite-unsatisfied" "prerequisite-unresolved") ++
  candidate.orderedAfterFacts.map (factFindings "ordered-after" "ordered-after-unresolved") ++
  [conflictFindings candidate, scopeFindings candidate, evidenceFindings candidate, rootCauseFindings candidate]

inductive WorkCandidateDecisionStatus where
  | eligible | rejected | unresolved | humanRequired
  deriving DecidableEq, Repr

def WorkCandidateDecisionStatus.toText : WorkCandidateDecisionStatus → Text
  | eligible => "eligible"
  | rejected => "rejected"
  | unresolved => "unresolved"
  | humanRequired => "human-required"

structure WorkCandidateDecision where
  workId : Text
  candidateRef : Text
  currentSpecRef : Text
  currentSpecRevision : Digest
  status : WorkCandidateDecisionStatus
  reasonCodes : List Text
  blockerRefs : List Text
  deriving DecidableEq

/-- A text when a condition holds. -/
def textIf (condition : Prop) [Decidable condition] (text : Text) : List Text := if condition then [text] else []

/-- The reasons that do not depend on the status. -/
def rankReasons (candidate : WorkCandidate) : List Text :=
  textIf (candidate.rootCauseState = .repeatRootCause) "repeat-root-cause" ++ [candidate.priorityClass.toText] ++
  textIf (candidate.priorityClass = .activeCriticalPath) "blocks-current" ++
  textIf (0 < candidate.blockedReadySuccessorCount) "blocks-ready-successors" ++
  textIf (candidate.roadmapDirect = true) "product-stage-direct" ++
  textIf (candidate.nearTermConsumerRef ≠ none) "near-term-consumer-proven"

/-- The status, with the reasons and blockers it adds. -/
def candidateStatus (candidate : WorkCandidate) (rejected unresolved : List Text) :
    WorkCandidateDecisionStatus × List Text × List Text :=
  if rejected ≠ [] then (.rejected, rejected, [])
  else if unresolved ≠ [] then (.unresolved, unresolved, [])
  else match candidate.humanDecisionRef with
    | some decision => (.humanRequired, ["human-decision-required"], [decision])
    | none => (.eligible, [], [])

/-- `evaluateWorkCandidate`, without the candidate it repeats. -/
def evaluateWorkCandidate (candidate : WorkCandidate) : WorkCandidateDecision :=
  let findings := candidateFindings candidate
  let (status, reasons, blockers) :=
    candidateStatus candidate (findings.flatMap Findings.rejected) (findings.flatMap Findings.unresolved)
  { workId := candidate.workId
    candidateRef := candidate.candidateRef
    currentSpecRef := candidate.currentSpecRef
    currentSpecRevision := candidate.currentSpecRevision
    status
    reasonCodes := uniqueSorted (rankReasons candidate ++ reasons)
    blockerRefs := uniqueSorted (findings.flatMap Findings.blockers ++ blockers) }

/-! ## Rank -/

def compareCodeUnits (left right : Text) : Int := if left < right then -1 else if right < left then 1 else 0

def compareCandidateRank (left right : WorkCandidate) : Int :=
  let priority := left.priorityClass.order - right.priorityClass.order
  let freshness := left.reproductionOrEvidenceFreshness.order - right.reproductionOrEvidenceFreshness.order
  if priority ≠ 0 then priority
  else if left.blockedReadySuccessorCount ≠ right.blockedReadySuccessorCount then
    (right.blockedReadySuccessorCount : Int) - left.blockedReadySuccessorCount
  else if left.roadmapDirect ≠ right.roadmapDirect then
    if left.roadmapDirect = true then -1 else 1
  else if freshness ≠ 0 then freshness
  else if left.scopeClosure ≠ right.scopeClosure then left.scopeClosure.order - right.scopeClosure.order
  else compareCodeUnits left.workId right.workId

/-! ## Preconditions -/

structure WorkSelectionPrecondition where
  workId : Text
  currentSpecRef : Option Text
  currentSpecRevision : Option Digest
  reasonCode : Text
  blockerRef : Text
  deriving DecidableEq

def precondition (candidate : WorkCandidate) (reasonCode blockerRef : Text) : WorkSelectionPrecondition :=
  ⟨candidate.workId, some candidate.currentSpecRef, some candidate.currentSpecRevision, reasonCode, blockerRef⟩

def unresolvedFacts (facts : List WorkDependencyFact) : List Text :=
  (facts.filter fun fact => fact.status = .unresolved).map WorkDependencyFact.ref

/-- The preconditions of one candidate. -/
def preconditionsOf (candidate : WorkCandidate) (status : WorkCandidateDecisionStatus) :
    List WorkSelectionPrecondition :=
  (if status = .unresolved then
    (textIf (candidate.readiness = .unresolved) candidate.readinessRef).map
      (precondition candidate "readiness-unresolved") ++
    (unresolvedFacts candidate.prerequisiteFacts).map (precondition candidate "prerequisite-unresolved") ++
    (unresolvedFacts candidate.orderedAfterFacts).map (precondition candidate "ordered-after-unresolved") ++
    (if candidate.conflictStatus = .unresolved then
      candidate.conflictDecisionRefs.map (precondition candidate "unresolved-conflict") else []) ++
    (textIf (candidate.scopeClosure = .unresolved) candidate.candidateRef).map
      (precondition candidate "scope-unresolved") ++
    (textIf (candidate.rootCauseState = .unresolved) candidate.rootCauseRef).map
      (precondition candidate "root-cause-unresolved")
  else []) ++
  if status = .humanRequired then
    candidate.humanDecisionRef.toList.map (precondition candidate "human-decision-required")
  else []

/-- The order of the preconditions: by work, by reason, by blocker. -/
def WorkSelectionPrecondition.key (entry : WorkSelectionPrecondition) : Text ×ₗ Text ×ₗ Text :=
  toLex (entry.workId, toLex (entry.reasonCode, entry.blockerRef))

def candidatePreconditions (candidates : List WorkCandidate) : List WorkSelectionPrecondition :=
  sortBy WorkSelectionPrecondition.key (candidates.flatMap fun candidate =>
    preconditionsOf candidate (evaluateWorkCandidate candidate).status)

def currentPreconditions (current : CurrentWorkLifecycle) : List WorkSelectionPrecondition :=
  let workId : Text := current.activeWorkId.getD "current-control"
  let entry (reasonCode : Text) (blockerRef : Text) : WorkSelectionPrecondition := ⟨workId, none, none, reasonCode, blockerRef⟩
  let active := if current.activeState = .unresolved ∨ current.activeLegality = .unresolved then
    current.activeRef.toList else []
  sortBy (fun entry : WorkSelectionPrecondition => toLex (entry.reasonCode, entry.blockerRef)) (
    active.map (entry "active-state-unresolved") ++
    (textIf (current.mainHealthState = .unresolved) current.mainHealthRef).map (entry "main-health-unresolved") ++
    (textIf (current.closeoutState = .unresolved) current.closeoutRef).map (entry "closeout-unresolved") ++
    (textIf (current.controlState = .unresolved) current.controlRef).map (entry "control-unresolved"))

/-! ## Decisions -/

inductive WorkDecisionStatus where
  | continueActive | closeout | reconcile | selectNext | none | unresolved | humanEscalation
  deriving DecidableEq, Repr

def WorkDecisionStatus.toText : WorkDecisionStatus → Text
  | continueActive => "continue-active"
  | closeout => "closeout"
  | reconcile => "reconcile"
  | selectNext => "select-next"
  | none => "none"
  | unresolved => "unresolved"
  | humanEscalation => "human-escalation"

/-- What a case of the decision says. -/
structure DecisionMaterial where
  status : WorkDecisionStatus
  selectedWorkId : Option Text
  selectedCandidateRef : Option Text
  blockedCandidateRefs : List Text
  reasonCodes : List Text
  requiredPreconditions : List WorkSelectionPrecondition
  rejectionWitnesses : List WorkCandidateDecision
  deriving DecidableEq

structure WorkCurrentSpecBinding where
  workId : Text
  currentSpecRef : Text
  currentSpecRevision : Digest
  deriving DecidableEq

structure WorkDecision where
  inputDigest : Digest
  selectedCurrentSpecRef : Option Text
  selectedCurrentSpecRevision : Option Digest
  currentSpecBindings : List WorkCurrentSpecBinding
  material : DecisionMaterial
  decisionDigest : Digest
  deriving DecidableEq

def nullableDigest (value : Option Digest) : Value := nullable (value.map Subtype.val)

def WorkSelectionPrecondition.toValue (entry : WorkSelectionPrecondition) : Value := .obj [
  ("workId", .str entry.workId),
  ("currentSpecRef", nullable entry.currentSpecRef),
  ("currentSpecRevision", nullableDigest entry.currentSpecRevision),
  ("reasonCode", .str entry.reasonCode),
  ("blockerRef", .str entry.blockerRef)]

def WorkCandidateDecision.toValue (decision : WorkCandidateDecision) : Value := .obj [
  ("workId", .str decision.workId),
  ("candidateRef", .str decision.candidateRef),
  ("currentSpecRef", .str decision.currentSpecRef),
  ("currentSpecRevision", .str decision.currentSpecRevision.val),
  ("status", .str decision.status.toText),
  ("reasonCodes", textList decision.reasonCodes),
  ("blockerRefs", textList decision.blockerRefs)]

def WorkCurrentSpecBinding.toValue (binding : WorkCurrentSpecBinding) : Value := .obj [
  ("workId", .str binding.workId),
  ("currentSpecRef", .str binding.currentSpecRef),
  ("currentSpecRevision", .str binding.currentSpecRevision.val)]

/-- `withoutDigest`. -/
def unsignedDecision (inputDigest : Digest) (selected : Option WorkCandidate) (bindings : List WorkCurrentSpecBinding)
    (material : DecisionMaterial) : Value := .obj [
  ("schema", .str WORK_DECISION_SCHEMA),
  ("policyRevision", .str WORK_SELECTION_POLICY_REVISION),
  ("inputDigest", .str inputDigest.val),
  ("selectedCurrentSpecRef", nullable (selected.map WorkCandidate.currentSpecRef)),
  ("selectedCurrentSpecRevision", nullableDigest (selected.map WorkCandidate.currentSpecRevision)),
  ("currentSpecBindings", .arr (bindings.map WorkCurrentSpecBinding.toValue)),
  ("status", .str material.status.toText),
  ("selectedWorkId", nullable material.selectedWorkId),
  ("selectedCandidateRef", nullable material.selectedCandidateRef),
  ("blockedCandidateRefs", textList material.blockedCandidateRefs),
  ("reasonCodes", textList material.reasonCodes),
  ("requiredPreconditions", .arr (material.requiredPreconditions.map WorkSelectionPrecondition.toValue)),
  ("rejectionWitnesses", .arr (material.rejectionWitnesses.map WorkCandidateDecision.toValue))]

def finalizeDecision [Sha256] (input : WorkSelectionInput) (material : DecisionMaterial) : Except Text WorkDecision := do
  let selected := material.selectedCandidateRef.bind fun ref =>
    input.candidates.find? fun candidate => candidate.candidateRef = ref
  require (¬(material.selectedCandidateRef ≠ none ∧ selected = none))
    (refusal [] "selected candidate ref must resolve inside the bound candidate set.")
  let inputDigest := workDigest input.toValue
  let bindings := input.candidates.map fun candidate =>
    ⟨candidate.workId, candidate.currentSpecRef, candidate.currentSpecRevision⟩
  return ⟨inputDigest, selected.map WorkCandidate.currentSpecRef, selected.map WorkCandidate.currentSpecRevision,
    bindings, material, workDigest (unsignedDecision inputDigest selected bindings material)⟩

/-- The reasons to reconcile before any selection. -/
def reconciliationReasons (current : CurrentWorkLifecycle) : List Text := uniqueSorted (
  textIf (current.controlState = .conflict) "control-conflict" ++
  textIf (current.mainHealthState = .unhealthy) "main-unhealthy" ++
  textIf (current.activeLegality = .invalid) "active-invalid")

/-- A decision that looks at no candidate. -/
def lifecycleMaterial (status : WorkDecisionStatus) (selectedWorkId : Option Text) (reasonCodes : List Text)
    (requiredPreconditions : List WorkSelectionPrecondition) : DecisionMaterial :=
  ⟨status, selectedWorkId, none, [], reasonCodes, requiredPreconditions, []⟩

/-- The cases that come before every candidate. -/
def lifecycleDecision (current : CurrentWorkLifecycle) : Option DecisionMaterial :=
  if current.activeState = .incomplete ∧ current.activeLegality = .legal ∧ current.mainHealthState = .healthy ∧
      current.controlState = .consistent then
    some (lifecycleMaterial .continueActive current.activeWorkId ["active-incomplete"] [])
  else if current.closeoutState = .required then
    some (lifecycleMaterial .closeout current.activeWorkId ["closeout-required"] [])
  else if reconciliationReasons current ≠ [] then
    some (lifecycleMaterial .reconcile current.activeWorkId (reconciliationReasons current) [])
  else if current.activeState = .unresolved ∨ current.activeLegality = .unresolved ∨
      current.mainHealthState = .unresolved ∨ current.closeoutState = .unresolved ∨ current.controlState = .unresolved then
    some (lifecycleMaterial .unresolved none ["current-lifecycle-unresolved"] (currentPreconditions current))
  else none

def isEligible (candidate : WorkCandidate) : Bool := (evaluateWorkCandidate candidate).status = .eligible

def isUncertain (candidate : WorkCandidate) : Bool :=
  (evaluateWorkCandidate candidate).status = .unresolved || (evaluateWorkCandidate candidate).status = .humanRequired

def rejectionWitnesses (candidates : List WorkCandidate) : List WorkCandidateDecision :=
  sortBy WorkCandidateDecision.workId
    ((candidates.filter fun candidate => !isEligible candidate).map evaluateWorkCandidate)

/-- The uncertain candidate comes before every eligible one. -/
def outranks (uncertain : WorkCandidate) (bestEligible : Option WorkCandidate) : Bool :=
  match bestEligible with
  | none => true
  | some eligible => compareCandidateRank uncertain eligible < 0

def uncertainMaterial (uncertain : WorkCandidate) : WorkDecisionStatus × List Text :=
  if (evaluateWorkCandidate uncertain).status = .humanRequired then (.humanEscalation, ["human-decision-required"])
  else (.unresolved, ["selection-input-unresolved"])

def selectionMaterial (candidates : List WorkCandidate) : DecisionMaterial :=
  let ordered := candidates.insertionSort fun left right => compareCandidateRank left right ≤ 0
  let bestEligible := (ordered.filter isEligible).head?
  let bestUncertain := (ordered.filter isUncertain).head?
  let witnesses := rejectionWitnesses candidates
  let blockedCandidateRefs := uniqueSorted (witnesses.map WorkCandidateDecision.candidateRef)
  let requiredPreconditions := candidatePreconditions candidates
  match bestUncertain.filter (outranks · bestEligible), bestEligible with
  | some uncertain, _ =>
      let (status, reasonCodes) := uncertainMaterial uncertain
      ⟨status, none, none, blockedCandidateRefs, reasonCodes, requiredPreconditions, witnesses⟩
  | none, some eligible =>
      ⟨.selectNext, some eligible.workId, some eligible.candidateRef, blockedCandidateRefs,
        uniqueSorted ("candidate-selected" :: (evaluateWorkCandidate eligible).reasonCodes), requiredPreconditions,
        witnesses⟩
  | none, none =>
      ⟨.none, none, none, blockedCandidateRefs, ["none-required"], requiredPreconditions, witnesses⟩

def compileWorkDecision [Sha256] (value : Value) : Except Text WorkDecision := do
  let input ← parseWorkSelectionInput value
  match lifecycleDecision input.current with
  | some material => finalizeDecision input material
  | none => finalizeDecision input (selectionMaterial input.candidates)

end SecPlatform.WorkSelection
