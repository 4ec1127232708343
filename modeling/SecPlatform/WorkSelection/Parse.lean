import SecPlatform.Library.Except
import SecPlatform.WorkSelection.Contract

/-!
# Reading the input of a selection

Every list of an accepted input is sorted, so that the order in which it was written is forgotten.
-/

namespace SecPlatform.WorkSelection

open Contracts

/-- The message of `fail`. -/
def refusal (label : Text) (message : Text) : Text := Text.cat ["Work Selection V1: ", label, message]

/-! ## Values -/

def record (value : Value) (label : Text) : Except Text (List (Text × Value)) :=
  match value with
  | .obj members => .ok members
  | _ => .error (refusal label " must be one object.")

def exactKeys (members : List (Text × Value)) (keys : List Text) (label : Text) : Except Text Unit :=
  let actual := sortBy id (members.map Prod.fst)
  require (actual = sortBy id keys)
    (refusal label (Text.cat [" keys must be exact; received ", Text.joinWith "," actual, "."]))

/-- A member of a record whose keys have been checked. -/
def member (members : List (Text × Value)) (key : Text) : Value := (Json.get? key members).getD .null

/-- A text that has to satisfy a predicate. -/
def checkedText (p : Text → Bool) (message : Text) (value : Value) (label : Text) : Except Text Text :=
  match value with
  | .str s => do
      require (p s) (refusal label message)
      return s
  | _ => .error (refusal label message)

def isNonEmptyText (value : Text) : Bool := decide (value.trim ≠ []) && decide (0 ∉ value)

def text (value : Value) (label : Text) : Except Text Text :=
  checkedText isNonEmptyText " must be one non-empty string." value label

/-- A code unit outside of `/[\u0000-\u0020\u007f]/u`. -/
def isReferenceUnit (c : CodeUnit) : Bool := 0x20 < c && c ≠ 0x7F

def isReference (value : Text) : Bool := decide (value.length ≤ 512) && value.all isReferenceUnit

/-- A non-empty text with a grammar of its own. -/
def grammarText (p : Text → Bool) (message : Text) (value : Value) (label : Text) : Except Text Text := do
  let parsed ← text value label
  require (p parsed) (refusal label message)
  return parsed

def reference (value : Value) (label : Text) : Except Text Text :=
  grammarText isReference " must be one bounded canonical reference without whitespace or control bytes." value label

def optionalReference (value : Value) (label : Text) : Except Text (Option Text) :=
  match value with
  | .null => .ok none
  | value => do
      let parsed ← reference value label
      return some parsed

/-- `[a-z0-9]`. -/
def isTokenHead (c : CodeUnit) : Bool := (unit 'a' ≤ c && c ≤ unit 'z') || (unit '0' ≤ c && c ≤ unit '9')

/-- A letter or digit, then also periods, underscores, colons, slashes and hyphens. -/
def isToken : Text → Bool
  | [] => false
  | c :: rest => isTokenHead c && rest.all fun c => isTokenHead c || c ∈ Text.ofString "._:/-"

def token (value : Value) (label : Text) : Except Text Text :=
  grammarText isToken " must be one canonical token." value label

/-- `/^[0-9a-f]{40}$/u`. -/
def isGitObjectId (value : Text) : Bool := value.length = 40 && value.all isHexDigit

def exactMain (value : Value) (label : Text) : Except Text Text :=
  grammarText isGitObjectId " must be one lowercase full Git object ID." value label

def digest (value : Value) (label : Text) : Except Text Digest := do
  let parsed ← text value label
  if h : isDigest parsed then return ⟨parsed, h⟩
  else throw (refusal label " must be one lowercase SHA-256 digest.")

def enumeration {α : Type} (values : List α) (spelling : α → Text) (value : Value) (label : Text) : Except Text α :=
  match values.find? fun entry => value = .str (spelling entry) with
  | some entry => .ok entry
  | none => .error (refusal label
      (Text.cat [" must be one of ", Text.joinWith "," (values.map spelling), "."]))

def boolean (value : Value) (label : Text) : Except Text Bool :=
  match value with
  | .bool b => .ok b
  | _ => .error (refusal label " must be one boolean.")

/-- The natural number that a safe integer is. -/
def safeNat? : Value → Option Nat
  | .num n => n.toNat?.filter fun m => m < 2 ^ 53
  | _ => none

def nonNegativeInteger (value : Value) (label : Text) : Except Text Nat :=
  match safeNat? value with
  | some n => .ok n
  | none => .error (refusal label " must be one non-negative safe integer.")

def array (value : Value) (label : Text) : Except Text (List Value) :=
  match value with
  | .arr items => .ok items
  | _ => .error (refusal label " must be one array.")

/-- `.map((entry, index) => …)` with the label of each entry. -/
def mapEntries {α : Type} (f : Value → Text → Except Text α) (label : Text) (items : List Value) :
    Except Text (List α) :=
  items.zipIdx.mapM fun entry => f entry.1 (Text.cat [label, "[", Text.ofNat entry.2, "]"])

def sortedUniqueTexts (value : Value) (label : Text) : Except Text (List Text) := do
  let items ← array value label
  let parsed ← mapEntries reference label items
  require parsed.Nodup (refusal label " contains a duplicate ref.")
  return sortBy id parsed

/-! ## Facts -/

def parseDependencyFact (entry : Value) (label : Text) : Except Text WorkDependencyFact := do
  let item ← record entry label
  exactKeys item ["ref", "status"] label
  let ref ← reference (member item "ref") (Text.cat [label, ".ref"])
  let status ← enumeration FactStatus.all FactStatus.toText (member item "status") (Text.cat [label, ".status"])
  return ⟨ref, status⟩

def parseDependencyFacts (value : Value) (label : Text) : Except Text (List WorkDependencyFact) := do
  let items ← array value label
  let facts ← mapEntries parseDependencyFact label items
  require (facts.map WorkDependencyFact.ref).Nodup (refusal label " contains a duplicate ref.")
  return sortBy WorkDependencyFact.ref facts

/-! ## Candidates -/

def CANDIDATE_KEYS : List Text := [
  "workId", "candidateRef", "currentSpecRef", "currentSpecRevision", "ownerRef",
  "kind", "lifecycle", "lifecycleRef",
  "priorityClass", "priorityEvidenceRefs", "readiness", "readinessRef",
  "prerequisiteFacts", "orderedAfterFacts", "conflictStatus", "conflictDecisionRefs",
  "blockedReadySuccessorCount", "roadmapDirect", "reproductionOrEvidenceFreshness",
  "rootCauseState", "rootCauseRef", "scopeClosure", "exitCriteriaRef", "nearTermConsumerRef",
  "humanDecisionRef"]

/-- The fields of a candidate, in the order in which they are read. -/
def parseCandidateFields (item : List (Text × Value)) (prerequisiteFacts orderedAfterFacts : List WorkDependencyFact)
    (label : Text) : Except Text WorkCandidate := do
  let field (name : Text) : Text := Text.cat [label, ".", name]
  let workId ← token (member item "workId") (field "workId")
  let candidateRef ← reference (member item "candidateRef") (field "candidateRef")
  let currentSpecRef ← reference (member item "currentSpecRef") (field "currentSpecRef")
  let currentSpecRevision ← digest (member item "currentSpecRevision") (field "currentSpecRevision")
  let ownerRef ← optionalReference (member item "ownerRef") (field "ownerRef")
  let kind ← enumeration WorkKind.all WorkKind.toText (member item "kind") (field "kind")
  let lifecycle ← enumeration WorkLifecycle.all WorkLifecycle.toText (member item "lifecycle") (field "lifecycle")
  let lifecycleRef ← reference (member item "lifecycleRef") (field "lifecycleRef")
  let priorityClass ← enumeration WorkPriorityClass.all WorkPriorityClass.toText (member item "priorityClass")
    (field "priorityClass")
  let priorityEvidenceRefs ← sortedUniqueTexts (member item "priorityEvidenceRefs") (field "priorityEvidenceRefs")
  let readiness ← enumeration WorkReadiness.all WorkReadiness.toText (member item "readiness") (field "readiness")
  let readinessRef ← reference (member item "readinessRef") (field "readinessRef")
  let conflictStatus ← enumeration ConflictStatus.all ConflictStatus.toText (member item "conflictStatus")
    (field "conflictStatus")
  let conflictDecisionRefs ← sortedUniqueTexts (member item "conflictDecisionRefs") (field "conflictDecisionRefs")
  let blockedReadySuccessorCount ← nonNegativeInteger (member item "blockedReadySuccessorCount")
    (field "blockedReadySuccessorCount")
  let roadmapDirect ← boolean (member item "roadmapDirect") (field "roadmapDirect")
  let reproductionOrEvidenceFreshness ← enumeration Freshness.all Freshness.toText
    (member item "reproductionOrEvidenceFreshness") (field "reproductionOrEvidenceFreshness")
  let rootCauseState ← enumeration RootCauseState.all RootCauseState.toText (member item "rootCauseState")
    (field "rootCauseState")
  let rootCauseRef ← reference (member item "rootCauseRef") (field "rootCauseRef")
  let scopeClosure ← enumeration ScopeClosure.all ScopeClosure.toText (member item "scopeClosure") (field "scopeClosure")
  let exitCriteriaRef ← optionalReference (member item "exitCriteriaRef") (field "exitCriteriaRef")
  let nearTermConsumerRef ← optionalReference (member item "nearTermConsumerRef") (field "nearTermConsumerRef")
  let humanDecisionRef ← optionalReference (member item "humanDecisionRef") (field "humanDecisionRef")
  return ⟨workId, candidateRef, currentSpecRef, currentSpecRevision, ownerRef, kind, lifecycle, lifecycleRef,
    priorityClass, priorityEvidenceRefs, readiness, readinessRef, prerequisiteFacts, orderedAfterFacts, conflictStatus,
    conflictDecisionRefs, blockedReadySuccessorCount, roadmapDirect, reproductionOrEvidenceFreshness, rootCauseState,
    rootCauseRef, scopeClosure, exitCriteriaRef, nearTermConsumerRef, humanDecisionRef⟩

/-- What the fields of a candidate demand of each other. -/
def assertCandidate (parsed : WorkCandidate) (label : Text) : Except Text Unit := do
  require (parsed.conflictDecisionRefs ≠ [])
    (refusal label ".conflictDecisionRefs must bind the conflict owner decision.")
  require (¬(parsed.priorityClass = .nearTermAcceleration ∧ parsed.nearTermConsumerRef = none))
    (refusal label " near-term acceleration requires a direct consumer ref.")
  require (¬(parsed.priorityClass = .productCriticalPath ∧ parsed.roadmapDirect = false))
    (refusal label " product-critical-path must be direct to the current roadmap stage.")
  require (¬(parsed.priorityClass ≠ .maintenanceRequired ∧ parsed.priorityClass ≠ .defer ∧
      parsed.priorityEvidenceRefs = []))
    (refusal label " priority class requires at least one machine evidence ref.")
  require (¬(parsed.rootCauseState = .repeatRootCause ∧ parsed.priorityEvidenceRefs = []))
    (refusal label " repeat root cause requires one machine evidence ref.")

def parseCandidate (value : Value) (label : Text) : Except Text WorkCandidate := do
  let item ← record value label
  exactKeys item CANDIDATE_KEYS label
  let prerequisiteFacts ← parseDependencyFacts (member item "prerequisiteFacts") (Text.cat [label, ".prerequisiteFacts"])
  let orderedAfterFacts ← parseDependencyFacts (member item "orderedAfterFacts") (Text.cat [label, ".orderedAfterFacts"])
  require ((prerequisiteFacts ++ orderedAfterFacts).map WorkDependencyFact.ref).Nodup
    (refusal label " repeats one dependency ref across prerequisiteFacts and orderedAfterFacts.")
  let parsed ← parseCandidateFields item prerequisiteFacts orderedAfterFacts label
  assertCandidate parsed label
  return parsed

def normalizeCandidates (value : Value) : Except Text (List WorkCandidate) := do
  let items ← array value "candidates"
  let candidates ← mapEntries parseCandidate "candidates" items
  require (candidates.map WorkCandidate.workId).Nodup (refusal [] "candidates contains a duplicate workId.")
  require (candidates.map WorkCandidate.candidateRef).Nodup (refusal [] "candidates contains a duplicate candidateRef.")
  require (candidates.map WorkCandidate.currentSpecRef).Nodup
    (refusal [] "candidates contains a duplicate currentSpecRef.")
  return sortBy WorkCandidate.workId candidates

/-! ## Inputs -/

/-- The active work of `current`. -/
structure ActiveWork where
  workId : Option Text
  ref : Option Text
  state : ActiveState
  legality : ActiveLegality
  deriving DecidableEq

def parseActiveWork (current : List (Text × Value)) : Except Text ActiveWork := do
  let activeWorkId ← match member current "activeWorkId" with
    | .null => .ok none
    | value => (token value "current.activeWorkId").map some
  let activeRef ← optionalReference (member current "activeRef") "current.activeRef"
  let activeState ← enumeration ActiveState.all ActiveState.toText (member current "activeState") "current.activeState"
  require (activeState = .none ↔ activeWorkId = none)
    (refusal [] "current.activeWorkId must be null exactly when activeState is none.")
  require (activeState = .none ↔ activeRef = none)
    (refusal [] "current.activeRef must be null exactly when activeState is none.")
  let activeLegality ← enumeration ActiveLegality.all ActiveLegality.toText (member current "activeLegality")
    "current.activeLegality"
  require (activeState = .none ↔ activeLegality = .notApplicable)
    (refusal [] "current.activeLegality must be not-applicable exactly when activeState is none.")
  return ⟨activeWorkId, activeRef, activeState, activeLegality⟩

def parseCurrent (current : List (Text × Value)) (active : ActiveWork) : Except Text CurrentWorkLifecycle := do
  let mainHealthState ← enumeration MainHealthRoutingState.all MainHealthRoutingState.toText
    (member current "mainHealthState") "current.mainHealthState"
  let mainHealthRef ← reference (member current "mainHealthRef") "current.mainHealthRef"
  let closeoutState ← enumeration CloseoutState.all CloseoutState.toText (member current "closeoutState")
    "current.closeoutState"
  let closeoutRef ← reference (member current "closeoutRef") "current.closeoutRef"
  let controlState ← enumeration ControlState.all ControlState.toText (member current "controlState")
    "current.controlState"
  let controlRef ← reference (member current "controlRef") "current.controlRef"
  return ⟨active.workId, active.ref, active.state, active.legality, mainHealthState, mainHealthRef, closeoutState,
    closeoutRef, controlState, controlRef⟩

def parseWorkSelectionInput [Sha256] (value : Value) : Except Text WorkSelectionInput := do
  let input ← record value "input"
  exactKeys input ["schema", "identity", "current", "candidates"] "input"
  require (member input "schema" = .str WORK_SELECTION_INPUT_SCHEMA)
    (refusal "input.schema must be " (Text.cat [WORK_SELECTION_INPUT_SCHEMA, "."]))
  let identity ← record (member input "identity") "identity"
  exactKeys identity ["exactMain", "roadmapRevision", "candidateSetRevision", "selectionPolicyRevision"] "identity"
  require (member identity "selectionPolicyRevision" = .str WORK_SELECTION_POLICY_REVISION)
    (refusal "identity.selectionPolicyRevision must be " (Text.cat [WORK_SELECTION_POLICY_REVISION, "."]))
  let current ← record (member input "current") "current"
  exactKeys current ["activeWorkId", "activeRef", "activeState", "activeLegality", "mainHealthState", "mainHealthRef",
    "closeoutState", "closeoutRef", "controlState", "controlRef"] "current"
  let active ← parseActiveWork current
  let candidates ← normalizeCandidates (member input "candidates")
  let candidateSetRevision ← digest (member identity "candidateSetRevision") "identity.candidateSetRevision"
  require (candidateSetRevision = workDigest (candidateSetValue candidates))
    (refusal [] "identity.candidateSetRevision does not bind the normalized candidate set.")
  let exactMain ← exactMain (member identity "exactMain") "identity.exactMain"
  let roadmapRevision ← digest (member identity "roadmapRevision") "identity.roadmapRevision"
  let current ← parseCurrent current active
  return ⟨⟨exactMain, roadmapRevision, candidateSetRevision⟩, current, candidates⟩

end SecPlatform.WorkSelection
