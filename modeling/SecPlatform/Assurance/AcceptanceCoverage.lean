import SecPlatform.Library.DependencySearch
import SecPlatform.Semantics.Acceptance

/-!
# Acceptance coverage

Which blocks are covered by acceptance items that were proven. Declarations of one item are merged; their dependencies
have to be declared and acyclic; an item counts for a block when it and all that it depends on were accepted.
-/

namespace SecPlatform.Assurance

open Contracts Semantics

/-! ## Failures -/

inductive AcceptanceCoverageFailure where
  /-- A check of the source, of a test path or of the report. -/
  | invalid (message : Text)
  | unknownResolvedBlock (acceptanceId blockId : Text)
  | undeclaredDependency (acceptanceId dependency : Text)
  | dependencyCycle (cycle : List Text)
  | planUndeclared (acceptanceId : Text)
  | planCoversNothing (acceptanceId : Text)
  | nesting
  deriving DecidableEq

def AcceptanceCoverageFailure.message : AcceptanceCoverageFailure → Text
  | .invalid message => message
  | .unknownResolvedBlock acceptanceId blockId =>
      Text.cat ["Acceptance ", acceptanceId, " references unknown resolved block ", blockId]
  | .undeclaredDependency acceptanceId dependency =>
      Text.cat ["Acceptance ", acceptanceId, " depends on undeclared acceptance ID ", dependency]
  | .dependencyCycle cycle => Text.ofString "Acceptance dependency cycle detected: " ++ Text.joinWith " -> " cycle
  | .planUndeclared acceptanceId => Text.ofString "Acceptance plan references undeclared acceptance ID " ++ acceptanceId
  | .planCoversNothing acceptanceId => Text.cat ["Acceptance plan ID ", acceptanceId, " covers no resolved block"]
  | .nesting => "Maximum call stack size exceeded"

/-! ## Source -/

structure AcceptanceTest where
  testPath : Text
  blockId : Text

structure AcceptanceCoverageSource where
  resolvedBlockIds : List Text
  acceptancePlan : List Text
  declarations : List AcceptanceSource
  tests : List AcceptanceTest

def ids (value : List Text) (valid : Text → Bool) (label : Text) : Except Text Unit :=
  require ((∀ id ∈ value, valid id) ∧ value = uniqueSorted value)
    (label ++ Text.ofString " must be unique canonical identities")

def declarationKey (declaration : AcceptanceSource) : Text :=
  declaration.declaringBlockId ++ Text.ofString ":" ++ declaration.acceptance.id

section

variable [UnicodeText]

def validateDeclaration (resolved : List Text) (declaration : AcceptanceSource) : Except Text Unit := do
  require (declaration.declaringBlockId ∈ resolved) (Text.ofString "Acceptance source has unknown declaring block")
  validateAcceptanceItem declaration.acceptance
  declaration.acceptance.dependsOn.toList.forM fun dependsOn =>
    ids dependsOn isCanonicalAcceptanceId "Acceptance dependencies"
  (declaration.acceptance.covers.bind (·.blocks)).toList.forM fun blocks => do
    ids blocks isCanonicalBlockId "Acceptance covers"
    require (∀ id ∈ blocks, id ∈ resolved) (Text.ofString "Acceptance source references unknown resolved block")

def validateTest (resolved : List Text) (test : AcceptanceTest) : Except Text Unit := do
  require (test.blockId ∈ resolved) (Text.ofString "Acceptance source has unknown test owner")
  let _ ← canonicalAcceptanceTestPath test.testPath

/-- `validateAcceptanceCoverageSource`, for a source of the right shape; it returns the source as it is. -/
def validateAcceptanceCoverageSource (value : AcceptanceCoverageSource) : Except Text Unit := do
  ids value.resolvedBlockIds isCanonicalBlockId "Resolved blocks"
  ids value.acceptancePlan isCanonicalAcceptanceId "Acceptance plan"
  value.declarations.forM (validateDeclaration value.resolvedBlockIds)
  let declarationKeys := value.declarations.map declarationKey
  require (declarationKeys = uniqueSorted declarationKeys)
    (Text.ofString "Acceptance declarations must be unique and canonically ordered")
  value.tests.forM (validateTest value.resolvedBlockIds)
  let testPaths := value.tests.map AcceptanceTest.testPath
  require (testPaths = uniqueSorted testPaths)
    (Text.ofString "Acceptance test ownership must be unique and canonically ordered")

end

/-! ## Proof by lane reports -/

inductive LaneStatus where
  | passed | failed | skipped
  deriving DecidableEq

structure FastAcceptanceStep where
  status : LaneStatus
  passed : List Text
  failed : List Text

structure FastVerificationLaneReport where
  status : LaneStatus
  acceptance : FastAcceptanceStep

structure VerificationStepReport where
  status : LaneStatus
  passed : List Text
  failed : List Text
  command : Option Text

structure RuntimeVerificationLaneReport where
  status : LaneStatus
  acceptance : VerificationStepReport

structure AcceptanceProofBinding where
  testPath : Text
  acceptanceIds : List Text

section

variable [UnicodeText]

def fastPath (file : Text) : Except Text Text :=
  canonicalAcceptanceTestPath
    (if Text.ofString "tests/" <+: file then file else Text.ofString "tests/acceptance/" ++ file)

/-- The tests that passed in a lane that ran. -/
def passedTests (fast : FastVerificationLaneReport) (runtime : RuntimeVerificationLaneReport) :
    Except Text (List Text) := do
  let fastPassed ← (if fast.status ≠ .skipped ∧ fast.acceptance.status ≠ .skipped then fast.acceptance.passed else []).mapM
    fastPath
  let runtimePassed ← (if runtime.status ≠ .skipped ∧ runtime.acceptance.status ≠ .skipped ∧
    runtime.acceptance.command.isSome then runtime.acceptance.passed else []).mapM canonicalAcceptanceTestPath
  return fastPassed ++ runtimePassed

def failedTests (fast : FastVerificationLaneReport) (runtime : RuntimeVerificationLaneReport) :
    Except Text (List Text) := do
  let fastFailed ← fast.acceptance.failed.mapM fastPath
  let runtimeFailed ← runtime.acceptance.failed.mapM canonicalAcceptanceTestPath
  return fastFailed ++ runtimeFailed

/-- The test paths of each item: `required`. -/
def requiredTests (bindings : List AcceptanceProofBinding) : Except Text (OrderedMap Text (List Text)) := do
  let entries ← bindings.mapM fun binding => do
    let path ← canonicalAcceptanceTestPath binding.testPath
    return binding.acceptanceIds.map fun id => (id, path)
  return OrderedMap.empty.addAllTo entries.flatten

def acceptanceIdsProvenByVerificationReports (fast : FastVerificationLaneReport)
    (runtime : RuntimeVerificationLaneReport) (enabledAcceptanceIds : List Text)
    (bindings : List AcceptanceProofBinding) : Except Text (List Text) := do
  let passed ← passedTests fast runtime
  let failed ← failedTests fast runtime
  require (∀ path ∈ passed, path ∉ failed) (Text.ofString "Acceptance test cannot be both passed and failed")
  let required ← requiredTests bindings
  return uniqueSorted (enabledAcceptanceIds.filter fun id =>
    required.valuesAt id ≠ [] ∧ ∀ path ∈ required.valuesAt id, path ∈ passed)

end

/-! ## Targets -/

structure AcceptanceCoverageTarget where
  id : Text
  acceptance : AcceptanceItem
  blockId : Text

structure AcceptanceDefinition where
  id : Text
  dependsOn : List Text

abbrev AcceptanceDefinitions := OrderedMap Text AcceptanceDefinition

/-- The items that take part, with their blocks, and the items of each block. -/
structure AcceptanceTargetIndex where
  participation : OrderedMap Text (List Text)
  byBlock : OrderedMap Text (List Text)

def acceptanceBlockTargets (target : AcceptanceCoverageTarget) : List Text :=
  (target.acceptance.covers.bind (·.blocks)).getD [target.blockId]

/-- One block of a target is added to the index. -/
def indexTargetBlock (resolvedBlockIds : List Text) (target : AcceptanceCoverageTarget) (index : AcceptanceTargetIndex)
    (blockId : Text) : Except AcceptanceCoverageFailure AcceptanceTargetIndex :=
  if blockId ∉ resolvedBlockIds then .error (.unknownResolvedBlock target.id blockId)
  else .ok ⟨index.participation.addTo target.id (Text.ofString "block:" ++ blockId), index.byBlock.addTo blockId target.id⟩

/-- The index before it is frozen. -/
def buildCoverageTargetIndex (targets : List AcceptanceCoverageTarget) (resolvedBlockIds : List Text) :
    Except AcceptanceCoverageFailure AcceptanceTargetIndex :=
  targets.foldlM (fun index target => (acceptanceBlockTargets target).foldlM (indexTargetBlock resolvedBlockIds target) index)
    ⟨.empty, .empty⟩

/-- `targetIndex.byBlock.get(id) ?? []`; freezing the index made the items of a block unique and sorted. -/
def AcceptanceTargetIndex.declaredAcceptance (index : AcceptanceTargetIndex) (blockId : Text) : List Text :=
  uniqueSorted (index.byBlock.valuesAt blockId)

def dependsOnOf (definitions : AcceptanceDefinitions) (acceptanceId : Text) : List Text :=
  ((definitions.get? acceptanceId).map (·.dependsOn)).getD []

/-- A declaration joins the others of its item. -/
def mergeTarget (definitions : AcceptanceDefinitions) (target : AcceptanceCoverageTarget) : AcceptanceDefinitions :=
  definitions.set target.id
    ⟨target.id, uniqueSorted (dependsOnOf definitions target.id ++ target.acceptance.dependsOn.getD [])⟩

def mergeTargets (targets : List AcceptanceCoverageTarget) : AcceptanceDefinitions := targets.foldl mergeTarget .empty

def checkDependency (definitions : AcceptanceDefinitions) (acceptanceId dependency : Text) :
    Except AcceptanceCoverageFailure Unit :=
  require (definitions.has dependency) (.undeclaredDependency acceptanceId dependency)

def buildAcceptanceDefinitions (targets : List AcceptanceCoverageTarget) :
    Except AcceptanceCoverageFailure AcceptanceDefinitions := do
  let definitions := mergeTargets targets
  definitions.entries.forM fun entry => entry.2.dependsOn.forM (checkDependency definitions entry.1)
  return definitions

def ofSearchFailure : DependencySearch.Failure Text → AcceptanceCoverageFailure
  | .cycle path => .dependencyCycle path
  | .nesting => .nesting

/-- The depth of a call stack that no recursion through the definitions exceeds. -/
def nestingBound (definitions : AcceptanceDefinitions) : Nat := definitions.keys.length + 1

def assertAcceptanceDependencyAcyclic (definitions : AcceptanceDefinitions) : Except AcceptanceCoverageFailure Unit :=
  ((DependencySearch.visitAll (dependsOnOf definitions) (nestingBound definitions) definitions.keys).mapError
    ofSearchFailure).map fun _ => ()

/-! ## The report -/

structure AcceptanceCoverageEntry where
  id : Text
  declaredAcceptance : List Text
  coveredBy : List Text
  uncovered : Bool

structure AcceptanceCoverageReport where
  source : AcceptanceCoverageSource
  status : LaneStatus
  acceptancePassed : List Text
  blocks : List AcceptanceCoverageEntry
  uncoveredBlocks : List Text

def buildCoverageEntry (id : Text) (declaredAcceptance coveredBy : List Text) : AcceptanceCoverageEntry :=
  let normalizedDeclared := uniqueSorted declaredAcceptance
  let normalizedCoveredBy := uniqueSorted coveredBy
  ⟨id, normalizedDeclared, normalizedCoveredBy,
    decide (normalizedDeclared.length = 0) || decide (normalizedCoveredBy.length ≠ normalizedDeclared.length)⟩

/-- `isSatisfied(acceptanceId)`, with the answers that were kept. -/
def isSatisfied (accepted : List Text) (definitions : AcceptanceDefinitions) (acceptanceId : Text)
    (memo : OrderedMap Text Bool) : Except (DependencySearch.Failure Text) (Bool × OrderedMap Text Bool) :=
  DependencySearch.satisfied (dependsOnOf definitions) (fun id => definitions.has id && decide (id ∈ accepted))
    (nestingBound definitions) acceptanceId memo

/-- The entries of the blocks one after the other. -/
def blockCoverage (accepted : List Text) (definitions : AcceptanceDefinitions) (index : AcceptanceTargetIndex) :
    List Text → OrderedMap Text Bool → Except (DependencySearch.Failure Text) (List AcceptanceCoverageEntry)
  | [], _ => .ok []
  | id :: ids, memo => do
      let declaredAcceptance := index.declaredAcceptance id
      let coveredBy ← DependencySearch.filterSatisfied (isSatisfied accepted definitions) declaredAcceptance memo
      let entries ← blockCoverage accepted definitions index ids coveredBy.2
      return buildCoverageEntry id declaredAcceptance coveredBy.1 :: entries

def targetsOf (source : AcceptanceCoverageSource) : List AcceptanceCoverageTarget :=
  source.declarations.map fun declaration => ⟨declaration.acceptance.id, declaration.acceptance, declaration.declaringBlockId⟩

def checkPlanned (definitions : AcceptanceDefinitions) (index : AcceptanceTargetIndex) (acceptanceId : Text) :
    Except AcceptanceCoverageFailure Unit := do
  require (definitions.has acceptanceId) (.planUndeclared acceptanceId)
  require ((index.participation.valuesAt acceptanceId).length ≠ 0) (.planCoversNothing acceptanceId)

/-- The items with a declaration that has no source, or a test that is not installed. -/
def missingSource (source : AcceptanceCoverageSource) : List Text :=
  let installed := source.tests.map (·.testPath)
  ((targetsOf source).filter fun target => match target.acceptance.source with
    | none => true
    | some itemSource => itemSource.tests.any fun test => test ∉ installed).map (·.id)

def proofBindings (source : AcceptanceCoverageSource) : List AcceptanceProofBinding :=
  (targetsOf source).flatMap fun target =>
    ((target.acceptance.source.map (·.tests)).getD []).map fun testPath => ⟨testPath, [target.id]⟩

section

variable [UnicodeText]

def validateAcceptanceIds (value : List Text) (label : Text) : Except Text Unit := do
  require (∀ id ∈ value, isCanonicalAcceptanceId id) (label ++ Text.ofString " must contain canonical Acceptance IDs")
  require (value = uniqueSorted value) (label ++ Text.ofString " must be unique and canonically ordered")

def validateEntry (index : Nat) (entry : AcceptanceCoverageEntry) : Except Text Unit := do
  let label := Text.cat ["Acceptance Coverage block[", Text.ofNat index, "]"]
  require (isCanonicalBlockId entry.id) (label ++ Text.ofString ".id is not one canonical block identity")
  validateAcceptanceIds entry.declaredAcceptance (label ++ Text.ofString ".declaredAcceptance")
  validateAcceptanceIds entry.coveredBy (label ++ Text.ofString ".coveredBy")
  require (∀ id ∈ entry.coveredBy, id ∈ entry.declaredAcceptance)
    (label ++ Text.ofString ".coveredBy contains an undeclared Acceptance ID")
  require (entry.uncovered = (decide (entry.declaredAcceptance.length = 0) ||
    decide (entry.coveredBy.length ≠ entry.declaredAcceptance.length)))
    (label ++ Text.ofString ".uncovered differs from declared/covered state")

/-- `validateAcceptanceCoverageReport`, for a report of the right shape; it returns the report as it is. -/
def validateAcceptanceCoverageReport (report : AcceptanceCoverageReport) : Except Text Unit := do
  validateAcceptanceIds report.acceptancePassed "Acceptance Coverage acceptancePassed"
  validateAcceptanceCoverageSource report.source
  report.blocks.zipIdx.forM fun entry => validateEntry entry.2 entry.1
  let blockIds := report.blocks.map AcceptanceCoverageEntry.id
  require blockIds.Nodup (Text.ofString "Acceptance Coverage blocks repeat an identity")
  require (blockIds = uniqueSorted blockIds) (Text.ofString "Acceptance Coverage blocks must be canonically ordered")
  require (report.uncoveredBlocks = (report.blocks.filter (·.uncovered)).map (·.id))
    (Text.ofString "Acceptance Coverage uncovered blocks differ from coverage entries")

/-- The report of a validated source, before its own validation. -/
def computeAcceptanceCoverage (source : AcceptanceCoverageSource) (fast : FastVerificationLaneReport)
    (runtime : RuntimeVerificationLaneReport) : Except AcceptanceCoverageFailure AcceptanceCoverageReport := do
  let targets := targetsOf source
  let targetIndex ← buildCoverageTargetIndex targets source.resolvedBlockIds
  let acceptanceById ← buildAcceptanceDefinitions targets
  assertAcceptanceDependencyAcyclic acceptanceById
  source.acceptancePlan.forM (checkPlanned acceptanceById targetIndex)
  let missing := missingSource source
  let acceptancePassed ← (acceptanceIdsProvenByVerificationReports fast runtime
    (source.acceptancePlan.filter fun id => id ∉ missing) (proofBindings source)).mapError .invalid
  let coverage ← (blockCoverage acceptancePassed acceptanceById targetIndex source.resolvedBlockIds .empty).mapError
    ofSearchFailure
  let blocks := sortBy (·.id) coverage
  return ⟨source, runtime.status, acceptancePassed, blocks, (blocks.filter (·.uncovered)).map (·.id)⟩

def buildAcceptanceCoverageFromSource (source : AcceptanceCoverageSource) (fast : FastVerificationLaneReport)
    (runtime : RuntimeVerificationLaneReport) : Except AcceptanceCoverageFailure AcceptanceCoverageReport := do
  (validateAcceptanceCoverageSource source).mapError .invalid
  let report ← computeAcceptanceCoverage source fast runtime
  (validateAcceptanceCoverageReport report).mapError .invalid
  return report

end

end SecPlatform.Assurance
