import SecPlatform.TestImpact.Projection
import SecPlatform.Library.Worklist

/-!
# Test impact

The tests that changed files affect: a search from the changed files to their consumers that stops at runnable tests.
A file without declarations is left along its structural edges, since no reference to it can be precise; every other
file along the edges that precise references have pruned.
-/

namespace SecPlatform.TestImpact

open Contracts

/-! ## Adjacency -/

abbrev Adjacency := OrderedMap Text (List Text)

/-- `map.get(target) ?? []`. -/
def consumersOf (map : Adjacency) (target : Text) : List Text := map.valuesAt target

/-- `addConsumer` for one edge after the other, each a target and its consumer. -/
def addConsumers (map : Adjacency) (edges : List (Text × Text)) : Adjacency := map.addAllTo edges

/-- The consumers of each target, unique and sorted. -/
def freezeAdjacency (map : Adjacency) : Adjacency :=
  (map.entries.map fun entry => (entry.1, uniqueSorted entry.2)).foldl (fun map entry => map.set entry.1 entry.2) map

/-! ## The reverse import map -/

/-- A path and an import specifier as one key. -/
def importKey (path specifier : Text) : Text := path ++ 0 :: specifier

/-- The key under which a reference counts towards a relative import. -/
def SemanticReference.importKey? (reference : SemanticReference) : Option Text :=
  match reference.moduleSpecifier with
  | some specifier => if Text.ofString "." <+: specifier then some (importKey reference.path specifier) else none
  | none => none

structure ReverseImportMap where
  map : Adjacency
  structuralMap : Adjacency
  declarationPaths : List Text
  unresolvedModuleFiles : List Text

namespace TestImpactSourceProvider

variable (provider : TestImpactSourceProvider)

/-- The edges of the resolved references. -/
def semanticEdges : List (Text × Text) :=
  provider.projection.semanticReferences.filterMap fun reference =>
    match reference.targetPath with
    | some target => if target = reference.path then none else some (target, reference.path)
    | none => none

def observedEdges : List (Text × Text) :=
  (provider.projection.observedTestConsumers.filter fun consumer => consumer.targetPath ≠ consumer.testPath).map
    fun consumer => (consumer.targetPath, consumer.testPath)

/-- An import all of whose references are precise, with at least one. -/
def isPreciseModuleReference (key : Text) : Bool :=
  let references := provider.projection.semanticReferences.filter fun reference => reference.importKey? = some key
  !references.isEmpty && references.all (·.precise)

/-- The edges of the imports that satisfy a condition. -/
def importEdges (condition : ModuleReference → Bool) : List (Text × Text) :=
  (provider.projection.moduleGraph.references.filter condition).flatMap fun reference =>
    reference.candidateTargets.map fun candidate => (candidate, reference.from)

def isImprecise (reference : ModuleReference) : Bool :=
  !provider.isPreciseModuleReference (importKey reference.from reference.specifier)

def buildReverseImportMap : ReverseImportMap where
  map := freezeAdjacency (addConsumers .empty
    (provider.semanticEdges ++ provider.observedEdges ++ provider.importEdges provider.isImprecise))
  structuralMap := freezeAdjacency (addConsumers .empty (provider.observedEdges ++ provider.importEdges fun _ => true))
  declarationPaths := provider.projection.declarationPaths
  unresolvedModuleFiles := provider.projection.moduleGraph.unresolvedFiles

def isTestImpactSourceFile (file : Text) : Bool :=
  let normalized := normalizeRepositoryPath file
  if isSecRepositoryTestModulePath normalized then false
  else provider.isTestImpactModuleGraphInputFile normalized || provider.buildReverseImportMap.map.has normalized ||
    (provider.moduleIdForPath normalized).isSome || (provider.classifyProviderSource normalized).isSome

/-! ## Searching the tests -/

def runnableTestFiles : List Text :=
  (provider.projection.testFiles.map normalizeRepositoryPath).filter fun testPath =>
    isFastTestFile testPath || isSlowTestFile testPath

/-- The consumers of a path: `structural` says which of the maps is read. -/
def consumers (structural : Bool) (path : Text) : List Text :=
  consumersOf (if structural then provider.buildReverseImportMap.structuralMap else provider.buildReverseImportMap.map) path

/-- The first entries of the queue. -/
def queueOf (files : List Text) : List (Text × Bool) :=
  files.map fun file =>
    let repositoryPath := normalizeRepositoryPath file
    (repositoryPath, !decide (repositoryPath ∈ provider.buildReverseImportMap.declarationPaths))

/-- The edges of a path in both maps. -/
def edgeCount (path : Text) : Nat := (provider.consumers true path).length + (provider.consumers false path).length

/-- The paths with edges. -/
def targets : List Text := provider.buildReverseImportMap.structuralMap.keys ++ provider.buildReverseImportMap.map.keys

/-- As many turns as the queue can have entries. -/
def turns (files : List Text) : Nat := files.length + Worklist.remaining provider.edgeCount provider.targets []

/-- The loop over the queue. -/
def searchTests (files : List Text) : Option (Worklist.Progress Text) :=
  Worklist.search (fun path => decide (path ∈ provider.runnableTestFiles)) provider.consumers false
    (provider.turns files) (provider.queueOf files) .start

/-- The loop ends. -/
theorem searchTests_isSome (files : List Text) : (provider.searchTests files).isSome := by
  have hweight : ∀ structural path, (provider.consumers structural path).length ≤ provider.edgeCount path := by
    intro structural path
    cases structural
    · exact Nat.le_add_left _ _
    · exact Nat.le_add_right _ _
  have hnodes : ∀ path, provider.edgeCount path ≠ 0 → path ∈ provider.targets := by
    intro path hedges
    by_contra hmem
    simp only [targets, List.mem_append, not_or, ← OrderedMap.get?_eq_none] at hmem
    exact hedges (by simp [edgeCount, consumers, consumersOf, OrderedMap.valuesAt, hmem.1, hmem.2])
  exact Worklist.search_isSome hweight hnodes (by simp [queueOf, turns, Worklist.Progress.start])

def deriveTestsForSources (files : List Text) : List Text :=
  uniqueSorted ((provider.searchTests files).get (provider.searchTests_isSome files)).matched

/-! ## The selection of a file -/

/-- The production files of the modules. -/
def moduleSources (moduleIds : List Text) : List Text :=
  (provider.projection.files.filter fun file => file.surface = .production ∧ ∃ id ∈ moduleIds, file.moduleId = some id).map
    (·.path)

def deriveTestsForModuleIds (moduleIds : List Text) : List Text :=
  if moduleIds = [] then [] else provider.deriveTestsForSources (provider.moduleSources moduleIds)

end TestImpactSourceProvider

structure TestImpactSelection where
  fast : List Text
  slow : List Text
  owners : List Text

namespace TestImpactSourceProvider

variable (provider : TestImpactSourceProvider)

/-- The file is a node of the graph. -/
def isGraphNode (normalizedFile : Text) : Bool :=
  provider.isTestImpactModuleGraphInputFile normalizedFile || provider.buildReverseImportMap.map.has normalizedFile

/-- The modules of the kind of a file whose tests are selected; documentation selects none. -/
def semanticTestModules (normalizedFile : Text) : List Text :=
  let sourceKind := provider.classifyProviderSource normalizedFile
  if sourceKind = some .activeDocumentation then [] else testImpactModuleIdsForSourceKind sourceKind

def selectionForSource (file : Text) : TestImpactSelection :=
  let normalizedFile := normalizeRepositoryPath file
  let graphTests :=
    if provider.isGraphNode normalizedFile then provider.deriveTestsForSources [normalizedFile] else []
  let semanticTests := provider.deriveTestsForModuleIds (provider.semanticTestModules normalizedFile)
  let removedOwnerTests := match provider.removedModuleOwner normalizedFile with
    | none => []
    | some removedOwner => provider.deriveTestsForModuleIds [removedOwner]
  let selected := uniqueSorted (graphTests ++ semanticTests ++ removedOwnerTests)
  ⟨selected.filter isFastTestFile, selected.filter isSlowTestFile, provider.semanticModuleIdsForSource normalizedFile⟩

def selectTestsForSources (files : List Text) : TestImpactSelection where
  fast := uniqueSorted (files.flatMap fun file => (provider.selectionForSource file).fast)
  slow := uniqueSorted (files.flatMap fun file => (provider.selectionForSource file).slow)
  owners := uniqueSorted (files.flatMap fun file => (provider.selectionForSource file).owners)

end TestImpactSourceProvider

/-! ## The affected inventory -/

structure TestImpactSelectionResolution where
  selectionResolved : Bool
  unresolvedModuleFiles : List Text

structure AffectedTestInventory where
  changedFastTests : List Text
  changedSlowTests : List Text
  affectedFastTests : List Text
  affectedSlowTests : List Text
  selectedFastTests : List Text
  selectedSlowTests : List Text
  affectedOwners : List Text
  sourceChanged : Bool
  selectionResolved : Bool
  unresolvedModuleFiles : List Text

def resolveTestImpactSelectionTrustBoundary (provider : TestImpactSourceProvider) : TestImpactSelectionResolution :=
  let unresolvedModuleFiles := provider.buildReverseImportMap.unresolvedModuleFiles
  ⟨unresolvedModuleFiles.isEmpty, uniqueSorted unresolvedModuleFiles⟩

def buildAffectedTestInventory (files : List Text) (provider : TestImpactSourceProvider) : AffectedTestInventory :=
  let changedFastTests := uniqueSorted (files.filter isFastTestFile)
  let changedSlowTests := uniqueSorted (files.filter isSlowTestFile)
  let impactSourceFiles := files.filter provider.isTestImpactSourceFile
  let impact := provider.selectTestsForSources impactSourceFiles
  let graphImpactSourceFiles := impactSourceFiles.filter provider.isTestImpactModuleGraphInputFile
  let resolution :=
    if graphImpactSourceFiles.isEmpty then ⟨true, []⟩ else resolveTestImpactSelectionTrustBoundary provider
  let affectedFastTests := uniqueSorted (impact.fast.filter isFastTestFile)
  let affectedSlowTests := uniqueSorted (impact.slow.filter isSlowTestFile)
  { changedFastTests, changedSlowTests, affectedFastTests, affectedSlowTests
    selectedFastTests := uniqueSorted (changedFastTests ++ affectedFastTests)
    selectedSlowTests := uniqueSorted (changedSlowTests ++ affectedSlowTests)
    affectedOwners := uniqueSorted impact.owners
    sourceChanged := !impactSourceFiles.isEmpty
    selectionResolved := resolution.selectionResolved
    unresolvedModuleFiles := resolution.unresolvedModuleFiles }

/-! ## The trust boundary -/

inductive AffectedSelectionTrustBoundary where
  | applicableNoTests | applicableWithTests | unresolvedSelection | unresolvedModuleGraph | broadFallback
  | unresolvedOwnership | unresolvedGit
  deriving DecidableEq

structure AffectedSelectionClassificationInput where
  gitDiscoveryFailed : Bool
  ownershipResolved : Bool
  sourceChanged : Bool
  selectionResolved : Bool
  unresolvedModuleFiles : List Text
  selectedFastTestCount : Nat
  broadFallbackEnabled : Bool

def classifyAffectedSelectionTrustBoundary (input : AffectedSelectionClassificationInput) :
    AffectedSelectionTrustBoundary :=
  if input.gitDiscoveryFailed then .unresolvedGit
  else if !input.ownershipResolved then .unresolvedOwnership
  else if input.sourceChanged && !input.selectionResolved then
    if input.unresolvedModuleFiles.length > 0 then .unresolvedModuleGraph else .unresolvedSelection
  else if input.sourceChanged && decide (input.selectedFastTestCount = 0) && !input.broadFallbackEnabled then
    .unresolvedSelection
  else if input.broadFallbackEnabled && input.sourceChanged && decide (input.selectedFastTestCount = 0) then
    .broadFallback
  else if input.selectedFastTestCount > 0 then .applicableWithTests
  else .applicableNoTests

end SecPlatform.TestImpact
