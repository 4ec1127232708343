import SecPlatform.Contracts.LogicalPath
import SecPlatform.Library.Except
import SecPlatform.Library.OrderedMap
import SecPlatform.Library.Sorting

/-!
# Paths of the test impact

The repository paths that test impact reads: which of them are test modules, which of those are slow, and of what
kind a changed source is. A changed source that is not code belongs to the modules of its kind.
-/

namespace SecPlatform.TestImpact

open Contracts

/-- The portable spelling of a repository path. -/
def normalizeRepositoryPath (value : Text) : Text := normalizeSecRepositoryTestModulePath value

/-! ## Fast and slow tests -/

def e2eTestFile (name : Text) : Text := Text.ofString "tests/e2e/" ++ name ++ Text.ofString ".test.ts"

/-- The files of the suites that are given by their paths. -/
def slowPathSuiteFiles : List Text :=
  ["tests/unit/content-hash-provider-boundary.test.ts",
    "src/adapters/providers/git-bundle/runtime-scale.test.ts",
    "src/adapters/providers/git/ref-effect-scale.test.ts",
    "tests/integration/typescript-native-package-layout.test.ts",
    "tests/contract/typecheck-provider-native.test.ts",
    "tests/contract/ci-lanes.test.ts",
    "tests/contract/ci-trust-closure-contract.test.ts",
    "tests/unit/slow-test-selection.test.ts",
    "tests/unit/verification-session-runtime.test.ts",
    "src/adapters/repository/source-program-model/workspace-source-snapshot.test.ts",
    "src/adapters/toolchain/dependencies/test/compiler-dependency-fixture.test.ts",
    "tests/unit/dev-runner-dependency-bootstrap.test.ts",
    "tests/unit/branch-local-residue-closeout.test.ts",
    "tests/integration/semantic-mutation-apply.test.ts",
    "tests/unit/dependency-rollover-capacity.test.ts",
    "tests/integration/release-set-portable.test.ts",
    "tests/integration/validation.test.ts",
    "tests/integration/project-dependency-runtime.test.ts",
    "tests/contract/document-control-plane-lifecycle.test.ts",
    "tests/unit/worktree-physical-closeout-crash-recovery.test.ts",
    "tests/unit/worktree-physical-closeout-temp-repo.test.ts"]

/-- The names of the suites that are end-to-end files. -/
def slowFileSuiteNames : List Text :=
  ["artifacts", "demo-doctor", "dry-run-plan", "end-to-end", "expanded-blocks", "explain", "graph",
    "import-organizer-staged", "import-organizer-worktree-isolation", "install-git-hooks",
    "install-git-hooks-occupied-lineage", "install-git-hooks-link-boundaries", "install-git-hooks-source-races",
    "install-git-hooks-capacity", "install-git-hooks-capacity-retirement", "install-git-hooks-marker-digest",
    "install-git-hooks-configured-path", "install-git-hooks-execution-sources",
    "install-git-hooks-transition-interruption", "install-git-hooks-transition-settlement",
    "install-git-hooks-recovery-inventory", "install-git-hooks-lease-actor", "install-git-hooks-actor-races",
    "install-git-hooks-config-fencing", "install-git-hooks-ambient-budget",
    "install-git-hooks-lifecycle-bootstrap", "install-git-hooks-bootstrap-lineage",
    "install-git-hooks-bootstrap-tracking", "install-git-hooks-bootstrap-remote-lineage", "lanes", "manifest",
    "pipeline", "policy", "prisma-merge", "private-registry", "registry", "repair", "summary",
    "semantic-runtime-contract", "upgrade", "verification", "windows-appcontainer-executor", "workspace"]

/-- The files of the slow suites: the keys of `slowTestSuiteIndex.idsByFile`. -/
def slowTestSuiteFiles : List Text := slowPathSuiteFiles ++ slowFileSuiteNames.map e2eTestFile

def isSlowTestFile (file : Text) : Bool :=
  let normalized := normalizeSecRepositoryTestModulePath file
  isSecRepositoryTestModulePath normalized &&
    (normalized ∈ slowTestSuiteFiles || Text.ofString "tests/e2e/" <+: normalized)

def isFastTestFile (file : Text) : Bool := isSecRepositoryTestModulePath file && !isSlowTestFile file

/-! ## Kinds of sources -/

inductive TestImpactSourceKind where
  | typescript | manifest | semanticContract | sourceModel | workflow | gitHook | activeDocumentation | agentSkill
  | agentRole | repositoryConfig
  deriving DecidableEq

/-- `TEST_IMPACT_SOURCE_KIND_MODULES`; code joins the graph through its own imports. -/
def TEST_IMPACT_SOURCE_KIND_MODULES : TestImpactSourceKind → List Text
  | .activeDocumentation => ["adapters.self-hosting.control.documentation"]
  | .agentSkill => ["adapters.self-hosting.control.agent"]
  | .agentRole => ["adapters.self-hosting.control.agent"]
  | .manifest => ["compiler.registry", "compiler", "adapters.workspace", "semantics.definitions"]
  | .semanticContract => ["semantics.definitions", "compiler", "adapters.workspace"]
  | .sourceModel => ["semantics.definitions", "compiler", "adapters.workspace"]
  | .workflow => ["assurance", "adapters.verification", "adapters.verification.platform.ci"]
  | .gitHook => ["adapters.self-hosting.development.hooks"]
  | .repositoryConfig => ["adapters.self-hosting.development.runner", "adapters.toolchain", "compiler"]
  | .typescript => []

def testImpactModuleIdsForSourceKind : Option TestImpactSourceKind → List Text
  | none => []
  | some kind => TEST_IMPACT_SOURCE_KIND_MODULES kind

/-- The path ends with one of the suffixes, after something without a slash when `stem` asks for it. -/
def endsWithAny (suffixes : List Text) (segment : Text) (stem : Bool) : Bool :=
  suffixes.any fun suffix => suffix <:+ segment ∧ (stem → suffix.length < segment.length)

def yamlExtensions : List Text := [".yaml", ".yml"]

def classifyTestImpactSource (file : Text) (activeDocumentationPath gitHookEntrypointPath : Text → Bool) :
    Option TestImpactSourceKind :=
  let segments := Text.splitAt (unit '/') file
  let last := segments.getLastD []
  if activeDocumentationPath file then some .activeDocumentation
  else if gitHookEntrypointPath file then some .gitHook
  -- `/^\.agents\/skills\/[^/]+\/SKILL\.md$/u`
  else if segments.length = 4 ∧ segments[0]? = some (Text.ofString ".agents") ∧
      segments[1]? = some (Text.ofString "skills") ∧ segments[2]? ≠ some [] ∧
      segments[3]? = some (Text.ofString "SKILL.md") then some .agentSkill
  -- `/^\.codex\/agents\/[^/]+\.toml$/u`
  else if segments.length = 3 ∧ segments[0]? = some (Text.ofString ".codex") ∧
      segments[1]? = some (Text.ofString "agents") ∧ endsWithAny [".toml"] last true then some .agentRole
  else if Text.ofString "docs/" <+: file then none
  -- `/(?:^|\/)contracts\/[^/]+\.ya?ml$/u`
  else if segments.dropLast.getLast? = some (Text.ofString "contracts") ∧ endsWithAny yamlExtensions last true then
    some .semanticContract
  -- `/(?:^|\/)(?:block\.)?manifest\.ya?ml$/u` or `/(?:^|\/)[^/]+\.manifest\.ya?ml$/u`
  else if last ∈ (["manifest.yaml", "manifest.yml", "block.manifest.yaml", "block.manifest.yml"] : List Text) ∨
      endsWithAny [".manifest.yaml", ".manifest.yml"] last true then some .manifest
  else if Text.ofString "source/" <+: file then some .sourceModel
  -- `/\.[cm]?tsx?$/u`
  else if endsWithAny [".ts", ".tsx", ".cts", ".ctsx", ".mts", ".mtsx"] file false then some .typescript
  -- `/^\.github\/workflows\/[^/]+\.ya?ml$/u`
  else if segments.length = 3 ∧ segments[0]? = some (Text.ofString ".github") ∧
      segments[1]? = some (Text.ofString "workflows") ∧ endsWithAny yamlExtensions last true then some .workflow
  else if file = Text.ofString "package.json" ∨ file = Text.ofString "bun.lock" then some .repositoryConfig
  else none

/-!
## The projection of a source program for test impact

What the compiler of a source program issues to test impact: its files and their owners, the module graph, and the
references between files that the compiler resolved. A provider joins one projection with the paths of the active
documentation and, where the changes come from a Git transition, with the paths that it removed.
-/

/-! ### Records -/

inductive SourceProgramSurface where
  | production | test | fixture | workflow | resource
  deriving DecidableEq

structure ProjectedFile where
  path : Text
  moduleId : Option Text
  surface : SourceProgramSurface

structure ModuleOwner where
  moduleId : Text
  root : Text

inductive RepositoryModuleImportKind where
  | static | dynamic | require
  deriving DecidableEq

/-- One import of a module: every path it could mean, and the one that exists. -/
structure ModuleReference where
  «from» : Text
  kind : RepositoryModuleImportKind
  typeOnly : Bool
  specifier : Text
  candidateTargets : List Text
  resolvedTarget : Option Text

structure ModuleGraph where
  files : List Text
  references : List ModuleReference
  unresolvedFiles : List Text

/-- One use of a name in a file, with the file it leads to. -/
structure SemanticReference where
  path : Text
  moduleSpecifier : Option Text
  targetPath : Option Text
  precise : Bool

inductive SourceProgramEntrypointKind where
  | packageScript | packageBin | cliCommand | moduleEntrypoint | gitHook | workflow
  deriving DecidableEq

structure Entrypoint where
  path : Text
  targetPaths : List Text
  kind : SourceProgramEntrypointKind

structure ObservedTestConsumer where
  targetPath : Text
  testPath : Text

structure TestImpactProjection where
  workspaceSnapshotIdentityDigest : Text
  snapshotDigest : Text
  files : List ProjectedFile
  moduleOwners : List ModuleOwner
  entrypoints : List Entrypoint
  observedTestConsumers : List ObservedTestConsumer
  declarationPaths : List Text
  moduleGraph : ModuleGraph
  testFiles : List Text
  semanticReferences : List SemanticReference

/-- A projection that the compiler issued. A reference gets its target from the declaration it resolves to, or, where
there is none, from a relative import of its file; and the module graph has every import of the file, with the same
candidates. -/
structure IssuedTestImpactProjection extends TestImpactProjection where
  lowered : ∀ reference ∈ semanticReferences, ∀ target, reference.targetPath = some target →
    target = reference.path ∨ target ∈ declarationPaths ∨
      ∃ importing ∈ moduleGraph.references, importing.from = reference.path ∧ target ∈ importing.candidateTargets

structure IssuedTestInventoryProjection where
  workspaceSnapshotIdentityDigest : Text
  snapshotDigest : Text
  testFiles : List Text

/-- What is bound to the changes of one Git transition. -/
structure AffectedBindingRecord where
  /-- `transition.removedPathBlobs`, by path. -/
  removedPaths : List Text
  descriptorChangeRoots : List Text

/-! ### Providers -/

structure TestImpactSourceProvider where
  projection : IssuedTestImpactProjection
  testInventory : IssuedTestInventoryProjection
  activeDocumentationPaths : List Text
  affected : Option AffectedBindingRecord

inductive ProviderFailure where
  | testInventoryMismatch
  | projectionTestModuleMissing (testPath : Text)

/-- `affected` is the binding of the affected source, which is issued for this same projection. -/
def createRepositoryTestImpactSourceProvider (projection : IssuedTestImpactProjection)
    (testInventory : IssuedTestInventoryProjection) (activeDocumentationPaths : List Text)
    (affected : Option AffectedBindingRecord) : Except ProviderFailure TestImpactSourceProvider := do
  require (testInventory.workspaceSnapshotIdentityDigest = projection.workspaceSnapshotIdentityDigest ∧
    testInventory.snapshotDigest = projection.snapshotDigest ∧
    ∀ path ∈ projection.testFiles, isSecRepositoryTestModulePath path → path ∈ testInventory.testFiles)
    .testInventoryMismatch
  match projection.testFiles.find? fun testFile => testFile ∉ projection.moduleGraph.files with
  | some testPath => throw (.projectionTestModuleMissing testPath)
  | none => return ⟨projection, testInventory, uniqueSorted (activeDocumentationPaths.map normalizeRepositoryPath), affected⟩

/-! ### The index of a provider -/

/-- The path is the root or lies below it. -/
def withinRoot (path root : Text) : Bool := path = root || (root ++ Text.ofString "/") <+: path

/-- The owners with the longest root first. -/
def byDescendingRoot (owners : List ModuleOwner) : List ModuleOwner :=
  sortBy (fun owner => OrderDual.toDual owner.root.length) owners

namespace TestImpactSourceProvider

variable (provider : TestImpactSourceProvider)

def gitHookEntrypointPaths : List Text :=
  (provider.projection.entrypoints.filter (·.kind = .gitHook)).map (·.path)

/-- `index.moduleIds`: the module of a projected file; the file may have none. -/
def moduleIds : OrderedMap Text (Option Text) :=
  .ofList (provider.projection.files.map fun file => (file.path, file.moduleId))

/-- `moduleIds.get(path) ?? null`. -/
def moduleIdOf (path : Text) : Option Text := (provider.moduleIds.get? path).join

/-- `index.candidateOwners`: the one module whose files import the path. -/
def candidateOwner (candidate : Text) : Option Text :=
  let importing := provider.projection.moduleGraph.references.filter fun reference => candidate ∈ reference.candidateTargets
  match (importing.filterMap fun reference => provider.moduleIdOf reference.from).dedup with
  | [owner] => some owner
  | _ => none

def moduleGraphInputs : List Text :=
  provider.projection.moduleGraph.files ++ provider.projection.moduleGraph.references.flatMap (·.candidateTargets)

def removedPathSet : List Text := (provider.affected.map (·.removedPaths)).getD []

def descriptorRootsChanged : List Text := (provider.affected.map (·.descriptorChangeRoots)).getD []

/-- `index.removedModuleOwners`: the module with the longest root above a removed path. -/
def removedModuleOwner (removedPath : Text) : Option Text :=
  if removedPath ∉ provider.removedPathSet then none
  else if provider.descriptorRootsChanged.any fun root => root = [] || withinRoot removedPath root then none
  else match byDescendingRoot (provider.projection.moduleOwners.filter fun owner => withinRoot removedPath owner.root) with
    | [] => none
    | [owner] => some owner.moduleId
    | owner :: next :: _ => if owner.root.length > next.root.length then some owner.moduleId else none

/-- `index.candidateOwners.get(path) ?? index.removedModuleOwners.get(path) ?? null`. -/
def projectedCandidate (path : Text) : Option Text :=
  (provider.candidateOwner path).or (provider.removedModuleOwner path)

/-- The modules with the longest root that contains the path. -/
def longestOwners (path : Text) : List Text :=
  let containing := byDescendingRoot (provider.projection.moduleOwners.filter fun owner =>
    owner.root = [] || withinRoot path owner.root)
  match containing with
  | [] => []
  | longest :: _ => uniqueSorted ((containing.filter (·.root.length = longest.root.length)).map (·.moduleId))

def moduleIdForPath (file : Text) : Option Text :=
  let repositoryPath := normalizeRepositoryPath file
  match provider.moduleIdOf repositoryPath with
  | some direct => some direct
  | none =>
      match provider.projectedCandidate repositoryPath with
      | some candidate => some candidate
      | none =>
          if !provider.moduleIds.has repositoryPath && !decide (Text.ofString "/module.json" <:+ repositoryPath) then none
          else match provider.longestOwners repositoryPath with
            | [owner] => some owner
            | _ => none

def classifyProviderSource (file : Text) : Option TestImpactSourceKind :=
  classifyTestImpactSource file (fun candidate => candidate ∈ provider.activeDocumentationPaths)
    (fun candidate => candidate ∈ provider.gitHookEntrypointPaths)

def semanticModuleIdsForSource (file : Text) : List Text :=
  uniqueSorted ((provider.moduleIdForPath file).toList ++
    testImpactModuleIdsForSourceKind (provider.classifyProviderSource file))

def isTestImpactModuleGraphInputFile (file : Text) : Bool :=
  let normalized := normalizeRepositoryPath file
  !isSecRepositoryTestModulePath normalized && normalized ∈ provider.moduleGraphInputs

end TestImpactSourceProvider

end SecPlatform.TestImpact
