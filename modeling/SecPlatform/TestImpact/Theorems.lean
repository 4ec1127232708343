import SecPlatform.TestImpact.Lemmas.Closure

/-!
# Theorems about test impact

The selection for a list of changed files is the union of what each file affects alone. A partial module graph is
noticed exactly when a changed file is itself an input of the graph.
-/

namespace SecPlatform.TestImpact

/-! ## What one file affects -/

namespace TestImpactSourceProvider

variable (provider : TestImpactSourceProvider)

/-- The consumers of a changed file: in the structural map when the file has no declarations. -/
def firstConsumers (file : Text) : List Text :=
  if file ∈ provider.projection.declarationPaths then consumersOf provider.buildReverseImportMap.map file
  else consumersOf provider.buildReverseImportMap.structuralMap file

/-- One later edge: to a consumer in the map that is not a runnable test. -/
def LaterEdge (path consumer : Text) : Prop :=
  consumer ∈ consumersOf provider.buildReverseImportMap.map path ∧ consumer ∉ provider.runnableTestFiles

/-- A runnable test that is reached from the file alone, along consumer edges with no runnable test between. -/
def AffectedBy (file test : Text) : Prop :=
  test ∈ provider.runnableTestFiles ∧ (test ∈ provider.firstConsumers file ∨
    ∃ inner ∈ provider.firstConsumers file, inner ∉ provider.runnableTestFiles ∧
      ∃ last, Relation.ReflTransGen provider.LaterEdge inner last ∧
        test ∈ consumersOf provider.buildReverseImportMap.map last)

variable {provider}

theorem finds_iff_affectedBy {file test : Text} :
    Worklist.Finds (fun path => decide (path ∈ provider.runnableTestFiles)) provider.consumers false
      (file, !decide (file ∈ provider.projection.declarationPaths)) test ↔ provider.AffectedBy file test := by
  have hfirst : provider.consumers (!decide (file ∈ provider.projection.declarationPaths)) file =
      provider.firstConsumers file := by
    by_cases h : file ∈ provider.projection.declarationPaths <;> simp [consumers, firstConsumers, h]
  have hedge : Worklist.LaterEdge (fun path => decide (path ∈ provider.runnableTestFiles)) provider.consumers false =
      provider.LaterEdge := by
    funext a c
    simp [Worklist.LaterEdge, LaterEdge, consumers]
  rw [Worklist.finds_iff, hfirst, hedge]
  simp [AffectedBy, consumers]

/-- The search collects what the files affect one by one. -/
theorem mem_deriveTestsForSources {files : List Text} {test : Text} :
    test ∈ provider.deriveTestsForSources files ↔
      ∃ file ∈ files, provider.AffectedBy (normalizeRepositoryPath file) test := by
  have hrun := (Option.some_get (provider.searchTests_isSome files)).symm
  rw [deriveTestsForSources, mem_uniqueSorted, Worklist.mem_search ?_ ?_ hrun]
  · simp only [queueOf, List.mem_map, exists_exists_and_eq_and]
    exact exists_congr fun file => and_congr_right fun _ => finds_iff_affectedBy
  · intro seed hseed seed' hseed' heq
    obtain ⟨file, -, rfl⟩ := List.mem_map.mp hseed
    obtain ⟨file', -, rfl⟩ := List.mem_map.mp hseed'
    dsimp only at heq ⊢
    rw [heq]
  · intro seed hseed c hc
    obtain ⟨file, -, rfl⟩ := List.mem_map.mp hseed
    by_cases hdeclared : normalizeRepositoryPath file ∈ provider.projection.declarationPaths
    · simpa [buildReverseImportMap, hdeclared] using hc
    · simpa [buildReverseImportMap, hdeclared] using consumers_pruned_subset hdeclared hc

/-- The selection for a list of files, as the closure of each file alone. -/
structure IsClosure (provider : TestImpactSourceProvider) (files : List Text) : Prop where
  terminates : (provider.searchTests files).isSome
  union : ∀ test, test ∈ provider.deriveTestsForSources files ↔
    ∃ file ∈ files, provider.AffectedBy (normalizeRepositoryPath file) test
  /-- Neither the order nor the multiplicity of the files matters. -/
  unordered : ∀ files', (∀ file, file ∈ files ↔ file ∈ files') →
    provider.deriveTestsForSources files = provider.deriveTestsForSources files' ∧
      provider.selectTestsForSources files = provider.selectTestsForSources files'
  /-- More files, such as a file together with others, select no less. -/
  monotone : ∀ files', (∀ file ∈ files, file ∈ files') →
    (∀ test ∈ provider.deriveTestsForSources files, test ∈ provider.deriveTestsForSources files') ∧
      (∀ test ∈ (provider.selectTestsForSources files).fast, test ∈ (provider.selectTestsForSources files').fast) ∧
      ∀ test ∈ (provider.selectTestsForSources files).slow, test ∈ (provider.selectTestsForSources files').slow

theorem mem_of_selected {select : Text → List Text} {files files' : List Text} (h : ∀ file ∈ files, file ∈ files')
    {test : Text} (htest : test ∈ uniqueSorted (files.flatMap select)) : test ∈ uniqueSorted (files'.flatMap select) := by
  rw [mem_uniqueSorted, List.mem_flatMap] at htest ⊢
  obtain ⟨file, hfile, htest⟩ := htest
  exact ⟨file, h file hfile, htest⟩

theorem selected_congr {select : Text → List Text} {files files' : List Text} (h : ∀ file, file ∈ files ↔ file ∈ files') :
    uniqueSorted (files.flatMap select) = uniqueSorted (files'.flatMap select) :=
  uniqueSorted_congr fun test => by simp [h]

theorem deriveTestsForSources_congr {files files' : List Text} (h : ∀ file, file ∈ files ↔ file ∈ files') :
    provider.deriveTestsForSources files = provider.deriveTestsForSources files' := by
  have hmem : ∀ test, test ∈ provider.deriveTestsForSources files ↔ test ∈ provider.deriveTestsForSources files' := by
    intro test
    simp only [mem_deriveTestsForSources, h]
  simp only [deriveTestsForSources, mem_uniqueSorted] at hmem
  exact uniqueSorted_congr hmem

end TestImpactSourceProvider

/-! ## A partial module graph -/

section TrustBoundary

variable {provider : TestImpactSourceProvider} {files : List Text}

/-- The selection of a file reads the reverse module graph: for the file itself, for the modules of its kind, or for
the module that owned it before it was removed. -/
def TraversesGraph (provider : TestImpactSourceProvider) (file : Text) : Prop :=
  let normalizedFile := normalizeRepositoryPath file
  provider.isGraphNode normalizedFile ∨ provider.semanticTestModules normalizedFile ≠ [] ∨
    (provider.removedModuleOwner normalizedFile).isSome

/-- Some changed source file reads the graph, and the graph has unresolved files. -/
def ReadsPartialGraph (provider : TestImpactSourceProvider) (files : List Text) : Prop :=
  (∃ file ∈ files, provider.isTestImpactSourceFile file ∧ TraversesGraph provider file) ∧
    provider.projection.moduleGraph.unresolvedFiles ≠ []

/-- The boundaries that stand for an unresolved selection. -/
def IsUnresolved : AffectedSelectionTrustBoundary → Prop
  | .unresolvedGit | .unresolvedOwnership | .unresolvedSelection | .unresolvedModuleGraph => True
  | .applicableNoTests | .applicableWithTests | .broadFallback => False

/-- The inventory reports the partial graph, and no classification of it is trusted. -/
structure FailsClosed (inventory : AffectedTestInventory) : Prop where
  sourceChanged : inventory.sourceChanged = true
  unresolved : inventory.selectionResolved = false
  classified : ∀ (gitDiscoveryFailed ownershipResolved broadFallbackEnabled : Bool) (selectedFastTestCount : Nat),
    IsUnresolved (classifyAffectedSelectionTrustBoundary
      { gitDiscoveryFailed, ownershipResolved, broadFallbackEnabled, selectedFastTestCount
        sourceChanged := inventory.sourceChanged
        selectionResolved := inventory.selectionResolved
        unresolvedModuleFiles := inventory.unresolvedModuleFiles })

theorem isUnresolved_classify {input : AffectedSelectionClassificationInput} (hchanged : input.sourceChanged = true)
    (hunresolved : input.selectionResolved = false) : IsUnresolved (classifyAffectedSelectionTrustBoundary input) := by
  unfold classifyAffectedSelectionTrustBoundary
  rw [hchanged, hunresolved]
  cases input.gitDiscoveryFailed
  · cases input.ownershipResolved
    · trivial
    · by_cases hfiles : input.unresolvedModuleFiles.length > 0
      · simp [hfiles, IsUnresolved]
      · simp [hfiles, IsUnresolved]
  · trivial

/-- The selection counts as resolved when no changed source file is an input of the graph. -/
theorem selectionResolved_eq_false : (buildAffectedTestInventory files provider).selectionResolved = false ↔
    (∃ file ∈ files, provider.isTestImpactSourceFile file ∧ provider.isTestImpactModuleGraphInputFile file) ∧
      provider.projection.moduleGraph.unresolvedFiles ≠ [] := by
  have hinputs : ((files.filter provider.isTestImpactSourceFile).filter
      provider.isTestImpactModuleGraphInputFile).isEmpty = false ↔
      ∃ file ∈ files, provider.isTestImpactSourceFile file ∧ provider.isTestImpactModuleGraphInputFile file := by
    rw [List.isEmpty_eq_false_iff_exists_mem]
    simp only [List.mem_filter, and_assoc]
  have hunresolved : (resolveTestImpactSelectionTrustBoundary provider).selectionResolved = false ↔
      provider.projection.moduleGraph.unresolvedFiles ≠ [] := by
    simp [resolveTestImpactSelectionTrustBoundary, TestImpactSourceProvider.buildReverseImportMap]
  rw [← hinputs, ← hunresolved, buildAffectedTestInventory]
  dsimp only
  split <;> simp_all

/-- For every issued provider and every list of changed files, a partial graph that is read is reported exactly when
some changed source file is an input of the graph. -/
theorem failsClosed_iff (provider : TestImpactSourceProvider) (files : List Text) :
    (ReadsPartialGraph provider files → FailsClosed (buildAffectedTestInventory files provider)) ↔
      (ReadsPartialGraph provider files →
        ∃ file ∈ files, provider.isTestImpactSourceFile file ∧ provider.isTestImpactModuleGraphInputFile file) := by
  refine forall_congr' fun hreads => ⟨fun hcloses => (selectionResolved_eq_false.mp hcloses.unresolved).1, fun hinput => ?_⟩
  obtain ⟨⟨file, hfile, hsource, -⟩, hpartial⟩ := hreads
  have hchanged : (buildAffectedTestInventory files provider).sourceChanged = true := by
    rw [buildAffectedTestInventory, Bool.not_eq_true', List.isEmpty_eq_false_iff_exists_mem]
    exact ⟨file, List.mem_filter.mpr ⟨hfile, hsource⟩⟩
  have hunresolved := selectionResolved_eq_false.mpr ⟨hinput, hpartial⟩
  exact ⟨hchanged, hunresolved, fun _ _ _ _ => isUnresolved_classify hchanged hunresolved⟩

/-! ### An example -/

/-- A compiler with one module and its test; a third file has an import that was not resolved. -/
def partialProjection : IssuedTestImpactProjection where
  workspaceSnapshotIdentityDigest := "sha256:w"
  snapshotDigest := "sha256:s"
  files := [⟨"src/broken.ts", none, .production⟩, ⟨"src/compiler/build.test.ts", some "compiler", .test⟩,
    ⟨"src/compiler/build.ts", some "compiler", .production⟩]
  moduleOwners := [⟨"compiler", "src/compiler"⟩]
  entrypoints := []
  observedTestConsumers := []
  declarationPaths := ["src/compiler/build.ts"]
  moduleGraph := {
    files := ["src/broken.ts", "src/compiler/build.test.ts", "src/compiler/build.ts"]
    references := [⟨"src/compiler/build.test.ts", .static, false, "./build.ts", ["src/compiler/build.ts"],
      some "src/compiler/build.ts"⟩]
    unresolvedFiles := ["src/broken.ts"] }
  testFiles := ["src/compiler/build.test.ts"]
  semanticReferences := [⟨"src/compiler/build.test.ts", some "./build.ts", some "src/compiler/build.ts", true⟩]
  lowered := by
    intro reference hreference target htarget
    obtain rfl := List.mem_singleton.mp hreference
    obtain rfl := Option.some.inj htarget
    exact .inr (.inl List.mem_cons_self)

def partialProvider : TestImpactSourceProvider :=
  ⟨partialProjection, ⟨"sha256:w", "sha256:s", ["src/compiler/build.test.ts"]⟩, [], none⟩

/-- The package manifest is changed: the tests of the compiler are derived from the partial graph, and the inventory
calls the selection resolved. -/
theorem not_failsClosed_package_json : ReadsPartialGraph partialProvider ["package.json"] ∧
    ¬FailsClosed (buildAffectedTestInventory ["package.json"] partialProvider) ∧
    classifyAffectedSelectionTrustBoundary {
      gitDiscoveryFailed := false
      ownershipResolved := true
      broadFallbackEnabled := false
      sourceChanged := (buildAffectedTestInventory ["package.json"] partialProvider).sourceChanged
      selectionResolved := (buildAffectedTestInventory ["package.json"] partialProvider).selectionResolved
      unresolvedModuleFiles := (buildAffectedTestInventory ["package.json"] partialProvider).unresolvedModuleFiles
      selectedFastTestCount := (buildAffectedTestInventory ["package.json"] partialProvider).selectedFastTests.length } =
        .applicableWithTests := by
  have hsource : partialProvider.isTestImpactSourceFile (Text.ofString "package.json") = true := by decide
  have hmodules : partialProvider.semanticTestModules (normalizeRepositoryPath (Text.ofString "package.json")) ≠ [] := by
    decide
  have hresolved : (buildAffectedTestInventory ["package.json"] partialProvider).selectionResolved = true := by
    decide
  refine ⟨⟨⟨_, List.mem_cons_self, hsource, .inr (.inl hmodules)⟩, List.cons_ne_nil _ _⟩, fun hcloses => ?_, ?_⟩
  · rw [hcloses.unresolved] at hresolved
    cases hresolved
  · decide +kernel

end TrustBoundary

end SecPlatform.TestImpact
