import SecPlatform.Assurance.AcceptanceCoverage

/-!
# The stages of acceptance coverage

What the declarations of a source say, regardless of their order: which items they declare, on what these depend and
which blocks they are declared for. Every stage of the computation is characterised by it.
-/

namespace SecPlatform.Assurance

open Contracts Semantics

/-! ## What the declarations say -/

section Declarations

variable (source : AcceptanceCoverageSource)

def Declared (id : Text) : Prop := ∃ declaration ∈ source.declarations, declaration.acceptance.id = id

/-- Some declaration of the first item names the second as a dependency. -/
def DependsOn (id dependency : Text) : Prop :=
  ∃ declaration ∈ source.declarations, declaration.acceptance.id = id ∧
    dependency ∈ declaration.acceptance.dependsOn.getD []

/-- The blocks that a declaration covers: its own unless it names others. -/
def coveredBlocks (declaration : AcceptanceSource) : List Text :=
  (declaration.acceptance.covers.bind (·.blocks)).getD [declaration.declaringBlockId]

def DeclaredFor (blockId id : Text) : Prop :=
  ∃ declaration ∈ source.declarations, declaration.acceptance.id = id ∧ blockId ∈ coveredBlocks declaration

/-- Every dependency is declared. -/
def IsClosed : Prop := ∀ id dependency, DependsOn source id dependency → Declared source dependency

def IsAcyclic : Prop := ∀ id, ¬Relation.TransGen (DependsOn source) id id

end Declarations

/-! ## Definitions -/

section Definitions

variable {targets : List AcceptanceCoverageTarget} {definitions : AcceptanceDefinitions} {a b : Text}

theorem mem_dependsOnOf_mergeTarget {target : AcceptanceCoverageTarget} :
    b ∈ dependsOnOf (mergeTarget definitions target) a ↔
      b ∈ dependsOnOf definitions a ∨ (target.id = a ∧ b ∈ target.acceptance.dependsOn.getD []) := by
  by_cases h : target.id = a
  · subst h
    simp [dependsOnOf, mergeTarget]
  · simp [dependsOnOf, mergeTarget, OrderedMap.get?_set_of_ne _ _ h, h]

theorem mem_dependsOnOf_foldl : b ∈ dependsOnOf (targets.foldl mergeTarget definitions) a ↔
    b ∈ dependsOnOf definitions a ∨
      ∃ target ∈ targets, target.id = a ∧ b ∈ target.acceptance.dependsOn.getD [] := by
  induction targets generalizing definitions with
  | nil => simp
  | cons target targets ih =>
      rw [List.foldl_cons, ih, mem_dependsOnOf_mergeTarget, List.exists_mem_cons_iff, or_assoc]

theorem mem_keys_mergeTargets : a ∈ (mergeTargets targets).keys ↔ ∃ target ∈ targets, target.id = a := by
  have hstep : ∀ (definitions : AcceptanceDefinitions) (target : AcceptanceCoverageTarget) (key : Text),
      key ∈ (mergeTarget definitions target).keys ↔ target.id = key ∨ key ∈ definitions.keys := by
    intro definitions target key
    rw [mergeTarget, OrderedMap.mem_keys_set, eq_comm]
  rw [mergeTargets, OrderedMap.mem_keys_foldl hstep]
  simp

variable {source : AcceptanceCoverageSource}

theorem mem_keys_definitions : a ∈ (mergeTargets (targetsOf source)).keys ↔ Declared source a := by
  simp [mem_keys_mergeTargets, targetsOf, Declared]

theorem mem_dependsOnOf : b ∈ dependsOnOf (mergeTargets (targetsOf source)) a ↔ DependsOn source a b := by
  rw [mergeTargets, mem_dependsOnOf_foldl]
  simp [targetsOf, DependsOn, dependsOnOf]

theorem depends_eq : DependencySearch.Depends (dependsOnOf (mergeTargets (targetsOf source))) = DependsOn source := by
  funext a b
  exact propext mem_dependsOnOf

/-- What a declared item depends on is listed in its definition. -/
theorem mem_entries_definitions {entry : Text × AcceptanceDefinition} (h : entry ∈ definitions.entries) :
    entry.2.dependsOn = dependsOnOf definitions entry.1 := by
  rw [dependsOnOf, OrderedMap.get?_eq_some.mpr h]
  rfl

theorem declared_of_dependsOn (h : DependsOn source a b) : Declared source a := by
  obtain ⟨declaration, hmem, hid, -⟩ := h
  exact ⟨declaration, hmem, hid⟩

theorem closed_iff :
    DependencySearch.Closed (dependsOnOf (mergeTargets (targetsOf source))) (mergeTargets (targetsOf source)).keys ↔
      IsClosed source := by
  simp only [DependencySearch.Closed, mem_keys_definitions, mem_dependsOnOf]
  exact ⟨fun h a b hab => h a (declared_of_dependsOn hab) b hab, fun h a _ b hab => h a b hab⟩

theorem acyclic_iff :
    DependencySearch.Acyclic (dependsOnOf (mergeTargets (targetsOf source))) (mergeTargets (targetsOf source)).keys ↔
      IsAcyclic source := by
  simp only [DependencySearch.Acyclic, mem_keys_definitions, depends_eq]
  refine ⟨fun h a hcycle => ?_, fun h a _ => h a⟩
  obtain ⟨b, hab, -⟩ := Relation.TransGen.head'_iff.mp hcycle
  exact h a (declared_of_dependsOn hab) hcycle

theorem buildAcceptanceDefinitions_eq_ok :
    buildAcceptanceDefinitions (targetsOf source) = .ok definitions ↔
      IsClosed source ∧ definitions = mergeTargets (targetsOf source) := by
  rw [buildAcceptanceDefinitions, check_bind_eq_ok, forM_eq_ok, ← closed_iff]
  simp only [forM_eq_ok, checkDependency, require_eq_ok, pure_eq_ok, Except.ok.injEq]
  refine and_congr ⟨fun h a ha b hb => ?_, fun h entry hentry b hb => ?_⟩ eq_comm
  · obtain ⟨definition, hdefinition⟩ := OrderedMap.mem_keys.mp ha
    have hentry := OrderedMap.get?_eq_some.mp hdefinition
    exact OrderedMap.has_iff.mp (h _ hentry b (mem_entries_definitions hentry ▸ hb))
  · rw [mem_entries_definitions hentry] at hb
    exact OrderedMap.has_iff.mpr (h entry.1 (List.mem_map_of_mem hentry) b hb)

/-- Merging fails only at a dependency that is not declared. -/
theorem buildAcceptanceDefinitions_eq_error {failure : AcceptanceCoverageFailure}
    (h : buildAcceptanceDefinitions (targetsOf source) = .error failure) :
    ∃ a b, failure = .undeclaredDependency a b := by
  rcases bind_eq_error.mp h with h | ⟨_, -, h⟩
  · obtain ⟨entry, -, h⟩ := exists_of_forM_error h
    obtain ⟨b, -, h⟩ := exists_of_forM_error h
    exact ⟨entry.1, b, (require_eq_error.mp h).2.symm⟩
  · cases h

theorem assertAcceptanceDependencyAcyclic_succeeds (hclosed : IsClosed source) :
    assertAcceptanceDependencyAcyclic (mergeTargets (targetsOf source)) = .ok () ↔ IsAcyclic source := by
  rw [← acyclic_iff, ← DependencySearch.visitAll_succeeds_iff (closed_iff.mpr hclosed) (Nat.lt_succ_self _),
    assertAcceptanceDependencyAcyclic, map_eq_ok]
  simp [mapError_eq_ok, Succeeds, nestingBound]

theorem assertAcceptanceDependencyAcyclic_error (hclosed : IsClosed source) {failure : AcceptanceCoverageFailure}
    (h : assertAcceptanceDependencyAcyclic (mergeTargets (targetsOf source)) = .error failure) :
    ∃ cycle, failure = .dependencyCycle cycle := by
  obtain ⟨search, hsearch, rfl⟩ := mapError_eq_error.mp (map_eq_error.mp h)
  obtain ⟨⟨path, rfl⟩, -⟩ := DependencySearch.visitAll_error (closed_iff.mpr hclosed) (Nat.lt_succ_self _) hsearch
  exact ⟨path, rfl⟩

end Definitions

/-! ## The target index -/

section Index

variable {source : AcceptanceCoverageSource} {resolved : List Text}

/-- The blocks of all targets, each with its target. -/
def blockPairs (targets : List AcceptanceCoverageTarget) : List (AcceptanceCoverageTarget × Text) :=
  targets.flatMap fun target => (acceptanceBlockTargets target).map fun blockId => (target, blockId)

/-- The index without the check of the blocks. -/
def indexPair (index : AcceptanceTargetIndex) (pair : AcceptanceCoverageTarget × Text) : AcceptanceTargetIndex :=
  ⟨index.participation.addTo pair.1.id (Text.ofString "block:" ++ pair.2), index.byBlock.addTo pair.2 pair.1.id⟩

theorem foldlM_indexTargetBlock {target : AcceptanceCoverageTarget} {blockIds : List Text} (index : AcceptanceTargetIndex)
    (h : ∀ blockId ∈ blockIds, blockId ∈ resolved) : blockIds.foldlM (indexTargetBlock resolved target) index =
      .ok ((blockIds.map fun blockId => (target, blockId)).foldl indexPair index) := by
  induction blockIds generalizing index with
  | nil => rfl
  | cons blockId blockIds ih =>
      rw [List.forall_mem_cons] at h
      rw [List.foldlM_cons, indexTargetBlock, if_neg (not_not_intro h.1), ok_bind, ih _ h.2]
      rfl

theorem buildCoverageTargetIndex_eq {targets : List AcceptanceCoverageTarget}
    (h : ∀ target ∈ targets, ∀ blockId ∈ acceptanceBlockTargets target, blockId ∈ resolved) :
    buildCoverageTargetIndex targets resolved = .ok ((blockPairs targets).foldl indexPair ⟨.empty, .empty⟩) := by
  refine foldlM_eq_flatMap (fun target htarget index => ?_) _
  exact foldlM_indexTargetBlock index (h target htarget)

theorem foldl_indexPair (pairs : List (AcceptanceCoverageTarget × Text)) (index : AcceptanceTargetIndex) :
    pairs.foldl indexPair index =
      ⟨index.participation.addAllTo (pairs.map fun pair => (pair.1.id, Text.ofString "block:" ++ pair.2)),
        index.byBlock.addAllTo (pairs.map fun pair => (pair.2, pair.1.id))⟩ := by
  induction pairs generalizing index with
  | nil => rfl
  | cons pair pairs ih => rw [List.foldl_cons, ih]; rfl

/-- The index of the declarations of a source. -/
def indexOf (source : AcceptanceCoverageSource) : AcceptanceTargetIndex :=
  (blockPairs (targetsOf source)).foldl indexPair ⟨.empty, .empty⟩

/-- Items are declared for resolved blocks only. -/
def IsKnown (source : AcceptanceCoverageSource) : Prop :=
  ∀ blockId id, DeclaredFor source blockId id → blockId ∈ source.resolvedBlockIds

theorem exists_blockPair {blockId id : Text} :
    (∃ pair ∈ blockPairs (targetsOf source), pair.1.id = id ∧ pair.2 = blockId) ↔ DeclaredFor source blockId id := by
  simp only [blockPairs, targetsOf, List.mem_flatMap, List.mem_map, exists_exists_and_eq_and, DeclaredFor]
  constructor
  · rintro ⟨_, ⟨declaration, hmem, block, hblock, rfl⟩, rfl, rfl⟩
    exact ⟨declaration, hmem, rfl, hblock⟩
  · rintro ⟨declaration, hmem, rfl, hblock⟩
    exact ⟨_, ⟨declaration, hmem, blockId, hblock, rfl⟩, rfl, rfl⟩

theorem isKnown_iff : IsKnown source ↔
    ∀ target ∈ targetsOf source, ∀ blockId ∈ acceptanceBlockTargets target, blockId ∈ source.resolvedBlockIds := by
  simp only [targetsOf, List.forall_mem_map]
  constructor
  · exact fun h declaration hmem blockId hblock => h blockId _ ⟨declaration, hmem, rfl, hblock⟩
  · rintro h blockId id ⟨declaration, hmem, -, hblock⟩
    exact h declaration hmem blockId hblock

theorem mem_resolved_of_foldlM {target : AcceptanceCoverageTarget} {blockIds : List Text}
    {index index' : AcceptanceTargetIndex} (h : blockIds.foldlM (indexTargetBlock resolved target) index = .ok index') :
    ∀ blockId ∈ blockIds, blockId ∈ resolved := by
  refine foldlM_rule (P := fun blockIds _ => ∀ blockId ∈ blockIds, blockId ∈ resolved) ?_ (by simp) h
  intro blockIds index blockId index' hresolved hstep other hother
  rcases List.mem_append.mp hother with hother | hother
  · exact hresolved other hother
  · rw [List.mem_singleton.mp hother]
    by_contra hnot
    rw [indexTargetBlock, if_pos hnot] at hstep
    cases hstep

theorem buildCoverageTargetIndex_eq_ok {index : AcceptanceTargetIndex} :
    buildCoverageTargetIndex (targetsOf source) source.resolvedBlockIds = .ok index ↔
      IsKnown source ∧ index = indexOf source := by
  constructor
  · intro h
    have hknown : IsKnown source := by
      refine isKnown_iff.mpr (foldlM_rule (P := fun targets _ => ∀ target ∈ targets,
        ∀ blockId ∈ acceptanceBlockTargets target, blockId ∈ source.resolvedBlockIds) ?_ (by simp) h)
      intro targets index target index' hresolved hstep other hother
      rcases List.mem_append.mp hother with hother | hother
      · exact hresolved other hother
      · rw [List.mem_singleton.mp hother]
        exact mem_resolved_of_foldlM hstep
    rw [buildCoverageTargetIndex_eq (isKnown_iff.mp hknown)] at h
    cases h
    exact ⟨hknown, rfl⟩
  · rintro ⟨hknown, rfl⟩
    exact buildCoverageTargetIndex_eq (isKnown_iff.mp hknown)

theorem mem_byBlock {blockId id : Text} :
    id ∈ (indexOf source).byBlock.valuesAt blockId ↔ DeclaredFor source blockId id := by
  rw [indexOf, foldl_indexPair, OrderedMap.mem_valuesAt_addAllTo, ← exists_blockPair]
  simp [and_comm]

theorem mem_declaredAcceptance {blockId id : Text} :
    id ∈ (indexOf source).declaredAcceptance blockId ↔ DeclaredFor source blockId id := by
  rw [AcceptanceTargetIndex.declaredAcceptance, mem_uniqueSorted, mem_byBlock]

theorem participates_iff {id : Text} :
    ((indexOf source).participation.valuesAt id).length ≠ 0 ↔ ∃ blockId, DeclaredFor source blockId id := by
  rw [Nat.ne_zero_iff_zero_lt, List.length_pos_iff_exists_mem, indexOf, foldl_indexPair]
  simp only [OrderedMap.mem_valuesAt_addAllTo, OrderedMap.valuesAt_empty, List.not_mem_nil, false_or, List.mem_map,
    Prod.mk.injEq, ← exists_blockPair]
  constructor
  · rintro ⟨_, pair, hpair, hid, -⟩
    exact ⟨pair.2, pair, hpair, hid, rfl⟩
  · rintro ⟨_, pair, hpair, hid, -⟩
    exact ⟨_, pair, hpair, hid, rfl⟩

theorem declared_of_declaredFor {blockId id : Text} (h : DeclaredFor source blockId id) : Declared source id := by
  obtain ⟨declaration, hmem, hid, -⟩ := h
  exact ⟨declaration, hmem, hid⟩

/-- Every planned item is declared, and for some block. -/
def IsPlanned (source : AcceptanceCoverageSource) : Prop :=
  ∀ id ∈ source.acceptancePlan, ∃ blockId, DeclaredFor source blockId id

theorem checkPlanned_eq_ok : source.acceptancePlan.forM (checkPlanned (mergeTargets (targetsOf source)) (indexOf source)) =
    .ok () ↔ IsPlanned source := by
  rw [forM_eq_ok]
  refine forall₂_congr fun id _ => ?_
  rw [checkPlanned, check_bind_eq_ok, require_eq_ok, require_eq_ok, participates_iff, OrderedMap.has_iff,
    mem_keys_definitions]
  exact and_iff_right_of_imp fun ⟨_, h⟩ => declared_of_declaredFor h

end Index

/-! ## Proof by tests -/

section Proof

variable [UnicodeText] {source : AcceptanceCoverageSource}

/-- Some declaration of the item names the test. -/
def TestOf (source : AcceptanceCoverageSource) (id path : Text) : Prop :=
  ∃ declaration ∈ source.declarations, declaration.acceptance.id = id ∧
    path ∈ (declaration.acceptance.source.map (·.tests)).getD []

/-- Some declaration of the item has no source, or a test that is not installed. -/
def LacksSource (source : AcceptanceCoverageSource) (id : Text) : Prop :=
  ∃ declaration ∈ source.declarations, declaration.acceptance.id = id ∧
    ∀ itemSource ∈ declaration.acceptance.source, ∃ path ∈ itemSource.tests, ∀ test ∈ source.tests, test.testPath ≠ path

omit [UnicodeText] in
theorem mem_missingSource {id : Text} : id ∈ missingSource source ↔ LacksSource source id := by
  simp only [missingSource, targetsOf, List.mem_map, List.mem_filter, LacksSource, exists_exists_and_eq_and, and_assoc]
  constructor
  · rintro ⟨declaration, hmem, hlacks, rfl⟩
    refine ⟨declaration, hmem, rfl, fun itemSource hsource => ?_⟩
    rw [Option.mem_def.mp hsource] at hlacks
    obtain ⟨path, hpath, hnot⟩ := List.any_eq_true.mp hlacks
    exact ⟨path, hpath, by simpa using hnot⟩
  · rintro ⟨declaration, hmem, rfl, hlacks⟩
    refine ⟨declaration, hmem, ?_, rfl⟩
    cases hsource : declaration.acceptance.source with
    | none => rfl
    | some itemSource =>
        obtain ⟨path, hpath, hnot⟩ := hlacks itemSource hsource
        exact List.any_eq_true.mpr ⟨path, hpath, by simpa using hnot⟩

theorem canonicalAcceptanceTestPath_eq {value path : Text} (h : canonicalAcceptanceTestPath value = .ok path) :
    path = value := by
  obtain ⟨_, -, h⟩ := bind_eq_ok.mp h
  obtain ⟨_, -, h⟩ := bind_eq_ok.mp h
  cases h
  rfl

/-- The path of every test is canonical. -/
def HasCanonicalTests (source : AcceptanceCoverageSource) : Prop :=
  ∀ id path, TestOf source id path → canonicalAcceptanceTestPath path = .ok path

/-- The tests of each item. -/
def requiredOf (source : AcceptanceCoverageSource) : OrderedMap Text (List Text) :=
  OrderedMap.empty.addAllTo
    ((proofBindings source).map fun binding => binding.acceptanceIds.map fun id => (id, binding.testPath)).flatten

omit [UnicodeText] in
theorem mem_proofBindings {binding : AcceptanceProofBinding} : binding ∈ proofBindings source ↔
    ∃ id, TestOf source id binding.testPath ∧ binding.acceptanceIds = [id] := by
  simp only [proofBindings, targetsOf, List.mem_flatMap, List.mem_map, exists_exists_and_eq_and, TestOf]
  constructor
  · rintro ⟨declaration, hmem, path, hpath, rfl⟩
    exact ⟨_, ⟨declaration, hmem, rfl, hpath⟩, rfl⟩
  · rintro ⟨id, ⟨declaration, hmem, rfl, hpath⟩, hids⟩
    refine ⟨declaration, hmem, _, hpath, ?_⟩
    cases binding
    exact congrArg _ hids.symm

omit [UnicodeText] in
theorem mem_requiredOf {id path : Text} : path ∈ (requiredOf source).valuesAt id ↔ TestOf source id path := by
  rw [requiredOf, OrderedMap.mem_valuesAt_addAllTo]
  simp only [OrderedMap.valuesAt_empty, List.not_mem_nil, false_or, List.mem_flatten, List.mem_map,
    exists_exists_and_eq_and, Prod.mk.injEq]
  constructor
  · rintro ⟨binding, hbinding, other, hother, rfl, rfl⟩
    obtain ⟨id, htest, hids⟩ := mem_proofBindings.mp hbinding
    rw [hids, List.mem_singleton] at hother
    exact hother ▸ htest
  · intro htest
    exact ⟨⟨path, [id]⟩, mem_proofBindings.mpr ⟨id, htest, rfl⟩, id, List.mem_singleton_self _, rfl, rfl⟩

theorem requiredTests_eq (h : HasCanonicalTests source) :
    requiredTests (proofBindings source) = .ok (requiredOf source) := by
  have hbindings : ∀ binding ∈ proofBindings source,
      (do let path ← canonicalAcceptanceTestPath binding.testPath
          return binding.acceptanceIds.map fun id => (id, path) : Except Text (List (Text × Text))) =
        .ok (binding.acceptanceIds.map fun id => (id, binding.testPath)) := by
    intro binding hmem
    obtain ⟨id, htest, -⟩ := mem_proofBindings.mp hmem
    rw [h id _ htest]
    rfl
  rw [requiredTests, mapM_eq_ok_map hbindings]
  rfl

theorem requiredTests_eq_ok {required : OrderedMap Text (List Text)} :
    requiredTests (proofBindings source) = .ok required ↔ HasCanonicalTests source ∧ required = requiredOf source := by
  constructor
  · intro h
    obtain ⟨entries, hentries, -⟩ := bind_eq_ok.mp h
    have hcanonical : HasCanonicalTests source := by
      intro id path htest
      have hmem : (⟨path, [id]⟩ : AcceptanceProofBinding) ∈ proofBindings source :=
        mem_proofBindings.mpr ⟨id, htest, rfl⟩
      obtain ⟨_, -, hcall⟩ := exists_ok_of_mem_mapM hentries hmem
      obtain ⟨path', hpath, -⟩ := bind_eq_ok.mp hcall
      rwa [canonicalAcceptanceTestPath_eq hpath] at hpath
    rw [requiredTests_eq hcanonical] at h
    cases h
    exact ⟨hcanonical, rfl⟩
  · rintro ⟨hcanonical, rfl⟩
    exact requiredTests_eq hcanonical

/-- The tests of an item are named by its declarations, installed and passed. -/
def IsProven (source : AcceptanceCoverageSource) (passed : List Text) (id : Text) : Prop :=
  ¬LacksSource source id ∧ (∃ path, TestOf source id path) ∧ ∀ path, TestOf source id path → path ∈ passed

open Classical in
/-- The items of the plan that were proven by the tests that passed. -/
noncomputable def provenIds (source : AcceptanceCoverageSource) (passed : List Text) : List Text :=
  uniqueSorted (source.acceptancePlan.filter (IsProven source passed))

/-- The lane reports say which tests passed, and no test both passed and failed. -/
def Reports (fast : FastVerificationLaneReport) (runtime : RuntimeVerificationLaneReport) (passed : List Text) : Prop :=
  passedTests fast runtime = .ok passed ∧
    ∃ failed, failedTests fast runtime = .ok failed ∧ ∀ path ∈ passed, path ∉ failed

variable {fast : FastVerificationLaneReport} {runtime : RuntimeVerificationLaneReport}

theorem acceptanceIdsProven_eq_ok {accepted : List Text} :
    acceptanceIdsProvenByVerificationReports fast runtime
      (source.acceptancePlan.filter fun id => id ∉ missingSource source) (proofBindings source) = .ok accepted ↔
      ∃ passed, Reports fast runtime passed ∧ HasCanonicalTests source ∧ accepted = provenIds source passed := by
  have hproven : ∀ passed : List Text, uniqueSorted ((source.acceptancePlan.filter fun id => id ∉ missingSource source).filter
      fun id => (requiredOf source).valuesAt id ≠ [] ∧ ∀ path ∈ (requiredOf source).valuesAt id, path ∈ passed) =
        provenIds source passed := by
    intro passed
    refine uniqueSorted_congr fun id => ?_
    simp only [List.mem_filter, decide_eq_true_eq, mem_missingSource, mem_requiredOf, and_assoc, ne_eq,
      List.eq_nil_iff_forall_not_mem, not_forall, not_not]
    rfl
  simp only [acceptanceIdsProvenByVerificationReports, bind_eq_ok, pure_eq_ok, Except.ok.injEq, requiredTests_eq_ok,
    require_eq_ok]
  constructor
  · rintro ⟨passed, hpassed, failed, hfailed, _, hdisjoint, _, ⟨hcanonical, rfl⟩, rfl⟩
    exact ⟨passed, ⟨hpassed, failed, hfailed, hdisjoint⟩, hcanonical, hproven passed⟩
  · rintro ⟨passed, ⟨hpassed, failed, hfailed, hdisjoint⟩, hcanonical, rfl⟩
    exact ⟨passed, hpassed, failed, hfailed, (), hdisjoint, _, ⟨hcanonical, rfl⟩, hproven passed⟩

end Proof

/-! ## The entries of the blocks -/

section Entries

variable {source : AcceptanceCoverageSource} {accepted : List Text}

/-- The item and everything it depends on were accepted. -/
def AcceptedBelow (source : AcceptanceCoverageSource) (accepted : List Text) (id : Text) : Prop :=
  ∀ dependency, Relation.ReflTransGen (DependsOn source) id dependency → dependency ∈ accepted

theorem declared_of_reflTransGen (hclosed : IsClosed source) {id dependency : Text} (hid : Declared source id)
    (h : Relation.ReflTransGen (DependsOn source) id dependency) : Declared source dependency := by
  induction h with
  | refl => exact hid
  | tail _ hstep _ => exact hclosed _ _ hstep

theorem holdsBelow_iff_acceptedBelow (hclosed : IsClosed source) {id : Text} (hid : Declared source id) :
    DependencySearch.HoldsBelow (dependsOnOf (mergeTargets (targetsOf source)))
      (fun id => (mergeTargets (targetsOf source)).has id && decide (id ∈ accepted)) id ↔
        AcceptedBelow source accepted id := by
  rw [DependencySearch.HoldsBelow, depends_eq]
  refine forall₂_congr fun dependency hreach => ?_
  have hdeclared : (mergeTargets (targetsOf source)).has dependency = true :=
    OrderedMap.has_iff.mpr (mem_keys_definitions.mpr (declared_of_reflTransGen hclosed hid hreach))
  simp [hdeclared]

open Classical in
/-- The entry of a block: the items declared for it, and those of them accepted with all their dependencies. -/
noncomputable def entryOf (source : AcceptanceCoverageSource) (accepted : List Text) (blockId : Text) :
    AcceptanceCoverageEntry :=
  buildCoverageEntry blockId ((indexOf source).declaredAcceptance blockId)
    (((indexOf source).declaredAcceptance blockId).filter (AcceptedBelow source accepted))

theorem blockCoverage_eq (hclosed : IsClosed source) (hacyclic : IsAcyclic source) {blockIds : List Text}
    {memo : OrderedMap Text Bool}
    (hmemo : DependencySearch.IsMemo (dependsOnOf (mergeTargets (targetsOf source)))
      (fun id => (mergeTargets (targetsOf source)).has id && decide (id ∈ accepted)) memo) :
    blockCoverage accepted (mergeTargets (targetsOf source)) (indexOf source) blockIds memo =
      .ok (blockIds.map (entryOf source accepted)) := by
  classical
  induction blockIds generalizing memo with
  | nil => rfl
  | cons blockId blockIds ih =>
      have hdeclared : ∀ id ∈ (indexOf source).declaredAcceptance blockId, Declared source id :=
        fun id hid => declared_of_declaredFor (mem_declaredAcceptance.mp hid)
      have hsucceeds : Succeeds (DependencySearch.filterSatisfied
          (isSatisfied accepted (mergeTargets (targetsOf source))) ((indexOf source).declaredAcceptance blockId) memo) :=
        DependencySearch.filterSatisfied_succeeds (closed_iff.mpr hclosed) (acyclic_iff.mpr hacyclic)
          (Nat.lt_succ_self _) (fun id hid => mem_keys_definitions.mpr (hdeclared id hid)) memo
      obtain ⟨kept, hkept⟩ := hsucceeds
      obtain ⟨hfilter, hmemo'⟩ := DependencySearch.filterSatisfied_ok hmemo hkept
      have hcovered : kept.1 = ((indexOf source).declaredAcceptance blockId).filter (AcceptedBelow source accepted) := by
        rw [hfilter]
        refine List.filter_congr fun id hid => ?_
        rw [decide_eq_decide]
        exact holdsBelow_iff_acceptedBelow hclosed (hdeclared id hid)
      rw [blockCoverage, hkept, ok_bind, ih hmemo', ok_bind, hcovered]
      rfl

end Entries

/-! ## The computation -/

section Computation

variable [UnicodeText] {source : AcceptanceCoverageSource} {fast : FastVerificationLaneReport}
  {runtime : RuntimeVerificationLaneReport} {report : AcceptanceCoverageReport}

/-- The report for the tests that passed. -/
noncomputable def reportOf (source : AcceptanceCoverageSource) (status : LaneStatus) (accepted : List Text) :
    AcceptanceCoverageReport :=
  let blocks := sortBy (·.id) (source.resolvedBlockIds.map (entryOf source accepted))
  ⟨source, status, accepted, blocks, (blocks.filter (·.uncovered)).map (·.id)⟩

/-- The computation succeeds under conditions on the set of declarations alone. -/
theorem computeAcceptanceCoverage_eq_ok : computeAcceptanceCoverage source fast runtime = .ok report ↔
    IsKnown source ∧ IsClosed source ∧ IsAcyclic source ∧ IsPlanned source ∧
      ∃ passed, Reports fast runtime passed ∧ HasCanonicalTests source ∧
        report = reportOf source runtime.status (provenIds source passed) := by
  constructor
  · intro h
    obtain ⟨index, hindex, h⟩ := bind_eq_ok.mp h
    obtain ⟨hknown, rfl⟩ := buildCoverageTargetIndex_eq_ok.mp hindex
    obtain ⟨definitions, hdefinitions, h⟩ := bind_eq_ok.mp h
    obtain ⟨hclosed, rfl⟩ := buildAcceptanceDefinitions_eq_ok.mp hdefinitions
    obtain ⟨hacyclic, h⟩ := check_bind_eq_ok.mp h
    have hacyclic := (assertAcceptanceDependencyAcyclic_succeeds hclosed).mp hacyclic
    obtain ⟨hplanned, h⟩ := check_bind_eq_ok.mp h
    obtain ⟨accepted, haccepted, h⟩ := bind_eq_ok.mp h
    obtain ⟨passed, hreports, hcanonical, rfl⟩ := acceptanceIdsProven_eq_ok.mp (mapError_eq_ok.mp haccepted)
    rw [blockCoverage_eq hclosed hacyclic DependencySearch.isMemo_empty] at h
    cases h
    exact ⟨hknown, hclosed, hacyclic, checkPlanned_eq_ok.mp hplanned, passed, hreports, hcanonical, rfl⟩
  · rintro ⟨hknown, hclosed, hacyclic, hplanned, passed, hreports, hcanonical, rfl⟩
    have hproven := acceptanceIdsProven_eq_ok.mpr ⟨passed, hreports, hcanonical, rfl⟩
    rw [computeAcceptanceCoverage, buildCoverageTargetIndex_eq_ok.mpr ⟨hknown, rfl⟩, ok_bind,
      buildAcceptanceDefinitions_eq_ok.mpr ⟨hclosed, rfl⟩, ok_bind,
      (assertAcceptanceDependencyAcyclic_succeeds hclosed).mpr hacyclic, ok_bind, checkPlanned_eq_ok.mpr hplanned, ok_bind]
    dsimp only
    rw [mapError_eq_ok.mpr hproven, ok_bind, blockCoverage_eq hclosed hacyclic DependencySearch.isMemo_empty]
    rfl

/-- A source that is not closed or not acyclic fails with the error of that; another error says that it is both. -/
theorem computeAcceptanceCoverage_eq_error (hknown : IsKnown source) {failure : AcceptanceCoverageFailure}
    (h : computeAcceptanceCoverage source fast runtime = .error failure) :
    (¬IsClosed source ∧ ∃ id dependency, failure = .undeclaredDependency id dependency) ∨
      (IsClosed source ∧ ¬IsAcyclic source ∧ ∃ cycle, failure = .dependencyCycle cycle) ∨
      (IsClosed source ∧ IsAcyclic source ∧ (∀ id dependency, failure ≠ .undeclaredDependency id dependency) ∧
        ∀ cycle, failure ≠ .dependencyCycle cycle) := by
  rw [computeAcceptanceCoverage, buildCoverageTargetIndex_eq_ok.mpr ⟨hknown, rfl⟩, ok_bind] at h
  rcases bind_eq_error.mp h with h | ⟨definitions, hdefinitions, h⟩
  · refine .inl ⟨fun hclosed => ?_, buildAcceptanceDefinitions_eq_error h⟩
    rw [buildAcceptanceDefinitions_eq_ok.mpr ⟨hclosed, rfl⟩] at h
    cases h
  · obtain ⟨hclosed, rfl⟩ := buildAcceptanceDefinitions_eq_ok.mp hdefinitions
    rcases bind_eq_error.mp h with h | ⟨_, hacyclic, h⟩
    · refine .inr (.inl ⟨hclosed, fun hacyclic => ?_, assertAcceptanceDependencyAcyclic_error hclosed h⟩)
      rw [(assertAcceptanceDependencyAcyclic_succeeds hclosed).mpr hacyclic] at h
      cases h
    · have hacyclic := (assertAcceptanceDependencyAcyclic_succeeds hclosed).mp hacyclic
      refine .inr (.inr ⟨hclosed, hacyclic, ?_⟩)
      rcases bind_eq_error.mp h with h | ⟨_, -, h⟩
      · obtain ⟨id, -, h⟩ := exists_of_forM_error h
        rcases bind_eq_error.mp h with h | ⟨_, -, h⟩
        · obtain ⟨-, rfl⟩ := require_eq_error.mp h
          exact ⟨nofun, nofun⟩
        · obtain ⟨-, rfl⟩ := require_eq_error.mp h
          exact ⟨nofun, nofun⟩
      · rcases bind_eq_error.mp h with h | ⟨accepted, -, h⟩
        · obtain ⟨message, -, rfl⟩ := mapError_eq_error.mp h
          exact ⟨nofun, nofun⟩
        · rw [blockCoverage_eq hclosed hacyclic DependencySearch.isMemo_empty] at h
          cases h

omit [UnicodeText] in
theorem mem_of_forM_toList {α ε : Type} {f : α → Except ε Unit} {o : Option α} (h : o.toList.forM f = .ok ()) {a : α}
    (ha : o = some a) : f a = .ok () := by
  subst ha
  exact forM_eq_ok.mp h a (List.mem_singleton_self a)

/-- In a valid source items are declared for resolved blocks. -/
theorem isKnown_of_validate (h : validateAcceptanceCoverageSource source = .ok ()) : IsKnown source := by
  obtain ⟨-, h⟩ := check_bind_eq_ok.mp h
  obtain ⟨-, h⟩ := check_bind_eq_ok.mp h
  obtain ⟨hdeclarations, -⟩ := check_bind_eq_ok.mp h
  rintro blockId id ⟨declaration, hmem, -, hblock⟩
  obtain ⟨howner, h⟩ := check_bind_eq_ok.mp (forM_eq_ok.mp hdeclarations declaration hmem)
  obtain ⟨-, h⟩ := check_bind_eq_ok.mp h
  obtain ⟨-, hcovers⟩ := check_bind_eq_ok.mp h
  unfold coveredBlocks at hblock
  cases hblocks : declaration.acceptance.covers.bind (·.blocks) with
  | none =>
      rw [hblocks] at hblock
      obtain rfl := List.mem_singleton.mp hblock
      exact require_eq_ok.mp howner
  | some blocks =>
      rw [hblocks] at hblock
      obtain ⟨-, hresolved⟩ := check_bind_eq_ok.mp (mem_of_forM_toList hcovers hblocks)
      exact require_eq_ok.mp hresolved blockId hblock

end Computation

end SecPlatform.Assurance
