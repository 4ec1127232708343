import SecPlatform.SourceProgram.Lemmas.Reduction

/-!
# Patches write what was verified
-/

namespace SecPlatform.SourceProgram

open Contracts

section Patches

variable {Obligation : Type} [Sha256]

/-! ## Receipts and plans -/

theorem compiledReceipt_snapshot (unusedSymbols : CompiledReceipt) :
    unusedSymbols.receipt.sourceSnapshotDigest = sourceFileSnapshotDigest unusedSymbols.input.files ∧
      (unusedSymbols.input.files.map SourceProgramFileInput.path).Nodup := by
  have h := unusedSymbols.compiled
  unfold compileSourceProgramUnusedSymbolProviderReceipt at h
  obtain ⟨hinput, h⟩ := check_bind_eq_ok.mp h
  obtain ⟨-, h⟩ := check_bind_eq_ok.mp h
  obtain ⟨-, hbind, -⟩ := require_eq_ok.mp hinput
  simp only [sourceFilesBindModel, Bool.and_eq_true, decide_eq_true_eq] at hbind
  refine ⟨?_, hbind.1⟩
  rw [← Except.ok.inj h]

/-- What a plan was compiled from. -/
theorem compiledPlan_stages (compiledPlan : CompiledPlan Obligation) :
    sourceFileSnapshotDigest compiledPlan.files = compiledPlan.plan.sourceSnapshotDigest ∧
      compiledPlan.unusedSymbols.receipt.sourceSnapshotDigest = sourceFileSnapshotDigest compiledPlan.files ∧
        ∃ candidates reason digest,
          verifyReductions compiledPlan.context compiledPlan.model compiledPlan.files (blockOverlaps
            (candidateReductions compiledPlan.context compiledPlan.model candidates compiledPlan.unusedSymbols.receipt)) =
              .ok (reason, digest) ∧
          compiledPlan.plan.reductions.Perm (applyVerification reason (blockOverlaps
            (candidateReductions compiledPlan.context compiledPlan.model candidates
              compiledPlan.unusedSymbols.receipt))) := by
  have h := compiledPlan.compiled
  unfold compileSourceProgramGraphCutReductionPlan at h
  obtain ⟨-, h⟩ := check_bind_eq_ok.mp h
  obtain ⟨hreceipt, h⟩ := check_bind_eq_ok.mp h
  obtain ⟨-, hsnapshot, -⟩ := require_eq_ok.mp hreceipt
  obtain ⟨candidates, -, h⟩ := bind_eq_ok.mp h
  obtain ⟨⟨reason, digest⟩, hverify, h⟩ := bind_eq_ok.mp h
  have hplan := Except.ok.inj h
  refine ⟨?_, hsnapshot, candidates, reason, digest, hverify, ?_⟩
  · rw [← hplan]
  · rw [← hplan]
    exact sortBy_perm _

/-! ## Files of one path -/

omit [Sha256] in
theorem eq_of_path {files : List SourceProgramFileInput} (hnodup : (files.map SourceProgramFileInput.path).Nodup)
    {file file' : SourceProgramFileInput} (h : file ∈ files) (h' : file' ∈ files) (hpath : file.path = file'.path) :
    file = file' := List.inj_on_of_nodup_map hnodup h h' hpath

theorem graphCutVirtualFile_path (edits : List GraphCutEdit) (file : SourceProgramFileInput) :
    (graphCutVirtualFile edits file).path = file.path := by
  unfold graphCutVirtualFile
  split <;> rfl

/-- The virtual source of a file with edits. -/
theorem graphCutVirtualFile_source {edits : List GraphCutEdit} {file : SourceProgramFileInput}
    (h : editsOf file.path edits ≠ []) :
    (graphCutVirtualFile edits file).source = virtualSource file.source (editsOf file.path edits) := by
  rw [graphCutVirtualFile, if_neg h]

/-- One file of a patch has the source that the virtual file of its path has. -/
theorem renderFile_eq_ok {files files' : List SourceProgramFileInput} {edits edits' : List GraphCutEdit} {path : Text}
    (hperm : edits.Perm edits') (hmem : path ∈ edits.map GraphCutEdit.path) (hapart : ApartEdits (editsOf path edits))
    (hsame : ∀ file ∈ files', ∃ file' ∈ files, file'.path = file.path ∧ file'.source = file.source)
    {change : Option FileChange} (h : renderFile files' edits path = .ok change) :
    ∃ file ∈ files', file.path = path ∧ ∃ virtualFile ∈ files.map (graphCutVirtualFile edits'), virtualFile.path = path ∧
      change = if virtualFile.source = file.source then none else some ⟨file, virtualFile.source⟩ := by
  unfold renderFile at h
  split at h
  · cases h
  · rename_i file hfind
    have hfile : file ∈ files' := List.mem_reverse.mp (List.mem_of_find?_eq_some hfind)
    have hpath : file.path = path := by simpa using List.find?_some hfind
    subst hpath
    obtain ⟨source, hsource, hok⟩ := bind_eq_ok.mp h
    have hedits : (editsOf file.path edits).Perm (editsOf file.path edits') := hperm.filter _
    rw [renderSource_of_apart hedits hapart file] at hsource
    obtain rfl := Except.ok.inj hsource
    obtain ⟨file', hfile', hpath', hsource'⟩ := hsame file hfile
    have hne : editsOf file'.path edits' ≠ [] := by
      obtain ⟨edit, hedit, heq⟩ := List.mem_map.mp hmem
      have : edit ∈ editsOf file.path edits' :=
        List.mem_filter.mpr ⟨hperm.mem_iff.mp hedit, decide_eq_true heq⟩
      rw [hpath']
      exact List.ne_nil_of_mem this
    refine ⟨file, hfile, rfl, graphCutVirtualFile edits' file', List.mem_map_of_mem hfile', ?_, ?_⟩
    · rw [graphCutVirtualFile_path, hpath']
    · rw [graphCutVirtualFile_source hne, hpath', hsource']
      exact (Except.ok.inj hok).symm

omit [Sha256] in
theorem head_overlappingEdits (path : Text) : (overlappingEdits path).message.head? = some (unit 'O') := rfl

omit [Sha256] in
/-- No file raises the overlap error. -/
theorem renderFile_ne_overlapping {files : List SourceProgramFileInput} {edits : List GraphCutEdit} {path : Text}
    (hapart : ApartEdits (editsOf path edits)) (other : Text) :
    renderFile files edits path ≠ .error (overlappingEdits other) := by
  unfold renderFile
  split
  · intro h
    have hhead := congrArg (fun failure => failure.message.head?) (Except.error.inj h)
    have hlocation : (Text.cat [Text.ofString "Graph-cut location has no source snapshot: ", path]).head? =
        some (unit 'G') := rfl
    rw [head_overlappingEdits, hlocation] at hhead
    exact absurd hhead (by decide)
  · rename_i file _
    rw [renderSource_of_apart (List.Perm.refl _) hapart file]
    intro h
    cases h

/-! ## Patches -/

/-- The texts whose digests a patch relies on. -/
def patchTexts (compiledPlan : CompiledPlan Obligation) (files : List SourceProgramFileInput) : List Text :=
  hashedTexts compiledPlan.unusedSymbols.input.files ++ hashedTexts compiledPlan.files ++ hashedTexts files

/-- What a patch writes of the files that were verified: the changes are the files whose verified source is another
one, each with that source. -/
structure WritesVerified (files virtualFiles : List SourceProgramFileInput) (changes : List FileChange) : Prop where
  verified : ∀ change ∈ changes, change.file ∈ files ∧ ∃ virtualFile ∈ virtualFiles,
    virtualFile.path = change.file.path ∧ virtualFile.source = change.nextSource
  complete : ∀ file ∈ files, ∀ virtualFile ∈ virtualFiles, virtualFile.path = file.path →
    virtualFile.source ≠ file.source → ⟨file, virtualFile.source⟩ ∈ changes

/-- The sources of a snapshot are the sources that the plan was compiled from, one for each path. -/
theorem compiledPlan_files (compiledPlan : CompiledPlan Obligation) {files : List SourceProgramFileInput}
    (hcollision : NoCollision (patchTexts compiledPlan files))
    (hsnapshot : sourceFileSnapshotDigest files = compiledPlan.plan.sourceSnapshotDigest) :
    (files.map SourceProgramFileInput.path).Nodup ∧
      (compiledPlan.files.map SourceProgramFileInput.path).Nodup ∧
        ∀ file ∈ files, ∃ file' ∈ compiledPlan.files, file'.path = file.path ∧ file'.source = file.source := by
  obtain ⟨hplan, hreceipt, -⟩ := compiledPlan_stages compiledPlan
  obtain ⟨hinput, hnodup⟩ := compiledReceipt_snapshot compiledPlan.unusedSymbols
  have hsub : hashedTexts compiledPlan.unusedSymbols.input.files ⊆ patchTexts compiledPlan files :=
    List.subset_append_of_subset_left _ (List.subset_append_left _ _)
  have hsubPlan : hashedTexts compiledPlan.files ⊆ patchTexts compiledPlan files :=
    List.subset_append_of_subset_left _ (List.subset_append_right _ _)
  have hsubFiles : hashedTexts files ⊆ patchTexts compiledPlan files := List.subset_append_right _ _
  have hfiles : sourceFileSnapshotDigest files = sourceFileSnapshotDigest compiledPlan.files := by rw [hsnapshot, hplan]
  have hnodupPlan := nodup_path_of_snapshot hcollision hsub hsubPlan (by rw [← hinput, hreceipt]) hnodup
  exact ⟨nodup_path_of_snapshot hcollision hsubPlan hsubFiles hfiles.symm hnodupPlan, hnodupPlan,
    fun file hfile => exists_sameSource hcollision hsubFiles hsubPlan hfiles hfile⟩

/-- The files of a patch that is rendered from the edits that were verified. -/
theorem renderFiles_writesVerified {files files' : List SourceProgramFileInput} {edits edits' : List GraphCutEdit}
    {changes : List (Option FileChange)} (hperm : edits.Perm edits') (hapart : ∀ path, ApartEdits (editsOf path edits))
    (hnodup : (files.map SourceProgramFileInput.path).Nodup) (hnodup' : (files'.map SourceProgramFileInput.path).Nodup)
    (hsame : ∀ file ∈ files', ∃ file' ∈ files, file'.path = file.path ∧ file'.source = file.source)
    (h : (uniqueSorted (edits.map GraphCutEdit.path)).mapM (renderFile files' edits) = .ok changes) :
    WritesVerified files' (files.map (graphCutVirtualFile edits')) (changes.filterMap id) where
  verified change hchange := by
    obtain ⟨_, hmem, rfl⟩ := List.mem_filterMap.mp hchange
    obtain ⟨path, hpath, hrender⟩ := exists_of_mem_mapM h hmem
    obtain ⟨file, hfile, rfl, virtualFile, hvirtual, hvirtualPath, hchange⟩ :=
      renderFile_eq_ok hperm (mem_uniqueSorted.mp hpath) (hapart path) hsame hrender
    split at hchange
    · cases hchange
    · obtain rfl := Option.some.inj hchange
      exact ⟨hfile, virtualFile, hvirtual, hvirtualPath, rfl⟩
  complete file hfile virtualFile hvirtual hpath hne := by
    obtain ⟨file₁, hfile₁, rfl⟩ := List.mem_map.mp hvirtual
    obtain ⟨file₂, hfile₂, hpath₂, hsource⟩ := hsame file hfile
    rw [graphCutVirtualFile_path] at hpath
    obtain rfl : file₁ = file₂ := eq_of_path hnodup hfile₁ hfile₂ (hpath.trans hpath₂.symm)
    -- a file without edits is given to verification as it is
    have hedits : editsOf file₁.path edits' ≠ [] := by
      intro hnil
      rw [graphCutVirtualFile, if_pos hnil] at hne
      exact hne hsource
    obtain ⟨edit, hedit⟩ := List.exists_mem_of_ne_nil _ hedits
    obtain ⟨hedit, heditPath⟩ := List.mem_filter.mp hedit
    have hmem : file.path ∈ edits.map GraphCutEdit.path :=
      List.mem_map.mpr ⟨edit, hperm.mem_iff.mpr hedit, (of_decide_eq_true heditPath).trans hpath⟩
    obtain ⟨change, hchange, hrender⟩ := exists_ok_of_mem_mapM h (mem_uniqueSorted.mpr hmem)
    obtain ⟨file₃, hfile₃, hpath₃, virtualFile, hvirtual', hpath', rfl⟩ :=
      renderFile_eq_ok hperm hmem (hapart file.path) hsame hrender
    obtain rfl : file₃ = file := eq_of_path hnodup' hfile₃ hfile hpath₃
    obtain ⟨file₄, hfile₄, rfl⟩ := List.mem_map.mp hvirtual'
    rw [graphCutVirtualFile_path] at hpath'
    obtain rfl : file₄ = file₁ := eq_of_path hnodup hfile₄ hfile₁ (hpath'.trans hpath.symm)
    rw [if_neg hne] at hchange
    exact List.mem_filterMap.mpr ⟨_, hchange, rfl⟩

/-- The cuts that are still ready after the comparison lie apart, and a patch writes for every file the source that was
given to verification, without an overlap. -/
theorem renderSourceProgramGraphCutReductionPatch_verified (createTwoFilesPatch : Text → Text → Text → Text) :
    (∀ (reductions : List (SourceProgramGraphCutReduction Obligation)) path,
      ApartEdits (editsOf path (readyEdits (blockOverlaps reductions)))) ∧
    ∀ (compiledPlan : CompiledPlan Obligation) (files : List SourceProgramFileInput),
      NoCollision (patchTexts compiledPlan files) →
      (∀ path, renderSourceProgramGraphCutReductionPatch createTwoFilesPatch compiledPlan files ≠
        .error (overlappingEdits path)) ∧
      ∀ patch, renderSourceProgramGraphCutReductionPatch createTwoFilesPatch compiledPlan files = .ok patch →
        ∃ (reductions : List (SourceProgramGraphCutReduction Obligation)) (digest : Digest) (changes : List FileChange),
          compiledPlan.context.verify compiledPlan.files (graphCutVirtualFiles compiledPlan.files reductions)
            (excludedDeclarationIds compiledPlan.model reductions) = .ok (none, digest) ∧
          patch = sealPatch createTwoFilesPatch compiledPlan.plan changes ∧
          WritesVerified files (graphCutVirtualFiles compiledPlan.files reductions) changes := by
  refine ⟨apart_blockOverlaps, fun compiledPlan files hcollision => ?_⟩
  obtain ⟨-, -, candidates, reason, digest, hverify, hreductions⟩ := compiledPlan_stages compiledPlan
  generalize candidateReductions compiledPlan.context compiledPlan.model candidates compiledPlan.unusedSymbols.receipt =
    reductions at hverify hreductions
  have hready : readyEdits compiledPlan.plan.reductions ≠ [] → reason = none ∧
      (readyEdits compiledPlan.plan.reductions).Perm (readyEdits (blockOverlaps reductions)) := by
    intro hne
    have hedits := hreductions.filterMap readyEdit
    obtain rfl := readyEdits_applyVerification fun hnil => hne (by
      rw [readyEdits] at hnil ⊢
      exact List.Perm.eq_nil (hnil ▸ hedits))
    exact ⟨rfl, hedits⟩
  have hapart : ∀ {edits : List GraphCutEdit}, edits.Perm (readyEdits (blockOverlaps reductions)) →
      ∀ path, ApartEdits (editsOf path edits) := fun hperm path =>
    (apart_blockOverlaps reductions path).perm (hperm.filter _).symm
  unfold renderSourceProgramGraphCutReductionPatch
  dsimp only
  constructor
  · intro path h
    rcases bind_eq_error.mp h with h | ⟨-, -, h⟩
    · obtain ⟨-, h⟩ := require_eq_error.mp h
      have hcode := congrArg ReductionFailure.code h
      cases hcode
    rcases bind_eq_error.mp h with h | ⟨_, hne, h⟩
    · obtain ⟨-, h⟩ := require_eq_error.mp h
      have hhead := congrArg (fun failure => failure.message.head?) h
      rw [head_overlappingEdits] at hhead
      exact absurd hhead (by decide)
    · obtain ⟨-, hperm⟩ := hready (require_eq_ok.mp hne)
      rcases bind_eq_error.mp h with h | ⟨changes, -, h⟩
      · obtain ⟨file, -, hfile⟩ := exists_of_mapM_error h
        exact renderFile_ne_overlapping (hapart hperm file) path hfile
      · cases h
  · intro patch h
    obtain ⟨hsnapshot, h⟩ := check_bind_eq_ok.mp h
    obtain ⟨hne, h⟩ := check_bind_eq_ok.mp h
    obtain ⟨changes, hchanges, h⟩ := bind_eq_ok.mp h
    obtain ⟨rfl, hperm⟩ := hready (require_eq_ok.mp hne)
    obtain ⟨hnodup', hnodup, hsame⟩ := compiledPlan_files compiledPlan hcollision (require_eq_ok.mp hsnapshot)
    have hverified : readyEdits (blockOverlaps reductions) ≠ [] := fun hnil =>
      require_eq_ok.mp hne (List.Perm.eq_nil (hnil ▸ hperm))
    rw [verifyReductions, if_neg hverified] at hverify
    exact ⟨blockOverlaps reductions, digest, _, hverify, (Except.ok.inj h).symm,
      renderFiles_writesVerified hperm (hapart hperm) hnodup hnodup' hsame hchanges⟩

end Patches

section Sample

/-- A hash that tells a source from the text of its snapshot. -/
local instance lengthSha256 : Sha256 :=
  ⟨fun text => ⟨Text.ofString "sha256:" ++ List.replicate 64 (unit (if text.length < 20 then '0' else '1')), by
    split <;> decide⟩⟩

/-- A file with one declaration. -/
def oneFile : SourceProgramFileInput := ⟨"a.ts", "const a = 1;\n", "sha256"⟩

def oneModel : SourceProgramModel where
  sourceRevision := (Sha256.rawSha256 []).val
  files := [observedFile oneFile]
  declarations := [⟨"id", "a.ts", "a", ⟨0, 12, by decide⟩⟩]
  references := []
  entrypoints := []
  candidates := some [⟨"production-declaration-without-consumer", "known", [Text.ofString "a.ts"], "a"⟩]
  unknowns := []
  modelDigest := (Sha256.rawSha256 []).val
  compiled := true

def oneReceipt : CompiledReceipt where
  receipt := {
    providerRevision := (Sha256.rawSha256 []).val
    sourceRevision := oneModel.sourceRevision
    sourceSnapshotDigest := sourceFileSnapshotDigest [oneFile]
    candidateDigest := candidatesDigest [⟨"a.ts", "a"⟩]
    candidates := [⟨"a.ts", "a"⟩]
    receiptDigest := Sha256.rawSha256 [] }
  input := ⟨oneModel, [oneFile], (Sha256.rawSha256 []).val, [⟨"a.ts", "a"⟩]⟩
  compiled := by decide +kernel

def oneContext : SourceProgramReductionCompilerContext Unit where
  typeScriptModel := ⟨oneModel.sourceRevision, oneModel.files, true⟩
  sourceFile _ := some oneFile.source
  removalNode _ _ _ := some ⟨0, 12, by decide⟩
  obligations _ _ := []
  verify _ _ _ := .ok (none, Sha256.rawSha256 [])

def onePlan : CompiledPlan Unit where
  plan := {
    sourceRevision := oneModel.sourceRevision
    sourceSnapshotDigest := sourceFileSnapshotDigest [oneFile]
    evidenceDigest := Sha256.rawSha256 []
    verificationDigest := Sha256.rawSha256 []
    planDigest := Sha256.rawSha256 []
    reductions := [⟨.ready, .delete, "a.ts", "a", some ⟨0, 13, by decide⟩, [], none⟩] }
  model := oneModel
  files := [oneFile]
  unusedSymbols := oneReceipt
  context := oneContext
  compiled := by decide +kernel

theorem noCollision_onePlan : NoCollision (patchTexts onePlan [oneFile]) := by
  unfold NoCollision
  decide +kernel

theorem renderSourceProgramGraphCutReductionPatch_verified_onePlan :
    ∃ (reductions : List (SourceProgramGraphCutReduction Unit)) (digest : Digest) (changes : List FileChange),
      oneContext.verify [oneFile] (graphCutVirtualFiles [oneFile] reductions)
        (excludedDeclarationIds oneModel reductions) = .ok (none, digest) ∧
      sealPatch (fun path _ _ => path) onePlan.plan [⟨oneFile, []⟩] =
        sealPatch (fun path _ _ => path) onePlan.plan changes ∧
      WritesVerified [oneFile] (graphCutVirtualFiles [oneFile] reductions) changes :=
  ((renderSourceProgramGraphCutReductionPatch_verified fun path _ _ => path).2 onePlan [oneFile]
    noCollision_onePlan).2 _ (by decide +kernel)

end Sample

end SecPlatform.SourceProgram
