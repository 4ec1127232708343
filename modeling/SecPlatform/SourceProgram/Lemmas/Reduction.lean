import SecPlatform.SourceProgram.Reduction
import SecPlatform.Contracts.Lemmas.Canonical
import Mathlib.Data.Set.Function

/-!
# Overlapping cuts, virtual sources and source snapshots
-/

namespace SecPlatform.SourceProgram

open Contracts

variable {Obligation : Type}

/-! ## Overlapping cuts -/

/-- The cuts of one file lie apart. -/
def ApartEdits (edits : List GraphCutEdit) : Prop := edits.Pairwise fun a b => a.removalSpan.Apart b.removalSpan

theorem ApartEdits.perm {edits edits' : List GraphCutEdit} (h : ApartEdits edits) (hperm : edits.Perm edits') :
    ApartEdits edits' := List.Pairwise.perm h hperm fun h => h.symm

/-- By start and end is by start. -/
theorem sortBy_order_start (edits : List GraphCutEdit) :
    (sortBy GraphCutEdit.order edits).Pairwise fun a b => a.removalSpan.start ≤ b.removalSpan.start := by
  have hsorted : (sortBy GraphCutEdit.order edits).Pairwise fun a b => a.order ≤ b.order := sortBy_pairwise edits
  refine hsorted.imp fun {a b} h => ?_
  rcases Prod.Lex.toLex_le_toLex.mp h with h | ⟨h, -⟩
  · exact le_of_lt h
  · exact le_of_eq h

/-- A cut that overlaps none of its neighbours ends before every later one begins. -/
theorem stop_le_start_of_notMem {edits : List GraphCutEdit}
    (hsorted : edits.Pairwise fun a b => a.removalSpan.start ≤ b.removalSpan.start) :
    edits.Pairwise fun a b => a.key ∉ overlappingNeighbours edits → a.removalSpan.stop ≤ b.removalSpan.start := by
  induction edits with
  | nil => exact .nil
  | cons edit edits ih =>
      obtain ⟨-, hrest⟩ := List.pairwise_cons.mp hsorted
      cases edits with
      | nil => exact List.pairwise_singleton _ _
      | cons next edits =>
          have hsub : ∀ key, key ∉ overlappingNeighbours (edit :: next :: edits) → key ∉ overlappingNeighbours (next :: edits) := by
            intro key hkey hmem
            unfold overlappingNeighbours at hkey
            split at hkey
            · exact hkey hmem
            · exact hkey (List.mem_cons_of_mem _ (List.mem_cons_of_mem _ hmem))
          refine List.pairwise_cons.mpr ⟨fun b hb hkey => ?_, (ih hrest).imp fun h hkey => h (hsub _ hkey)⟩
          have hnext : edit.removalSpan.stop ≤ next.removalSpan.start := by
            by_contra hnot
            simp [overlappingNeighbours, hnot] at hkey
          rcases List.mem_cons.mp hb with rfl | hb
          · exact hnext
          · exact hnext.trans ((List.pairwise_cons.mp hrest).1 b hb)

theorem readyEdit_key {reduction : SourceProgramGraphCutReduction Obligation} {edit : GraphCutEdit}
    (h : readyEdit reduction = some edit) : reduction.key = edit.key := by
  unfold readyEdit at h
  split at h
  · obtain ⟨removalSpan, -, rfl⟩ := Option.map_eq_some_iff.mp h
    rfl
  · cases h

theorem readyEdit_block (reason : Text) (reduction : SourceProgramGraphCutReduction Obligation) :
    readyEdit (reduction.block reason) = none := rfl

/-- The ready cuts that are left are the ones that overlap no neighbour. -/
theorem readyEdits_blockOverlaps (reductions : List (SourceProgramGraphCutReduction Obligation)) :
    readyEdits (blockOverlaps reductions) =
      (readyEdits reductions).filter fun edit => edit.key ∉ overlappingKeys (readyEdits reductions) := by
  unfold blockOverlaps
  generalize overlappingKeys (readyEdits reductions) = keys
  induction reductions with
  | nil => rfl
  | cons reduction reductions ih =>
      simp only [readyEdits, List.map_cons, List.filterMap_cons] at ih ⊢
      rw [ih]
      cases hready : readyEdit reduction with
      | none =>
          split_ifs
          · rw [readyEdit_block]
          · rw [hready]
      | some edit =>
          rw [readyEdit_key hready]
          by_cases hkey : edit.key ∈ keys
          · rw [if_pos hkey, readyEdit_block, List.filter_cons_of_neg (by simpa using hkey)]
          · rw [if_neg hkey, hready, List.filter_cons_of_pos (by simpa using hkey)]

theorem mem_overlappingKeys {edits : List GraphCutEdit} {edit : GraphCutEdit} (hmem : edit ∈ edits)
    {key : Text} (h : key ∈ overlappingNeighbours (sortBy GraphCutEdit.order (editsOf edit.path edits))) :
    key ∈ overlappingKeys edits :=
  List.mem_flatMap.mpr ⟨edit.path, List.mem_dedup.mpr (List.mem_map_of_mem hmem), h⟩

/-- The cuts of a file that are still ready lie apart. -/
theorem apart_blockOverlaps (reductions : List (SourceProgramGraphCutReduction Obligation)) (path : Text) :
    ApartEdits (editsOf path (readyEdits (blockOverlaps reductions))) := by
  rw [readyEdits_blockOverlaps]
  generalize readyEdits reductions = edits
  have hsorted := stop_le_start_of_notMem (sortBy_order_start (editsOf path edits))
  have hboth : (editsOf path edits).Pairwise fun a b =>
      a.key ∉ overlappingKeys edits → b.key ∉ overlappingKeys edits → a.removalSpan.Apart b.removalSpan := by
    refine List.Pairwise.perm (List.Pairwise.imp_of_mem ?_ hsorted) (sortBy_perm (editsOf path edits))
      fun h ha hb => (h hb ha).symm
    intro a b ha _ h hkey _
    have ha := List.mem_filter.mp (mem_sortBy.mp ha)
    have hpath : a.path = path := of_decide_eq_true ha.2
    exact .inl (h fun hmem => hkey (mem_overlappingKeys ha.1 (hpath ▸ hmem)))
  rw [editsOf, List.filter_comm]
  refine List.Pairwise.imp_of_mem ?_ (List.Pairwise.sublist List.filter_sublist hboth)
  intro a b ha hb h
  exact h (of_decide_eq_true (List.mem_filter.mp ha).2) (of_decide_eq_true (List.mem_filter.mp hb).2)

/-! ## Virtual sources -/

/-- Sorted by start and end, cuts that lie apart end before the next one begins. -/
theorem stop_le_start_of_apart {edits : List GraphCutEdit} (h : ApartEdits edits) :
    (sortBy GraphCutEdit.order edits).Pairwise fun a b => a.removalSpan.stop ≤ b.removalSpan.start := by
  refine (List.Pairwise.and (h.perm (sortBy_perm edits).symm) (sortBy_pairwise edits)).imp fun {a b} ⟨hapart, hle⟩ => ?_
  rcases hapart with hstop | hstop
  · exact hstop
  · have ha := a.removalSpan.start_le_stop
    have hb := b.removalSpan.start_le_stop
    -- the later one ends where the earlier one begins: they start together, and the earlier one is empty
    rcases Prod.Lex.toLex_le_toLex.mp hle with hlt | ⟨heq, hle⟩
    · omega
    · exact hle.trans (hstop.trans (le_of_eq heq))

theorem neighboursApart_of_pairwise {edits : List GraphCutEdit}
    (h : edits.Pairwise fun a b => a.removalSpan.stop ≤ b.removalSpan.start) : NeighboursApart edits := by
  induction edits with
  | nil => trivial
  | cons edit edits ih =>
      cases edits with
      | nil => trivial
      | cons next edits =>
          obtain ⟨hstop, hrest⟩ := List.pairwise_cons.mp h
          exact ⟨hstop next List.mem_cons_self, ih hrest⟩

/-- The patch and the verification see one source. -/
theorem renderSource_of_apart {edits edits' : List GraphCutEdit} (hperm : edits.Perm edits') (h : ApartEdits edits)
    (file : SourceProgramFileInput) : renderSource file edits = .ok (virtualSource file.source edits') := by
  have hstop := stop_le_start_of_apart h
  have hsame : Span.removeAll ((sortBy GraphCutEdit.order edits).reverse.map GraphCutEdit.removalSpan) file.source =
      Span.removeAll ((sortBy (fun edit => OrderDual.toDual edit.removalSpan.start) edits').map GraphCutEdit.removalSpan)
        file.source := by
    have hedits : (sortBy GraphCutEdit.order edits).reverse.Perm
        (sortBy (fun edit => OrderDual.toDual edit.removalSpan.start) edits') :=
      (List.reverse_perm _).trans ((sortBy_perm edits).trans (hperm.trans (sortBy_perm edits').symm))
    have hsorted' : (sortBy (fun edit => OrderDual.toDual edit.removalSpan.start) edits').Pairwise fun a b =>
        b.removalSpan.start ≤ a.removalSpan.start :=
      List.Pairwise.imp OrderDual.toDual_le_toDual.mp (sortBy_pairwise edits')
    refine Span.removeAll_eq_of_perm (hedits.map _) ?_ ?_ ?_ file.source
    · exact List.pairwise_map.mpr (h.perm ((sortBy_perm edits).symm.trans (List.reverse_perm _).symm))
    · rw [List.pairwise_map, List.pairwise_reverse]
      exact sortBy_order_start edits
    · exact List.pairwise_map.mpr hsorted'
  simp only [renderSource, require, if_pos (neighboursApart_of_pairwise hstop), hsame, virtualSource]
  rfl

/-! ## Plans -/

/-- A plan with a ready cut has passed its verification. -/
theorem readyEdits_applyVerification {reason : Option Text}
    {reductions : List (SourceProgramGraphCutReduction Obligation)}
    (h : readyEdits (applyVerification reason reductions) ≠ []) : reason = none := by
  cases reason with
  | none => rfl
  | some reason =>
      refine absurd (List.filterMap_eq_nil_iff.mpr fun reduction hmem => ?_) h
      obtain ⟨before, -, rfl⟩ := List.mem_map.mp hmem
      split
      · exact readyEdit_block reason before
      · rename_i hready
        exact if_neg hready

/-! ## Source snapshots -/

/-- The text whose digest stands for the files. -/
def snapshotText (files : List SourceProgramFile) : Text :=
  canonicalEncoding (.arr ((sortBy SourceProgramFile.path files).map snapshotEntry))

theorem canonical_snapshotEntry (file : SourceProgramFile) : canonical (snapshotEntry file) = snapshotEntry file := by
  have horder : canonicalOrder [(Text.ofString "contentDigest", (.str file.contentDigest : Value)),
      (Text.ofString "path", .str file.path)] =
        [(Text.ofString "contentDigest", .str file.contentDigest), (Text.ofString "path", .str file.path)] := rfl
  simp only [snapshotEntry, canonical, canonicalMembers]
  exact congrArg Json.obj horder

theorem canonicalItems_snapshotEntry (files : List SourceProgramFile) :
    canonicalItems (files.map snapshotEntry) = files.map snapshotEntry := by
  induction files with
  | nil => rfl
  | cons file files ih => rw [List.map_cons, canonicalItems, canonical_snapshotEntry, ih]

theorem isFinite_snapshot (files : List SourceProgramFile) : isFinite (.arr (files.map snapshotEntry)) := by
  induction files with
  | nil => rfl
  | cons file files ih => exact ih

theorem snapshotEntry_injective : Function.Injective snapshotEntry := by
  intro a b h
  simp only [snapshotEntry, Json.obj.injEq, List.cons.injEq, Prod.mk.injEq, Json.str.injEq, true_and, and_true] at h
  cases a
  cases b
  simp_all

/-- The text of a snapshot determines the sorted files. -/
theorem snapshotText_injective {files files' : List SourceProgramFile} (h : snapshotText files = snapshotText files') :
    sortBy SourceProgramFile.path files = sortBy SourceProgramFile.path files' := by
  have hdocument := document_canonicalEncoding (isFinite_snapshot (sortBy SourceProgramFile.path files))
  have hdocument' := document_canonicalEncoding (isFinite_snapshot (sortBy SourceProgramFile.path files'))
  unfold snapshotText at h
  rw [h, hdocument'] at hdocument
  simp only [canonical, canonicalItems_snapshotEntry, Option.some.injEq, Json.arr.injEq] at hdocument
  exact (List.map_injective_iff.mpr snapshotEntry_injective hdocument).symm

section Snapshots

variable [Sha256]

/-- The texts that are hashed for a snapshot. -/
def hashedTexts (files : List SourceProgramFileInput) : List Text :=
  snapshotText (files.map observedFile) :: files.map SourceProgramFileInput.source

/-- The texts that are hashed have different digests. -/
def NoCollision (texts : List Text) : Prop :=
  ∀ s ∈ texts, ∀ t ∈ texts, Sha256.rawSha256 s = Sha256.rawSha256 t → s = t

/-- Files of one snapshot digest have the same observations. -/
theorem observedFiles_perm {files files' : List SourceProgramFileInput} {texts : List Text}
    (hcollision : NoCollision texts) (hsub : hashedTexts files ⊆ texts) (hsub' : hashedTexts files' ⊆ texts)
    (h : sourceFileSnapshotDigest files = sourceFileSnapshotDigest files') :
    (files.map observedFile).Perm (files'.map observedFile) := by
  have htext := hcollision _ (hsub List.mem_cons_self) _ (hsub' List.mem_cons_self) h
  have hsorted := snapshotText_injective htext
  exact (sortBy_perm _).symm.trans ((List.Perm.of_eq hsorted).trans (sortBy_perm _))

/-- Every file of a snapshot has its source in any other files of that snapshot. -/
theorem exists_sameSource {files files' : List SourceProgramFileInput} {texts : List Text}
    (hcollision : NoCollision texts) (hsub : hashedTexts files ⊆ texts) (hsub' : hashedTexts files' ⊆ texts)
    (h : sourceFileSnapshotDigest files = sourceFileSnapshotDigest files') {file : SourceProgramFileInput}
    (hfile : file ∈ files) : ∃ file' ∈ files', file'.path = file.path ∧ file'.source = file.source := by
  have hperm := observedFiles_perm hcollision hsub hsub' h
  obtain ⟨file', hfile', heq⟩ := List.mem_map.mp (hperm.mem_iff.mp (List.mem_map_of_mem hfile))
  simp only [observedFile, SourceProgramFile.mk.injEq] at heq
  refine ⟨file', hfile', heq.1, hcollision _ (hsub' ?_) _ (hsub ?_) (Subtype.ext heq.2)⟩
  · exact List.mem_cons_of_mem _ (List.mem_map_of_mem hfile')
  · exact List.mem_cons_of_mem _ (List.mem_map_of_mem hfile)

theorem map_path_observedFile (files : List SourceProgramFileInput) :
    (files.map observedFile).map SourceProgramFile.path = files.map SourceProgramFileInput.path :=
  List.map_map

/-- Whether the paths repeat depends on the snapshot alone. -/
theorem nodup_path_of_snapshot {files files' : List SourceProgramFileInput} {texts : List Text}
    (hcollision : NoCollision texts) (hsub : hashedTexts files ⊆ texts) (hsub' : hashedTexts files' ⊆ texts)
    (h : sourceFileSnapshotDigest files = sourceFileSnapshotDigest files')
    (hnodup : (files.map SourceProgramFileInput.path).Nodup) : (files'.map SourceProgramFileInput.path).Nodup := by
  have hperm := (observedFiles_perm hcollision hsub hsub' h).map SourceProgramFile.path
  rw [map_path_observedFile, map_path_observedFile] at hperm
  exact hperm.nodup_iff.mp hnodup

end Snapshots

end SecPlatform.SourceProgram
