import SecPlatform.Overrides.Lemmas.Publication

/-!
# A whole run without other writers

The plan holds what the files hold. The publishing loop writes the targets of the overrides it records, and the rollback
either gives a target its planned bytes back or reports it.
-/

namespace SecPlatform.Overrides

open Contracts
open CallM

variable [FileSystem] [UnicodeText] {files files' : Files} {published published' : List PreparedOverride}
  {events : List Event} {override : PreparedOverride}

/-! ## Targets -/

section Targets

variable [LocaleCase]

/-- The targets of a manifest are portable, and no two of them collide. -/
def Distinct (entry entry' : OverrideEntry) : Prop := collisionKey entry.target ≠ collisionKey entry'.target

omit [FileSystem] in
/-- What one turn of the loop over the entries checks and records. -/
theorem checkEntry_ok {owners owners' : Owners} {entry : OverrideEntry} (h : checkEntry owners entry = .ok owners') :
    isCanonicalPortableLogicalPath entry.target = true ∧ owners.targetOwners.get? (collisionKey entry.target) = none ∧
      owners'.targetOwners = owners.targetOwners.set (collisionKey entry.target) entry.id := by
  unfold checkEntry at h
  obtain ⟨-, h⟩ := check_bind_eq_ok.mp h
  obtain ⟨-, h⟩ := check_bind_eq_ok.mp h
  obtain ⟨htarget, h⟩ := check_bind_eq_ok.mp h
  obtain ⟨-, h⟩ := check_bind_eq_ok.mp h
  obtain ⟨-, h⟩ := check_bind_eq_ok.mp h
  obtain ⟨targetKey, hkey, h⟩ := bind_eq_ok.mp h
  obtain ⟨hfree, h⟩ := check_bind_eq_ok.mp h
  obtain ⟨-, -, h⟩ := bind_eq_ok.mp h
  obtain ⟨-, -, hkey⟩ := bind_eq_ok.mp (mapError_eq_ok.mp hkey)
  obtain rfl := Except.ok.inj hkey
  obtain rfl := Except.ok.inj h
  exact ⟨require_eq_ok.mp htarget, require_eq_ok.mp hfree, rfl⟩

omit [FileSystem] in
theorem validateOverrideManifest_targets {input : Value} {entries : List OverrideEntry}
    (h : validateOverrideManifest input = .ok entries) :
    entries.Pairwise Distinct ∧ ∀ entry ∈ entries, isCanonicalPortableLogicalPath entry.target = true := by
  unfold validateOverrideManifest at h
  split at h
  · cases h
  obtain ⟨owners, hfold, h⟩ := bind_eq_ok.mp h
  obtain ⟨-, -, h⟩ := bind_eq_ok.mp h
  obtain rfl := Except.ok.inj h
  -- the owners are those of the targets so far
  have hrun := foldlM_pairwise (R := Distinct) (P := fun done owners =>
    (∀ entry ∈ done, (owners.targetOwners.get? (collisionKey entry.target)).isSome) ∧
      ∀ entry ∈ done, isCanonicalPortableLogicalPath entry.target = true)
    (fun done owners entry owners' hdone hturn => ?_) ⟨nofun, nofun⟩ hfold
  · exact ⟨hrun.1, hrun.2.2⟩
  obtain ⟨hportable, hfree, howners⟩ := checkEntry_ok hturn
  have hdistinct : ∀ other ∈ done, Distinct other entry := by
    intro other hother heq
    have hsome := hdone.1 other hother
    rw [heq, hfree] at hsome
    cases hsome
  refine ⟨hdistinct, List.forall_mem_append.mpr ⟨fun other hother => ?_, List.forall_mem_singleton.mpr ?_⟩,
    List.forall_mem_append.mpr ⟨hdone.2, List.forall_mem_singleton.mpr hportable⟩⟩
  · rw [howners, OrderedMap.get?_set_of_ne _ _ (hdistinct other hother).symm]
    exact hdone.1 other hother
  · rw [howners, OrderedMap.get?_set_self]
    rfl

omit [FileSystem] in
theorem manifestEntries_targets [ManifestText] {bytes : Option Bytes} {entries : List OverrideEntry}
    (h : manifestEntries bytes = .ok entries) :
    entries.Pairwise Distinct ∧ ∀ entry ∈ entries, isCanonicalPortableLogicalPath entry.target = true := by
  unfold manifestEntries at h
  split at h
  · obtain rfl := Except.ok.inj h
    exact ⟨.nil, nofun⟩
  · obtain ⟨-, h⟩ := check_bind_eq_ok.mp h
    obtain ⟨raw, -, h⟩ := bind_eq_ok.mp h
    exact validateOverrideManifest_targets h

/-- The files of the targets are different ones. -/
theorem files_distinct (hportable : Portable) {entries : List OverrideEntry} (hdistinct : entries.Pairwise Distinct)
    (hcanonical : ∀ entry ∈ entries, isCanonicalPortableLogicalPath entry.target = true) :
    entries.Pairwise fun entry entry' => FileSystem.file entry.target ≠ FileSystem.file entry'.target := by
  refine hdistinct.imp_of_mem fun hentry hentry' hkeys heq => hkeys ?_
  exact hportable _ _ (hcanonical _ hentry) (hcanonical _ hentry') heq

end Targets

/-! ## Planning -/

omit [UnicodeText] in
/-- A read answers with the bytes of the file. -/
theorem passes_read {path : Text} {bytes : Option Bytes} {after : List Event}
    (h : Passes Performs Undisturbed files (⟨.read path, .ok bytes⟩ :: after) files') :
    bytes = files (FileSystem.file path) ∧ Passes Performs Undisturbed files after files' := by
  obtain ⟨files₁, hperform, hafter⟩ := passes_undisturbed.mp h
  cases hperform
  exact ⟨rfl, hafter⟩

/-- The override is planned against the bytes of the files. -/
structure PlannedFrom (files : Files) (entry : OverrideEntry) (override : PreparedOverride) : Prop where
  planned : override.entry = entry
  paths : overridePaths entry = .ok (override.sourcePath, override.targetPath)
  source : files (FileSystem.file override.sourcePath) = some override.sourceBytes
  target : files (FileSystem.file override.targetPath) = override.targetPreimage

section Planning

variable [LocaleCase] [ManifestText]

omit [FileSystem] [UnicodeText] [LocaleCase] in
theorem quiet_readOverrideSource (entry : OverrideEntry) : Within Quiet (readOverrideSource entry) :=
  within_bind within_result fun _ => within_bind (within_perform rfl) fun _ => within_bind within_result fun _ =>
    within_bind within_result fun _ => within_bind (within_perform rfl) fun _ => within_pure

omit [FileSystem] in
theorem quiet_planOverrides : Within Quiet planOverrides := by
  refine within_bind (within_bind (within_perform rfl) fun _ => within_result) fun _ => ?_
  refine within_bind (within_mapM quiet_readOverrideSource) fun _ => within_bind (within_perform rfl) fun _ => ?_
  refine within_bind (within_forM fun _ => ?_) fun _ => within_pure
  exact within_bind (within_perform rfl) fun _ => within_bind (within_perform rfl) fun _ =>
    within_bind within_result fun _ => within_result

omit [UnicodeText] [LocaleCase] in
theorem plannedFrom_of_read {entry : OverrideEntry}
    (h : Ends (readOverrideSource entry) published events (.ok override) published')
    (hpasses : Passes Performs Undisturbed files events files') : PlannedFrom files entry override := by
  unfold readOverrideSource at h
  rcases ends_result_bind.mp h with ⟨e, -, -, he, -⟩ | ⟨⟨sourcePath, targetPath⟩, hpaths, hread⟩
  · cases he
  rcases ends_perform_bind.mp hread with ⟨e, -, he, -⟩ | ⟨source, after, rfl, hsource⟩
  · cases he
  obtain ⟨rfl, hpassesSource⟩ := passes_read hpasses
  rcases ends_result_bind.mp hsource with ⟨e, -, -, he, -⟩ | ⟨sourceBytes, hbytes, hchecked⟩
  · cases he
  rcases ends_result_bind.mp hchecked with ⟨e, -, -, he, -⟩ | ⟨_, -, hlast⟩
  · cases he
  rcases ends_perform_bind.mp hlast with ⟨e, -, he, -⟩ | ⟨target, rest, rfl, hdone⟩
  · cases he
  obtain ⟨rfl, -⟩ := passes_read hpassesSource
  obtain ⟨-, hoverride, -⟩ := ends_pure.mp hdone
  obtain rfl := Except.ok.inj hoverride
  refine ⟨rfl, hpaths, ?_, rfl⟩
  dsimp only
  split at hbytes
  · cases hbytes
  · rename_i hfound
    rw [hfound]
    exact congrArg some (Except.ok.inj hbytes)

omit [UnicodeText] [LocaleCase] in
theorem plannedFrom_of_mapM {entries : List OverrideEntry} {prepared : List PreparedOverride}
    (h : Ends (entries.mapM readOverrideSource) published events (.ok prepared) published')
    (hpasses : Passes Performs Undisturbed files events files') : entries.Forall₂ (PlannedFrom files) prepared := by
  induction entries generalizing published published' events prepared files' with
  | nil =>
      obtain ⟨-, hprepared, -⟩ := ends_pure.mp h
      obtain rfl := Except.ok.inj hprepared
      exact .nil
  | cons entry entries ih =>
      rw [List.mapM_cons] at h
      obtain ⟨before, override, published₁, after, rfl, hfirst, hrest⟩ := ends_bind_ok.mp h
      obtain ⟨files₁, hbefore, hafter⟩ := passes_append.mp hpasses
      obtain ⟨-, rfl⟩ := Within.same (quiet_readOverrideSource entry) hfirst hbefore
      obtain ⟨before', rest, published₂, after', rfl, hmap, hdone⟩ := ends_bind_ok.mp hrest
      obtain ⟨files₂, hbefore', -⟩ := passes_append.mp hafter
      obtain ⟨-, rfl⟩ := Within.same (within_mapM quiet_readOverrideSource) hmap hbefore'
      obtain ⟨-, hprepared, -⟩ := ends_pure.mp hdone
      obtain rfl := Except.ok.inj hprepared
      exact .cons (plannedFrom_of_read hfirst hbefore) (ih hmap hbefore')

/-- What a finished plan was read from. -/
theorem planOverrides_ok {prepared : List PreparedOverride}
    (h : Ends planOverrides published events (.ok prepared) published')
    (hpasses : Passes Performs Undisturbed files events files') : ∃ entries,
      manifestEntries (files (FileSystem.file overrideManifestPath)) = .ok entries ∧
        entries.Forall₂ (PlannedFrom files) prepared := by
  unfold planOverrides loadOverrideManifest at h
  obtain ⟨before, entries, published₁, after, rfl, hload, hrest⟩ := ends_bind_ok.mp h
  obtain ⟨files₁, hbefore, hafter⟩ := passes_append.mp hpasses
  rcases ends_perform_bind.mp hload with ⟨e, -, he, -⟩ | ⟨bytes, tail, rfl, hparse⟩
  · cases he
  obtain ⟨rfl, htail⟩ := passes_read hbefore
  obtain ⟨rfl, hentries, rfl⟩ := ends_result.mp hparse
  obtain rfl := passes_nil.mp htail
  refine ⟨entries, hentries.symm, ?_⟩
  obtain ⟨before', prepared', published₂, after', rfl, hmap, hlast⟩ := ends_bind_ok.mp hrest
  obtain ⟨files₂, hbefore', -⟩ := passes_append.mp hafter
  obtain ⟨_, _, _, _, -, -, hlast⟩ := ends_bind_ok.mp hlast
  obtain ⟨_, _, _, _, -, -, hdone⟩ := ends_bind_ok.mp hlast
  obtain ⟨-, hprepared, -⟩ := ends_pure.mp hdone
  obtain rfl := Except.ok.inj hprepared
  exact plannedFrom_of_mapM hmap hbefore'

end Planning

/-! ## Publishing -/

/-- What one turn of the publishing loop does. -/
def TurnOutcome (override : PreparedOverride) (files files' : Files) : Except Thrown Bool → Prop
  | .error _ => files' = files
  | .ok true => files' = files.write override.targetPath (some override.sourceBytes)
  | .ok false => files (FileSystem.file override.targetPath) = some override.sourceBytes ∧ files' = files

theorem publishOverride_outcome {outcome : Except Thrown Bool}
    (h : Ends (publishOverride override) published events outcome published')
    (hpasses : Passes Performs Undisturbed files events files') :
    published' = published ∧ TurnOutcome override files files' outcome := by
  unfold publishOverride at h
  have hfence := quiet_publicationFence override
  split at h
  · obtain ⟨hsame, houtcome⟩ := publishExclusive_outcome hfence h hpasses
    refine ⟨hsame, ?_⟩
    match outcome, houtcome with
    | .error _, houtcome => exact houtcome
    | .ok true, houtcome => exact houtcome.2
    | .ok false, houtcome => exact houtcome
  split at h
  · -- the target holds the bytes already
    rcases Within.bind hfence h hpasses with ⟨e, rfl, rfl, rfl⟩ | ⟨_, after, hread, hpassesRead⟩
    · exact ⟨rfl, rfl⟩
    rcases ends_perform_bind.mp hread with ⟨e, rfl, rfl, rfl⟩ | ⟨current, rest, rfl, hchecked⟩
    · exact ⟨rfl, performs_quiet (show Quiet (.read override.targetPath) from rfl) (passes_single hpassesRead)⟩
    obtain ⟨rfl, hpassesRest⟩ := passes_read hpassesRead
    rcases ends_result_bind.mp hchecked with ⟨e, -, rfl, rfl, rfl⟩ | ⟨_, hcurrent, hdone⟩
    · exact ⟨rfl, passes_nil.mp hpassesRest⟩
    obtain ⟨rfl, rfl, rfl⟩ := ends_pure.mp hdone
    exact ⟨rfl, require_eq_ok.mp hcurrent, passes_nil.mp hpassesRest⟩
  · rcases ends_bind.mp h with ⟨e, hthrow, rfl⟩ | ⟨before, _, published₁, after, rfl, hpublish, hdone⟩
    · exact publishExpected_outcome hfence hthrow hpasses
    · obtain ⟨rfl, rfl, rfl⟩ := ends_pure.mp hdone
      rw [List.append_nil] at hpasses
      obtain ⟨rfl, -, hfiles⟩ := publishExpected_outcome hfence hpublish hpasses
      exact ⟨rfl, hfiles⟩

/-- The files after some overrides were published. -/
def applied (files : Files) (overrides : List PreparedOverride) : Files :=
  overrides.foldl (fun files override => files.write override.targetPath (some override.sourceBytes)) files

omit [UnicodeText] in
theorem applied_of_untouched {overrides : List PreparedOverride} {name : FileSystem.Name}
    (h : ∀ override ∈ overrides, FileSystem.file override.targetPath ≠ name) : applied files overrides name = files name := by
  induction overrides generalizing files with
  | nil => rfl
  | cons override overrides ih =>
      have hrest : applied (files.write override.targetPath (some override.sourceBytes)) overrides name =
          files.write override.targetPath (some override.sourceBytes) name :=
        ih fun other hother => h other (List.mem_cons_of_mem _ hother)
      exact hrest.trans (Files.write_of_ne _ _ (h override List.mem_cons_self))

/-- One turn of the loop with its record. -/
theorem publishAndRecord_outcome {outcome : Except Thrown Unit}
    (h : Ends (publishAndRecord override) published events outcome published')
    (hpasses : Passes Performs Undisturbed files events files') :
    (published' = published ++ [override] ∧ outcome = .ok () ∧
      files' = files.write override.targetPath (some override.sourceBytes)) ∨
    published' = published ∧ files' = files ∧
      (outcome = .ok () → files (FileSystem.file override.targetPath) = some override.sourceBytes) := by
  unfold publishAndRecord at h
  rcases ends_bind.mp h with ⟨e, hthrow, rfl⟩ | ⟨before, recorded, published₁, after, rfl, hturn, hrecord⟩
  · obtain ⟨rfl, rfl⟩ := publishOverride_outcome hthrow hpasses
    exact .inr ⟨rfl, rfl, nofun⟩
  obtain ⟨files₁, hbefore, hafter⟩ := passes_append.mp hpasses
  obtain ⟨rfl, hfiles⟩ := publishOverride_outcome hturn hbefore
  cases recorded with
  | true =>
      obtain ⟨rfl, rfl, rfl⟩ := ends_change.mp hrecord
      obtain rfl := passes_nil.mp hafter
      exact .inl ⟨rfl, rfl, hfiles⟩
  | false =>
      obtain ⟨rfl, rfl, rfl⟩ := ends_pure.mp hrecord
      obtain rfl := passes_nil.mp hafter
      exact .inr ⟨rfl, hfiles.2, fun _ => hfiles.1⟩

/-- The loop has published the overrides it has recorded, and at its end every target holds the bytes of its source. -/
theorem publishLoop_outcome {prepared : List PreparedOverride} {outcome : Except Thrown Unit}
    (h : Ends (prepared.forM publishAndRecord) published events outcome published')
    (hpasses : Passes Performs Undisturbed files events files') :
    ∃ added, published' = published ++ added ∧ added.Sublist prepared ∧ files' = applied files added ∧
      (outcome = .ok () → prepared.Pairwise (fun o o' : PreparedOverride =>
          FileSystem.file o.targetPath ≠ FileSystem.file o'.targetPath) →
        ∀ o ∈ prepared, files' (FileSystem.file o.targetPath) = some o.sourceBytes) := by
  induction prepared generalizing published events files with
  | nil =>
      obtain ⟨rfl, rfl, rfl⟩ := ends_pure.mp h
      exact ⟨[], (List.append_nil _).symm, .slnil, passes_nil.mp hpasses, fun _ _ => nofun⟩
  | cons override prepared ih =>
      change Ends (publishAndRecord override >>= fun _ => prepared.forM publishAndRecord) _ _ _ _ at h
      rcases ends_bind.mp h with ⟨e, hthrow, rfl⟩ | ⟨before, _, published₁, after, rfl, hturn, hrest⟩
      · rcases publishAndRecord_outcome hthrow hpasses with ⟨-, he, -⟩ | ⟨rfl, rfl, -⟩
        · cases he
        · exact ⟨[], (List.append_nil _).symm, List.nil_sublist _, rfl, nofun⟩
      obtain ⟨files₁, hbefore, hafter⟩ := passes_append.mp hpasses
      obtain ⟨added, rfl, hsublist, hfiles, hdone⟩ := ih hrest hafter
      -- no later override touches the target of this one
      have huntouched (hdistinct : (override :: prepared).Pairwise fun o o' : PreparedOverride =>
          FileSystem.file o.targetPath ≠ FileSystem.file o'.targetPath) :
          files' (FileSystem.file override.targetPath) = files₁ (FileSystem.file override.targetPath) := by
        rw [hfiles]
        refine applied_of_untouched fun o ho heq => ?_
        exact (List.pairwise_cons.mp hdistinct).1 o (hsublist.subset ho) heq.symm
      rcases publishAndRecord_outcome hturn hbefore with ⟨rfl, -, rfl⟩ | ⟨rfl, rfl, hheld⟩
      · refine ⟨override :: added, by rw [List.append_assoc]; rfl, hsublist.cons_cons _, hfiles, fun hok hdistinct => ?_⟩
        refine List.forall_mem_cons.mpr ⟨?_, hdone hok (List.pairwise_cons.mp hdistinct).2⟩
        rw [huntouched hdistinct, Files.write_self]
      · refine ⟨added, rfl, hsublist.cons _, hfiles, fun hok hdistinct => ?_⟩
        refine List.forall_mem_cons.mpr ⟨?_, hdone hok (List.pairwise_cons.mp hdistinct).2⟩
        rw [huntouched hdistinct]
        exact hheld rfl

/-! ## Rollback -/

/-- One compensation restores its target or is reported. -/
theorem compensate_outcome {outcome : Except Thrown (List RollbackFailure)}
    (h : Ends (compensate override) published events outcome published')
    (hpasses : Passes Performs Undisturbed files events files') :
    (outcome = .ok [] ∧ files' = files.write override.targetPath override.targetPreimage) ∨
      outcome = .ok [⟨override.entry.id, override.targetPath⟩] ∧ files' = files := by
  have hrollback {rolled : Except Thrown Unit} {tail : List Event} {published₁ : List PreparedOverride} {files₁ : Files}
      (hend : Ends (rollbackOverride override) published tail rolled published₁)
      (htail : Passes Performs Undisturbed files tail files₁) :
      ExpectedOutcome override.targetPath override.sourceBytes override.targetPreimage files files₁ rolled := by
    unfold rollbackOverride at hend
    split at hend
    · rename_i hpreimage
      rw [hpreimage]
      exact (deleteExpected_outcome hend htail).2
    · rename_i preimage hpreimage
      rw [hpreimage]
      exact (publishExpected_outcome (quiet_pure ()) hend htail).2
  unfold compensate at h
  rcases ends_tryCatch.mp h with ⟨failures, hdone, rfl⟩ | ⟨before, e, published₁, after, rfl, hthrow, hhandler⟩
  · obtain ⟨_, hend, rfl⟩ := ends_map_ok.mp hdone
    exact .inl ⟨rfl, (hrollback hend hpasses).2⟩
  · obtain ⟨rfl, rfl, rfl⟩ := ends_pure.mp hhandler
    rw [List.append_nil] at hpasses
    exact .inr ⟨rfl, hrollback (ends_map_error.mp hthrow) hpasses⟩

/-- Every file is given back its planned bytes, or was not touched, or is reported. -/
theorem rollback_outcome {overrides : List PreparedOverride} {outcome : Except Thrown (List RollbackFailure)}
    (h : Ends (rollbackPublishedOverrides overrides) published events outcome published')
    (hpasses : Passes Performs Undisturbed files events files') :
    ∃ failures, outcome = .ok failures ∧ ∀ name,
      (∃ o ∈ overrides, FileSystem.file o.targetPath = name ∧ files' name = o.targetPreimage) ∨
      (files' name = files name ∧ ∀ o ∈ overrides, FileSystem.file o.targetPath ≠ name) ∨
      ∃ failure ∈ failures, FileSystem.file failure.target = name := by
  induction overrides generalizing published events files outcome with
  | nil =>
      obtain ⟨rfl, rfl, rfl⟩ := ends_pure.mp h
      obtain rfl := passes_nil.mp hpasses
      exact ⟨[], rfl, fun name => .inr (.inl ⟨rfl, nofun⟩)⟩
  | cons override overrides ih =>
      unfold rollbackPublishedOverrides at h
      rcases ends_bind.mp h with ⟨e, hthrow, -⟩ | ⟨before, failed, published₁, after, rfl, hfirst, hrest⟩
      · rcases compensate_outcome hthrow hpasses with ⟨he, -⟩ | ⟨he, -⟩ <;> cases he
      obtain ⟨files₁, hbefore, hafter⟩ := passes_append.mp hpasses
      rcases ends_bind.mp hrest with ⟨e, hthrow, -⟩ | ⟨middle, others, published₂, last, rfl, hothers, hdone⟩
      · obtain ⟨failures, he, -⟩ := ih hthrow hafter
        cases he
      obtain ⟨rfl, rfl, rfl⟩ := ends_pure.mp hdone
      rw [List.append_nil] at hafter
      obtain ⟨failures, hfailures, hnames⟩ := ih hothers hafter
      obtain rfl := Except.ok.inj hfailures
      refine ⟨failed ++ others, rfl, fun name => ?_⟩
      rcases hnames name with ⟨o, ho, hname, hrestored⟩ | ⟨hsame, huntouched⟩ | ⟨failure, hfailure, hname⟩
      · exact .inl ⟨o, List.mem_cons_of_mem _ ho, hname, hrestored⟩
      · by_cases htarget : FileSystem.file override.targetPath = name
        · rcases compensate_outcome hfirst hbefore with ⟨-, hfiles⟩ | ⟨hfailed, -⟩
          · refine .inl ⟨override, List.mem_cons_self, htarget, ?_⟩
            rw [hsame, hfiles, ← htarget, Files.write_self]
          · obtain rfl := Except.ok.inj hfailed
            exact .inr (.inr ⟨_, List.mem_append_left _ (List.mem_singleton_self _), htarget⟩)
        · refine .inr (.inl ⟨?_, List.forall_mem_cons.mpr ⟨htarget, huntouched⟩⟩)
          rcases compensate_outcome hfirst hbefore with ⟨-, hfiles⟩ | ⟨-, hfiles⟩
          · rw [hsame, hfiles, Files.write_of_ne _ _ htarget]
          · rw [hsame, hfiles]
      · exact .inr (.inr ⟨failure, List.mem_append_right _ hfailure, hname⟩)

/-- A rollback of what was applied leaves the reported targets only. -/
theorem recoverOverrides_outcome {failure : Thrown} {outcome : Except Thrown Unit}
    (hplanned : ∀ o ∈ published, files (FileSystem.file o.targetPath) = o.targetPreimage)
    (h : Ends (recoverOverrides failure) published events outcome published')
    (hpasses : Passes Performs Undisturbed (applied files published) events files') :
    ∃ e, outcome = .error e ∧ ∀ name, files' name = files name ∨
      e.code = some (Text.ofString "OVERRIDE-APPLY-002") ∧
        ∃ reported ∈ e.rollbackFailures, FileSystem.file reported.target = name := by
  unfold recoverOverrides at h
  rcases ends_bind.mp (ends_current_bind.mp h) with ⟨e, hthrow, -⟩ | ⟨before, failures, published₁, after, rfl, hroll, hlast⟩
  · obtain ⟨failures, he, -⟩ := rollback_outcome hthrow hpasses
    cases he
  obtain ⟨files₁, hbefore, hafter⟩ := passes_append.mp hpasses
  obtain ⟨failures', hfailures, hnames⟩ := rollback_outcome hroll hbefore
  obtain rfl := Except.ok.inj hfailures
  have hrestored (name : FileSystem.Name) : files₁ name = files name ∨
      ∃ reported ∈ failures, FileSystem.file reported.target = name := by
    rcases hnames name with ⟨o, ho, rfl, hfile⟩ | ⟨hsame, huntouched⟩ | hreported
    · exact .inl (hfile.trans (hplanned o (List.mem_reverse.mp ho)).symm)
    · refine .inl (hsame.trans (applied_of_untouched fun o ho => huntouched o (List.mem_reverse.mpr ho)))
    · exact .inr hreported
  split at hlast
  · obtain ⟨rfl, rfl, rfl⟩ := ends_throw.mp hlast
    obtain rfl := passes_nil.mp hafter
    exact ⟨_, rfl, fun name => (hrestored name).imp_right fun hreported => ⟨rfl, hreported⟩⟩
  · rename_i hnone
    obtain ⟨rfl, rfl, rfl⟩ := ends_throw.mp hlast
    obtain rfl := passes_nil.mp hafter
    refine ⟨_, rfl, fun name => .inl ((hrestored name).resolve_right ?_)⟩
    rw [not_not.mp hnone]
    rintro ⟨reported, hmem, -⟩
    cases hmem

end SecPlatform.Overrides
