import SecPlatform.Library.Related
import SecPlatform.Overrides.Lemmas.Run
import SecPlatform.Overrides.Lemmas.Overwriting

/-!
# Overrides are applied all or none

Without other writers a call has done everything or has left every file alone, apart from the targets it reports. With other
writers it overwrites no bytes that it does not know, as long as nobody comes between the check of a target and the request
behind it.
-/

namespace SecPlatform.Overrides

open Contracts
open CallM

section Calls

variable [FileSystem] [UnicodeText] [LocaleCase] [ManifestText]

/-- What a call has done by its end. -/
def AllOrNothing (files files' : Files) : Except Thrown Unit → Prop
  | .ok () => ∃ entries, manifestEntries (files (FileSystem.file overrideManifestPath)) = .ok entries ∧
      (∀ entry ∈ entries, ∃ sourcePath bytes, resolvePathInside overridesRoot entry.entry = some sourcePath ∧
        files (FileSystem.file sourcePath) = some bytes ∧ files' (FileSystem.file entry.target) = some bytes) ∧
      ∀ name, (∀ entry ∈ entries, FileSystem.file entry.target ≠ name) → files' name = files name
  | .error e => ∀ name, files' name = files name ∨ e.code = some (Text.ofString "OVERRIDE-APPLY-002") ∧
      ∃ reported ∈ e.rollbackFailures, FileSystem.file reported.target = name

/-- Where a call overwrites a file, it finds the planned bytes of an override, or the bytes of one that it has published. -/
def OverwritesKnown (others : Request → Files → Files → Prop) (files : Files) (events : List Event) : Prop :=
  ∀ before event after, events = before ++ event :: after → ∀ path, event.request.overwrites = some path →
    ∀ s₀ s₁, Passes PerformsUncertainly others files before s₀ → others event.request s₀ s₁ →
      ∃ planned prepared, Ends planOverrides [] planned (.ok prepared) [] ∧ planned <+: before ∧
        ∃ override ∈ prepared, override.targetPath = path ∧
          (s₁ (FileSystem.file path) = override.targetPreimage ∧ event.request = .replace path override.sourceBytes ∨
            s₁ (FileSystem.file path) = some override.sourceBytes ∧ ∃ earlier ∈ before, Publishes override earlier)

/-! ## Without other writers -/

omit [FileSystem] [UnicodeText] [LocaleCase] [ManifestText] in
/-- The paths of an override. -/
theorem overridePaths_ok {entry : OverrideEntry} {sourcePath targetPath : Text}
    (h : overridePaths entry = .ok (sourcePath, targetPath)) :
    resolvePathInside overridesRoot entry.entry = some sourcePath ∧ targetPath = entry.target := by
  unfold overridePaths at h
  split at h
  · rename_i source target hsource htarget
    obtain ⟨rfl, rfl⟩ := Prod.mk.inj (Except.ok.inj h)
    refine ⟨hsource, ?_⟩
    unfold resolvePathInside at htarget
    split at htarget
    · exact (Option.some.inj htarget).symm
    · cases htarget
  · cases h

omit [LocaleCase] [ManifestText] [UnicodeText] in
theorem targets_of_planned {files : Files} {entries : List OverrideEntry} {prepared : List PreparedOverride}
    (h : entries.Forall₂ (PlannedFrom files) prepared) :
    prepared.map PreparedOverride.targetPath = entries.map OverrideEntry.target := by
  induction h with
  | nil => rfl
  | cons hplanned _ ih => rw [List.map_cons, List.map_cons, ih, (overridePaths_ok hplanned.paths).2]

theorem allOrNothing_of_passes (hportable : Portable) {files files' : Files} {events : List Event}
    {outcome : Except Thrown Unit} {published : List PreparedOverride}
    (h : Ends applyOverrides [] events outcome published) (hpasses : Passes Performs Undisturbed files events files') :
    AllOrNothing files files' outcome := by
  unfold applyOverrides at h
  rcases ends_bind.mp h with ⟨e, hthrow, rfl⟩ | ⟨before, prepared, published₁, after, rfl, hplan, hpublish⟩
  · exact fun name => .inl (congrFun (Within.same quiet_planOverrides hthrow hpasses).2 name)
  obtain ⟨files₁, hbefore, hafter⟩ := passes_append.mp hpasses
  obtain ⟨rfl, rfl⟩ := Within.same quiet_planOverrides hplan hbefore
  obtain ⟨entries, hentries, hplanned⟩ := planOverrides_ok hplan hbefore
  rcases ends_tryCatch.mp hpublish with ⟨_, hloop, rfl⟩ | ⟨middle, failure, published₂, last, rfl, hloop, hrecover⟩
  · obtain ⟨added, -, hsublist, hfiles, hheld⟩ := publishLoop_outcome hloop hafter
    have htargets := targets_of_planned hplanned
    have hdistinct := files_distinct hportable (manifestEntries_targets hentries).1 (manifestEntries_targets hentries).2
    refine ⟨entries, hentries, fun entry hentry => ?_, fun name huntouched => ?_⟩
    · -- the files of the prepared targets are those of the entries
      have hpaths : prepared.Pairwise fun o o' : PreparedOverride =>
          FileSystem.file o.targetPath ≠ FileSystem.file o'.targetPath := by
        have hmap {α : Type} {f : α → Text} {xs : List α} :=
          List.pairwise_map (R := fun path path' => FileSystem.file path ≠ FileSystem.file path') (f := f) (l := xs)
        have hmapped := hmap.mpr hdistinct
        rw [← htargets] at hmapped
        exact hmap.mp hmapped
      obtain ⟨override, hoverride, hplan⟩ := forall₂_exists_right hplanned hentry
      obtain ⟨hsource, htarget⟩ := overridePaths_ok hplan.paths
      refine ⟨override.sourcePath, override.sourceBytes, hsource, hplan.source, ?_⟩
      rw [← htarget]
      exact hheld rfl hpaths override hoverride
    · rw [hfiles]
      refine applied_of_untouched fun override hoverride => ?_
      have hmem : override.targetPath ∈ entries.map OverrideEntry.target :=
        htargets ▸ List.mem_map_of_mem (hsublist.subset hoverride)
      obtain ⟨entry, hentry, htarget⟩ := List.mem_map.mp hmem
      exact htarget ▸ huntouched entry hentry
  · obtain ⟨files₂, hmiddle, hlast⟩ := passes_append.mp hafter
    obtain ⟨added, rfl, hsublist, rfl, -⟩ := publishLoop_outcome hloop hmiddle
    have hpreimages (o : PreparedOverride) (ho : o ∈ published₂) :
        files₁ (FileSystem.file o.targetPath) = o.targetPreimage := by
      obtain ⟨entry, -, hplan⟩ := forall₂_exists_left hplanned (hsublist.subset ho)
      exact hplan.target
    obtain ⟨e, rfl, hnames⟩ := recoverOverrides_outcome hpreimages hrecover hlast
    exact hnames

/-! ## With other writers -/

omit [UnicodeText] [LocaleCase] [ManifestText] in
/-- A file holds the bytes that a check has just found. -/
theorem passes_checked {others : Request → Files → Files → Prop} {files s₀ : Files} {earlier : List Event} {path : Text}
    {bytes : Bytes} (h : Passes PerformsUncertainly others files (earlier ++ [⟨.check path, .ok (some bytes)⟩]) s₀) :
    s₀ (FileSystem.file path) = some bytes := by
  obtain ⟨s, -, hcheck⟩ := passes_append.mp h
  obtain ⟨s₁, s₂, -, hperform, hnil⟩ := passes_cons.mp hcheck
  obtain rfl := passes_nil.mp hnil
  rcases hperform with hperform | ⟨e, he⟩
  · dsimp only at hperform
    generalize hanswer : (Except.ok (some bytes) : Except Thrown (Request.check path).Answer) = answer at hperform
    cases hperform with
    | threw => cases hanswer
    | check => exact (Except.ok.inj hanswer).symm
  · cases he

theorem overwritesKnown_of_ends {files : Files} {events : List Event} {outcome : Except Thrown Unit}
    {published : List PreparedOverride} (h : Ends applyOverrides [] events outcome published) :
    OverwritesKnown Leased files events := by
  intro before event after heq path hpath s₀ s₁ hpasses hleased
  unfold applyOverrides at h
  rcases ends_bind.mp h with ⟨e, hthrow, -⟩ | ⟨planned, prepared, published₁, rest, rfl, hplan, hpublish⟩
  · have hnone := overwrites_of_quiet ((quiet_planOverrides _ _ _ _ hthrow).2 event (heq ▸ by simp))
    rw [hnone] at hpath
    cases hpath
  obtain ⟨rfl, hquiet⟩ := quiet_planOverrides _ _ _ _ hplan
  rcases List.append_eq_append_iff.mp heq with ⟨middle, rfl, hrest⟩ | ⟨middle, rfl, hrest⟩
  · obtain ⟨earlier, bytes, rfl, hknown⟩ := publishOverrides_overwrites hpublish hrest hpath
    rw [← List.append_assoc] at hpasses
    have hheld : s₁ (FileSystem.file path) = some bytes := (hleased path hpath).trans (passes_checked hpasses)
    refine ⟨planned, prepared, hplan, List.prefix_append _ _, ?_⟩
    rcases hknown with ⟨override, hmem, hrequest, hpreimage⟩ | ⟨override, hmem, hrequest, rfl, publication, hearlier, hmade⟩
    · rw [hrequest] at hpath
      obtain rfl := Option.some.inj hpath
      exact ⟨override, hmem, rfl, .inl ⟨hheld.trans hpreimage.symm, hrequest⟩⟩
    · obtain rfl := Option.some.inj (hpath.symm.trans hrequest)
      refine ⟨override, hmem, rfl, .inr ⟨hheld, publication, ?_, hmade⟩⟩
      exact List.mem_append_right _ (List.mem_append_left _ hearlier)
  · -- the plan overwrites nothing
    cases middle with
    | nil =>
        have hfirst : rest = [] ++ event :: after := hrest.symm
        obtain ⟨_, _, hnil, -⟩ := publishOverrides_overwrites hpublish hfirst hpath
        exact absurd hnil.symm (List.append_ne_nil_of_right_ne_nil _ (List.cons_ne_nil _ _))
    | cons other middle =>
        obtain ⟨rfl, -⟩ := List.cons.inj hrest
        have hnone := overwrites_of_quiet (hquiet event (List.mem_append_right _ List.mem_cons_self))
        rw [hnone] at hpath
        cases hpath

/-! ## The whole call -/

/-- A call that nobody else disturbs has done everything or nothing, apart from the targets it reports. Whatever others do
between its requests, it overwrites only bytes that it knows, as long as they leave a target alone between the check of its
bytes and the request behind it. -/
theorem applyOverrides_allOrNothing (hportable : Portable) {files : Files} {events : List Event}
    {outcome : Except Thrown Unit} {published : List PreparedOverride}
    (h : Ends applyOverrides [] events outcome published) :
    (∀ files', Passes Performs Undisturbed files events files' → AllOrNothing files files' outcome) ∧
      OverwritesKnown Leased files events :=
  ⟨fun _ hpasses => allOrNothing_of_passes hportable h hpasses, overwritesKnown_of_ends h⟩

end Calls

/-! ## A workspace with one override -/

section Example

/-- The mappings of the language on ASCII text. -/
local instance asciiText : UnicodeText where
  toLowerCase := List.map fun c => if unit 'A' ≤ c && c ≤ unit 'Z' then c + 32 else c
  normalizeNFC := id

local instance asciiLocale : LocaleCase where
  toLocaleUpperCase := List.map fun c => if unit 'a' ≤ c && c ≤ unit 'z' then c - 32 else c
  toLocaleLowerCase := List.map fun c => if unit 'A' ≤ c && c ≤ unit 'Z' then c + 32 else c

local instance caseSensitiveFiles : FileSystem where
  Name := Text
  decidable := inferInstance
  file := id

def asciiBytes (value : String) : Bytes := value.toList.map fun c => c.toNat.toUInt8

def oneOverride : Bytes :=
  asciiBytes "overrides:\n- id: a\n  entry: patches/a\n  target: a\n  reason: example\n"

def oneOverrideValue : Value :=
  .obj [("overrides", .arr [.obj [("id", .str "a"), ("entry", .str "patches/a"), ("target", .str "a"),
    ("reason", .str "example")]])]

/-- A reader that knows one document. -/
local instance oneDocument : ManifestText where
  isExactUtf8 bytes := bytes.all (· < 128)
  parseYamlValue bytes := if bytes = oneOverride then .ok oneOverrideValue else .error (uncoded "YAML")

def overriddenWorkspace : Files := fun name =>
  if name = FileSystem.file "model/patches/override-manifest.yaml" then some oneOverride
  else if name = FileSystem.file "model/patches/patches/a" then some [1]
  else if name = FileSystem.file "a" then some [2]
  else none

/-- The call without other writers. -/
def soleRun : List Event × (Except Thrown Unit × List PreparedOverride) × Files :=
  Calls.runIn respond overriddenWorkspace (applyOverrides [] : Calls Request _ (Except Thrown Unit × List PreparedOverride))

theorem portable_caseSensitiveFiles : Portable := fun _ _ _ _ h => congrArg collisionKey h

theorem ends_soleRun : Ends applyOverrides [] soleRun.1 soleRun.2.1.1 soleRun.2.1.2 :=
  Calls.runs_runIn respond overriddenWorkspace _

theorem passes_soleRun : Passes Performs Undisturbed overriddenWorkspace soleRun.1 soleRun.2.2 :=
  Calls.passes_runIn performs_respond overriddenWorkspace _

theorem applyOverrides_allOrNothing_replaced :
    soleRun.2.1.1 = .ok () ∧ soleRun.2.2 (FileSystem.file "a") = some [1] ∧
      AllOrNothing overriddenWorkspace soleRun.2.2 soleRun.2.1.1 ∧
      OverwritesKnown Leased overriddenWorkspace soleRun.1 := by
  obtain ⟨hsole, hknown⟩ := @applyOverrides_allOrNothing _ _ _ _ portable_caseSensitiveFiles overriddenWorkspace _ _ _
    ends_soleRun
  exact ⟨by decide, by decide, hsole _ passes_soleRun, hknown⟩

/-- When another writer comes between the check of the target and its replacement, the replaced bytes are neither the planned
ones nor those of the source. -/
theorem applyOverrides_raced :
    Ends applyOverrides [] soleRun.1 soleRun.2.1.1 soleRun.2.1.2 ∧
      (∃ files', Passes Performs Unleased overriddenWorkspace soleRun.1 files') ∧
      ¬ OverwritesKnown Unleased overriddenWorkspace soleRun.1 := by
  refine ⟨ends_soleRun, ⟨_, passes_soleRun.mono (fun _ _ _ _ => trivial) fun _ _ _ _ => id⟩, fun hknown => ?_⟩
  have hlast : (soleRun.1.getLast?.map Calls.Event.request) = some (.replace "a" [1]) := by decide
  obtain ⟨event, hevent, hrequest⟩ := Option.map_eq_some_iff.mp hlast
  obtain ⟨before, hbefore⟩ := List.getLast?_eq_some_iff.mp hevent
  have hpasses := passes_soleRun
  rw [hbefore] at hpasses
  obtain ⟨s₀, hstart, -⟩ := passes_append.mp hpasses
  have hpath : event.request.overwrites = some (Text.ofString "a") := by rw [hrequest]; rfl
  -- the other writer puts bytes into the target that no file has had
  obtain ⟨planned, prepared, hplan, ⟨tail, rfl⟩, override, hmem, htarget, hheld⟩ := hknown before event [] hbefore _ hpath s₀
    (s₀.write "a" (some [9])) (hstart.mono (fun _ _ _ _ => trivial) fun _ _ _ _ => .inl) trivial
  obtain ⟨files₁, hplanned, -⟩ := passes_append.mp hstart
  obtain ⟨entries, -, hentries⟩ := planOverrides_ok hplan hplanned
  obtain ⟨entry, -, hfrom⟩ := forall₂_exists_left hentries hmem
  have hnew (name : FileSystem.Name) : overriddenWorkspace name ≠ some [9] := by
    unfold overriddenWorkspace
    split_ifs <;> decide
  rw [Files.write_self] at hheld
  rcases hheld with ⟨hpreimage, -⟩ | ⟨hsource, -⟩
  · exact hnew _ (hfrom.target.trans hpreimage.symm)
  · exact hnew _ (hfrom.source.trans hsource.symm)

end Example

end SecPlatform.Overrides
