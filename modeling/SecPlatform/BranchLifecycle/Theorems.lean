import SecPlatform.BranchLifecycle.Lemmas.Closeout

/-!
# A branch is deleted only when nothing needs it

A deletion that is authorized has no blocker, so every check of the authorization held, and the ref is where the
preparation left it. A closeout is completed only when both refs are gone and nothing failed.
-/

namespace SecPlatform.BranchLifecycle

open Contracts
open VerificationAction (LocaleText)

/-- An action that one blocker takes back stands only without blockers. -/
theorem standing_action {α : Type} {blockers : List Text} {action fallback wanted : α} [DecidableEq α]
    (hfallback : fallback ≠ wanted) (h : (if blockers ≠ [] ∧ action = wanted then fallback else action) = wanted) :
    blockers = [] ∧ action = wanted := by
  split at h
  · exact absurd h hfallback
  · rename_i hstands
    exact ⟨not_ne_iff.mp fun hblocked => hstands ⟨hblocked, h⟩, h⟩

section Authorize

variable [LocaleText] [Sha256] [HostPaths] [WorktreeCloseouts]

theorem authorizeBranchCloseout_eq_ok {input : BranchCloseoutInput} {authorization : BranchCloseoutAuthorization}
    (h : authorizeBranchCloseout input = .ok authorization) :
    ∃ classified, resolveClassification input.current input.preparation.branch = .ok classified ∧
      let remote := remoteDecision input.preparation input.current
      let localDecided := localDecision input.preparation input.current
      let blockers := factBlockers input classified.classification ++ remote.2 ++ localDecided.2.1
      authorization.blockers = uniqueLocale blockers ∧
      authorization.remoteAction = (if blockers ≠ [] ∧ remote.1 = .deleteCas then .blocked else remote.1) ∧
      authorization.localAction = if blockers ≠ [] ∧ localDecided.1 = .deleteExact then .blocked else localDecided.1 := by
  unfold authorizeBranchCloseout at h
  obtain ⟨classified, hclassified, h⟩ := bind_eq_ok.mp h
  refine ⟨classified, hclassified, ?_⟩
  dsimp only at h ⊢
  generalize remoteDecision input.preparation input.current = remote at h ⊢
  generalize localDecision input.preparation input.current = localDecided at h ⊢
  generalize factBlockers input classified.classification = found at h ⊢
  obtain rfl := Except.ok.inj h
  exact ⟨rfl, rfl, rfl⟩

/-- The remote ref is deleted where the preparation left it. -/
theorem remote_of_deleteCas {input : BranchCloseoutInput} {authorization : BranchCloseoutAuthorization}
    (h : authorizeBranchCloseout input = .ok authorization) (hdelete : authorization.remoteAction = .deleteCas) :
    authorization.blockers = [] ∧ Released input ∧
      RefAt input.current.remoteBranches input.preparation.branch input.preparation.expectedRemoteSha := by
  obtain ⟨classified, hclassified, hblockers, hremote, -⟩ := authorizeBranchCloseout_eq_ok h
  obtain ⟨hnone, haction⟩ := standing_action (by decide) (hremote.symm.trans hdelete)
  obtain ⟨ref, href, hsha⟩ := remoteDecision_deleteCas haction
  refine ⟨hblockers.trans (uniqueLocale_eq_nil.mpr hnone), ?_, ?_⟩
  · exact released_of_factBlockers (List.append_eq_nil_iff.mp (List.append_eq_nil_iff.mp hnone).1).1
  · exact hsha ▸ refAt_of_find? (nodup_of_resolveClassification hclassified).2 href

/-- The local ref is deleted where the preparation left it, at the recovered head. -/
theorem local_of_deleteExact {input : BranchCloseoutInput} {authorization : BranchCloseoutAuthorization}
    (h : authorizeBranchCloseout input = .ok authorization) (hdelete : authorization.localAction = .deleteExact) :
    authorization.blockers = [] ∧ Released input ∧
      input.preparation.expectedLocalSha = some input.preparation.expectedHeadSha ∧
      RefAt input.current.localBranches input.preparation.branch input.preparation.expectedHeadSha := by
  obtain ⟨classified, hclassified, hblockers, -, hlocal⟩ := authorizeBranchCloseout_eq_ok h
  obtain ⟨hnone, haction⟩ := standing_action (by decide) (hlocal.symm.trans hdelete)
  obtain ⟨ref, href, hexpected, hsha⟩ := localDecision_deleteExact haction
  refine ⟨hblockers.trans (uniqueLocale_eq_nil.mpr hnone), ?_, hsha ▸ hexpected, ?_⟩
  · exact released_of_factBlockers (List.append_eq_nil_iff.mp (List.append_eq_nil_iff.mp hnone).1).1
  · exact hsha ▸ refAt_of_find? (nodup_of_resolveClassification hclassified).1 href

end Authorize

/-! ## Completion -/

theorem refResidue_eq_nil {authorization : BranchCloseoutAuthorization} {attempts : List BranchCloseoutAttempt}
    {remote localRef : Option BranchRefObservation} (h : refResidue authorization attempts remote localRef = []) :
    remote = none ∧ (authorization.localAction ≠ .protectLocal → localRef = none) ∧
      ∀ attempt ∈ attempts, attempt.status ≠ .failed := by
  unfold refResidue at h
  obtain ⟨hrefs, hattempts⟩ := List.append_eq_nil_iff.mp h
  obtain ⟨hremote, hlocal⟩ := List.append_eq_nil_iff.mp hrefs
  refine ⟨?_, fun hprotects => ?_, fun attempt hattempt hfailed => ?_⟩
  · cases remote with
    | none => rfl
    | some ref => cases hremote
  · rw [if_pos hprotects] at hlocal
    cases localRef with
    | none => rfl
    | some ref => cases hlocal
  · have hkept := List.filter_eq_nil_iff.mp (List.map_eq_nil_iff.mp hattempts) attempt hattempt
    exact hkept (decide_eq_true hfailed)

/-- A closeout that is completed left nothing. -/
theorem deriveBranchCloseoutStatus_completed [LocaleText] {preparation : BranchCloseoutPreparation}
    {authorization : BranchCloseoutAuthorization} {attempts : List BranchCloseoutAttempt}
    {after : BranchLifecycleInventory} {residue : List Text}
    (h : deriveBranchCloseoutStatus preparation authorization attempts after = .ok (.completed, residue)) :
    authorization.blockers = [] ∧ (∀ attempt ∈ attempts, attempt.status ≠ .failed) ∧
      (∀ ref ∈ after.remoteBranches, ref.branch ≠ preparation.branch) ∧
      ∀ ref ∈ after.localBranches, ref.branch ≠ preparation.branch := by
  unfold deriveBranchCloseoutStatus at h
  split at h
  · cases h
  rename_i hblockers
  dsimp only at h
  obtain ⟨audit, -, h⟩ := bind_eq_ok.mp h
  split at h
  · cases h
  rename_i hresidue
  split at h
  · cases h
  rename_i hprotects
  obtain ⟨hremote, hlocal, hattempts⟩ := refResidue_eq_nil (List.append_eq_nil_iff.mp (not_ne_iff.mp hresidue)).1
  refine ⟨not_ne_iff.mp hblockers, hattempts, branch_notMem_of_find? hremote, branch_notMem_of_find? ?_⟩
  by_cases haction : authorization.localAction = .protectLocal
  · exact not_ne_iff.mp fun hpresent => hprotects ⟨hpresent, haction⟩
  · exact hlocal haction

/-! ## Safety -/

theorem branchDeletion_safe [LocaleText] [Sha256] [HostPaths] [WorktreeCloseouts] :
    (∀ (input : BranchCloseoutInput) authorization, authorizeBranchCloseout input = .ok authorization →
      (authorization.remoteAction = .deleteCas → authorization.blockers = [] ∧ Released input ∧
        RefAt input.current.remoteBranches input.preparation.branch input.preparation.expectedRemoteSha) ∧
      (authorization.localAction = .deleteExact → authorization.blockers = [] ∧ Released input ∧
        input.preparation.expectedLocalSha = some input.preparation.expectedHeadSha ∧
        RefAt input.current.localBranches input.preparation.branch input.preparation.expectedHeadSha)) ∧
    ∀ preparation authorization attempts after residue,
      deriveBranchCloseoutStatus preparation authorization attempts after = .ok (.completed, residue) →
      authorization.blockers = [] ∧ (∀ attempt ∈ attempts, attempt.status ≠ .failed) ∧
        (∀ ref ∈ after.remoteBranches, ref.branch ≠ preparation.branch) ∧
        ∀ ref ∈ after.localBranches, ref.branch ≠ preparation.branch :=
  ⟨fun _ _ h => ⟨remote_of_deleteCas h, local_of_deleteExact h⟩,
    fun _ _ _ _ _ => deriveBranchCloseoutStatus_completed⟩

/-! ## A merged branch -/

section MergedBranch

local instance mergedSha256 : Sha256 := ⟨fun _ => ⟨Text.ofString "sha256:" ++ List.replicate 64 (unit '0'), isDigest_zeros⟩⟩

local instance mergedLocaleText : LocaleText := ⟨fun left right => compareOfLessAndEq left right⟩

/-- Absolute paths of a host without dots, a candidate being outside unless it extends the parent. -/
local instance mergedHostPaths : HostPaths where
  isAbsolute path := decide (Text.ofString "/" <+: path)
  resolve path := path
  relative parent candidate :=
    if Text.cat [parent, "/"] <+: candidate then candidate.drop (parent.length + 1)
    else Text.cat ["..", candidate]
  sep := "/"

local instance mergedWorktreeCloseouts : WorktreeCloseouts := ⟨Empty, fun _ _ => false⟩

def mainSha : Text := List.replicate 40 (unit 'a')

def headSha : Text := List.replicate 40 (unit 'b')

/-- Before the closeout, and after it when the branch is gone. -/
def mergedInventory (branches : List BranchRefObservation) : BranchLifecycleInventory where
  repository := ⟨"/repo", "/repo/.git", "owner/repo", "origin", "main"⟩
  mainRemoteSha := some mainSha
  localBranches := ⟨"main", mainSha⟩ :: branches
  remoteBranches := ⟨"main", mainSha⟩ :: branches
  worktrees := []
  pullRequests := [⟨7, "topic", some headSha, "main", .merged, false⟩]
  activeWorkPackage := ⟨.none, none, none⟩
  repositorySetting := ⟨.resolved, some true, none⟩
  pruneConfiguration := ⟨.resolved, some true, some true, some true, none⟩
  unknowns := []

def mergedCloseout : BranchCloseoutInput where
  preparation := {
    schema := BRANCH_CLOSEOUT_PREPARATION_SCHEMA
    repository := ⟨"/repo", "/repo/.git", "owner/repo", "origin", "main"⟩
    branch := "topic"
    refState := .present
    expectedHeadSha := headSha
    expectedRemoteSha := headSha
    expectedLocalSha := some headSha
    expectedPrHeadSha := none
    pullRequestNumber := some 7
    pullRequestStateAtPreparation := some .merged
    recovery := ⟨"/recovery/topic.bundle", (Sha256.rawSha256 []).val, true, "ok", none⟩
    worktreePathsAtPreparation := []
    preparationDigest := (Sha256.rawSha256 []).val }
  request := ⟨BRANCH_REF_CLOSEOUT_CAPABILITY, .merged, .main, Text.cat ["main@", mainSha]⟩
  before := mergedInventory [⟨"topic", headSha⟩]
  current := mergedInventory [⟨"topic", headSha⟩]
  worktreeCleanupTokens := none
  expectedHeadTreeSha := none
  foreignWorktreeObservationDigests := none

def mergedAuthorization : BranchCloseoutAuthorization :=
  ⟨"topic", .mergedCloseout, .deleteCas, .deleteExact, [], []⟩

/-- Both refs of a merged branch may be deleted, and then the closeout is completed. -/
theorem branchDeletion_safe_merged :
    authorizeBranchCloseout mergedCloseout = .ok mergedAuthorization ∧ Released mergedCloseout ∧
      RefAt mergedCloseout.current.remoteBranches "topic" headSha ∧
      RefAt mergedCloseout.current.localBranches "topic" headSha ∧
      deriveBranchCloseoutStatus mergedCloseout.preparation mergedAuthorization [] (mergedInventory []) =
        .ok (.completed, []) ∧
      ∀ ref ∈ (mergedInventory []).localBranches, ref.branch ≠ Text.ofString "topic" := by
  have hauthorized : authorizeBranchCloseout mergedCloseout = .ok mergedAuthorization := by decide
  have hcompleted : deriveBranchCloseoutStatus mergedCloseout.preparation mergedAuthorization [] (mergedInventory []) =
      .ok (.completed, []) := by decide
  obtain ⟨hremote, hlocal⟩ := branchDeletion_safe.1 _ _ hauthorized
  exact ⟨hauthorized, (hremote rfl).2.1, (hremote rfl).2.2, (hlocal rfl).2.2.2, hcompleted,
    (branchDeletion_safe.2 _ _ _ _ _ hcompleted).2.2.2⟩

end MergedBranch

end SecPlatform.BranchLifecycle
