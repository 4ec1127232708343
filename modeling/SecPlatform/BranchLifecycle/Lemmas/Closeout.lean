import SecPlatform.BranchLifecycle.Closeout

/-!
# What a closeout without blockers shows

A sorted list without duplicates is empty only when the list is. Each group of blockers that is empty says what its checks
found, and a classification that succeeds has at most one ref for each branch.
-/

namespace SecPlatform.BranchLifecycle

open Contracts
open VerificationAction (LocaleText)

/-! ## Lists of blockers -/

theorem blockIf_eq_nil {condition : Prop} [Decidable condition] {blocker : Text} :
    blockIf condition blocker = [] ↔ ¬condition := by
  unfold blockIf entryIf
  split <;> simp [*]

theorem sortLocale_eq_nil [LocaleText] {values : List Text} : sortLocale values = [] ↔ values = [] := by
  have hperm := List.perm_insertionSort (fun left right => LocaleText.localeCompare left right ≠ .gt) values
  constructor
  · intro h
    exact (h ▸ hperm : [].Perm values).nil_eq.symm
  · rintro rfl
    exact hperm.eq_nil

theorem uniqueLocale_eq_nil [LocaleText] {values : List Text} : uniqueLocale values = [] ↔ values = [] := by
  rw [uniqueLocale, sortLocale_eq_nil]
  constructor
  · intro h
    refine List.eq_nil_iff_forall_not_mem.mpr fun value hvalue => ?_
    have hmem := List.mem_eraseDups.mpr hvalue
    rw [h] at hmem
    cases hmem
  · rintro rfl
    exact List.eraseDups_nil

theorem matchingWorktrees_eq_nil [LocaleText] {inventory : BranchLifecycleInventory} {branch : Text}
    (h : matchingWorktrees inventory branch = []) : ∀ worktree ∈ inventory.worktrees, worktree.branch ≠ some branch := by
  intro worktree hworktree hbranch
  have hmem : worktree ∈ matchingWorktrees inventory branch := (List.mem_insertionSort _).mpr
    (List.mem_filter.mpr ⟨hworktree, decide_eq_true hbranch⟩)
  rw [h] at hmem
  cases hmem

/-! ## Refs -/

/-- The branch has a ref in the list, and all its refs are at the commit. -/
def RefAt (refs : List BranchRefObservation) (branch sha : Text) : Prop :=
  (∃ ref ∈ refs, ref.branch = branch) ∧ ∀ ref ∈ refs, ref.branch = branch → ref.sha = sha

theorem mapRef_eq_ok {label : Text} {result next : OrderedMap Text Text} {entry : BranchRefObservation}
    (h : mapRef label result entry = .ok next) :
    entry.branch ∉ result.keys ∧ next = result.set entry.branch entry.sha := by
  unfold mapRef at h
  obtain ⟨-, h⟩ := check_bind_eq_ok.mp h
  obtain ⟨-, h⟩ := check_bind_eq_ok.mp h
  obtain ⟨hnew, h⟩ := check_bind_eq_ok.mp h
  refine ⟨fun hkey => ?_, (Except.ok.inj h).symm⟩
  have hhas := require_eq_ok.mp hnew
  rw [OrderedMap.has_iff.mpr hkey] at hhas
  cases hhas

/-- The refs of a list that was mapped have distinct branches. -/
theorem nodup_of_mapRefs {refs : List BranchRefObservation} {label : Text} {result : OrderedMap Text Text}
    (h : mapRefs refs label = .ok result) : (refs.map BranchRefObservation.branch).Nodup := by
  have hpairwise := foldlM_pairwise (R := fun left right : BranchRefObservation => left.branch ≠ right.branch)
    (P := fun refs (result : OrderedMap Text Text) => ∀ ref ∈ refs, ref.branch ∈ result.keys)
    (fun refs result entry next hseen hturn => ?_) (fun ref href => nomatch href) h
  · exact List.pairwise_map.mpr hpairwise.1
  obtain ⟨hnew, rfl⟩ := mapRef_eq_ok hturn
  refine ⟨fun ref href heq => hnew (heq ▸ hseen ref href), fun ref href => ?_⟩
  refine OrderedMap.mem_keys_set.mpr ?_
  rcases List.mem_append.mp href with href | href
  · exact .inr (hseen ref href)
  · exact .inl (congrArg BranchRefObservation.branch (List.mem_singleton.mp href))

theorem refAt_of_find? {refs : List BranchRefObservation} {branch : Text} {ref : BranchRefObservation}
    (hnodup : (refs.map BranchRefObservation.branch).Nodup) (h : refs.find? (fun ref => ref.branch = branch) = some ref) :
    RefAt refs branch ref.sha := by
  have hfound := List.find?_some h
  have hbranch : ref.branch = branch := of_decide_eq_true hfound
  have hmem := List.mem_of_find?_eq_some h
  refine ⟨⟨ref, hmem, hbranch⟩, fun other hother heq => ?_⟩
  rw [List.inj_on_of_nodup_map hnodup hother hmem (heq.trans hbranch.symm)]

theorem branch_notMem_of_find? {refs : List BranchRefObservation} {branch : Text}
    (h : refs.find? (fun ref => ref.branch = branch) = none) : ∀ ref ∈ refs, ref.branch ≠ branch := by
  intro ref href hbranch
  exact List.find?_eq_none.mp h ref href (decide_eq_true hbranch)

theorem nodup_of_classifyBranchLifecycle [LocaleText] {inventory : BranchLifecycleInventory}
    {dispositions : List BranchLifecycleDispositionRecord} {classified : List ClassifiedBranchLifecycle}
    (h : classifyBranchLifecycle inventory dispositions = .ok classified) :
    (inventory.localBranches.map BranchRefObservation.branch).Nodup ∧
      (inventory.remoteBranches.map BranchRefObservation.branch).Nodup := by
  unfold classifyBranchLifecycle at h
  obtain ⟨localRefs, hlocal, h⟩ := bind_eq_ok.mp h
  obtain ⟨remoteRefs, hremote, -⟩ := bind_eq_ok.mp h
  exact ⟨nodup_of_mapRefs hlocal, nodup_of_mapRefs hremote⟩

theorem nodup_of_resolveClassification [LocaleText] {inventory : BranchLifecycleInventory} {branch : Text}
    {classified : ClassifiedBranchLifecycle} (h : resolveClassification inventory branch = .ok classified) :
    (inventory.localBranches.map BranchRefObservation.branch).Nodup ∧
      (inventory.remoteBranches.map BranchRefObservation.branch).Nodup := by
  unfold resolveClassification at h
  obtain ⟨entries, hentries, -⟩ := bind_eq_ok.mp h
  exact nodup_of_classifyBranchLifecycle hentries

/-! ## Actions -/

theorem remoteDecision_deleteCas {preparation : BranchCloseoutPreparation} {current : BranchLifecycleInventory}
    (h : (remoteDecision preparation current).1 = .deleteCas) :
    ∃ ref, remoteRef current preparation.branch = some ref ∧ ref.sha = preparation.expectedRemoteSha := by
  unfold remoteDecision at h
  split at h
  · cases h
  · rename_i ref href
    split at h
    · rename_i hsha
      exact ⟨ref, href, hsha⟩
    · cases h

theorem localDecision_deleteExact [LocaleText] {preparation : BranchCloseoutPreparation}
    {current : BranchLifecycleInventory} (h : (localDecision preparation current).1 = .deleteExact) :
    ∃ ref, localRef current preparation.branch = some ref ∧ preparation.expectedLocalSha = some ref.sha ∧
      ref.sha = preparation.expectedHeadSha := by
  unfold localDecision at h
  dsimp only at h
  split at h
  · cases h
  · cases h
  · rename_i ref expectedLocalSha href hexpected
    split at h
    · cases h
    · rename_i hsha
      obtain rfl := not_ne_iff.mp hsha
      split at h
      · cases h
      · rename_i hhead
        exact ⟨ref, href, hexpected, not_ne_iff.mp hhead⟩

/-! ## What the inventories show -/

/-- Nothing that the inventories show needs the branch, and the pull request is where the disposition has it. -/
structure Released [WorktreeCloseouts] (input : BranchCloseoutInput) : Prop where
  notDefault : input.preparation.branch ≠ input.current.repository.defaultBranch
  notActive : ¬(input.current.activeWorkPackage.state = .active ∧
    input.current.activeWorkPackage.branch = some input.preparation.branch)
  notBound : ∀ worktree ∈ input.current.worktrees, worktree.branch ≠ some input.preparation.branch
  notConsumed : ∀ pullRequest ∈ input.current.pullRequests, pullRequest.state = .opened →
    pullRequest.baseBranch ≠ input.preparation.branch ∧
      (pullRequest.isCrossRepository = false → pullRequest.headBranch ≠ input.preparation.branch)
  resolved : input.before.unknowns = [] ∧ input.current.unknowns = []
  settled : ∀ state, input.request.disposition.pullRequestState = some state →
    ∃ number pullRequest, input.preparation.pullRequestNumber = some number ∧
      currentPullRequest input.current number = some pullRequest ∧
      pullRequest.headBranch = input.preparation.branch ∧ pullRequest.headSha = input.preparation.pullRequestHead ∧
      pullRequest.state = state

theorem workPackageBlockers_eq_nil {preparation : BranchCloseoutPreparation} {current : BranchLifecycleInventory}
    (h : workPackageBlockers preparation current = []) :
    ¬(current.activeWorkPackage.state = .active ∧ current.activeWorkPackage.branch = some preparation.branch) := by
  unfold workPackageBlockers at h
  dsimp only at h
  split at h
  · cases h
  · assumption

theorem not_consumesBranch {branch : Text} {pullRequest : BranchPullRequestObservation}
    (h : consumesBranch branch pullRequest = false) (hopened : pullRequest.state = .opened) :
    pullRequest.baseBranch ≠ branch ∧ (pullRequest.isCrossRepository = false → pullRequest.headBranch ≠ branch) := by
  unfold consumesBranch at h
  rw [hopened] at h
  simp only [decide_true, Bool.true_and, Bool.or_eq_false_iff, Bool.and_eq_false_iff, decide_eq_false_iff_not] at h
  refine ⟨h.2, fun hown => ?_⟩
  rcases h.1 with hcross | hhead
  · rw [hown] at hcross
    cases hcross
  · exact hhead

theorem boundPullRequestBlockers_eq_nil {preparation : BranchCloseoutPreparation}
    {disposition : BranchCloseoutDisposition} {current : BranchLifecycleInventory}
    (h : boundPullRequestBlockers preparation disposition current = []) {state : PullRequestState}
    (hstate : disposition.pullRequestState = some state) :
    ∃ number pullRequest, preparation.pullRequestNumber = some number ∧
      currentPullRequest current number = some pullRequest ∧ pullRequest.headBranch = preparation.branch ∧
      pullRequest.headSha = preparation.pullRequestHead ∧ pullRequest.state = state := by
  unfold boundPullRequestBlockers at h
  rw [hstate] at h
  dsimp only at h
  split at h
  · cases h
  · rename_i number hnumber
    split at h
    · cases h
    · rename_i pullRequest hpullRequest
      obtain ⟨hidentity, hcurrent⟩ := List.append_eq_nil_iff.mp h
      have hidentity := not_or.mp (blockIf_eq_nil.mp hidentity)
      exact ⟨number, pullRequest, hnumber, hpullRequest, not_ne_iff.mp hidentity.1, not_ne_iff.mp hidentity.2,
        not_ne_iff.mp (blockIf_eq_nil.mp hcurrent)⟩

theorem worktreeBlockers_eq_nil [LocaleText] [WorktreeCloseouts] {input : BranchCloseoutInput}
    (h : worktreeBlockers input = []) : matchingWorktrees input.current input.preparation.branch = [] := by
  unfold worktreeBlockers at h
  dsimp only at h
  split at h
  · cases h
  · rename_i hnone
    exact not_ne_iff.mp hnone

/-- No blocker among the facts: the branch is released. -/
theorem released_of_factBlockers [LocaleText] [Sha256] [HostPaths] [WorktreeCloseouts] {input : BranchCloseoutInput}
    {classified : BranchLifecycleClassification} (h : factBlockers input classified = []) : Released input := by
  unfold factBlockers at h
  simp only [List.append_eq_nil_iff, blockIf_eq_nil] at h
  obtain ⟨⟨⟨⟨⟨⟨⟨⟨⟨⟨⟨⟨⟨⟨-, -⟩, hdefault⟩, -⟩, -⟩, -⟩, -⟩, -⟩, hbound⟩, hactive⟩, hconsumed⟩, hunknowns⟩, -⟩, -⟩,
    hworktrees⟩ := h
  exact {
    notDefault := hdefault
    notActive := workPackageBlockers_eq_nil hactive
    notBound := matchingWorktrees_eq_nil (worktreeBlockers_eq_nil hworktrees)
    notConsumed := fun pullRequest hpullRequest hopened => by
      refine not_consumesBranch ?_ hopened
      exact Bool.eq_false_iff.mpr fun hconsumes => hconsumed (List.any_eq_true.mpr ⟨pullRequest, hpullRequest, hconsumes⟩)
    resolved := ⟨not_ne_iff.mp (not_or.mp hunknowns).1, not_ne_iff.mp (not_or.mp hunknowns).2⟩
    settled := fun _ => boundPullRequestBlockers_eq_nil hbound }

end SecPlatform.BranchLifecycle
