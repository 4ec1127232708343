import SecPlatform.WorkSelection.Lemmas.Evaluation
import SecPlatform.WorkSelection.Lemmas.Reordering

/-!
# The best candidate is selected

Unless the current work comes first, the decision selects the best eligible candidate, provided that no uncertain one is
better, and it accounts for every other candidate. The order in which the input lists its candidates does not matter.
-/

namespace SecPlatform.WorkSelection

open Contracts

/-! ## Cases of the current work -/

/-- What is decided before any candidate is looked at. -/
def LifecycleCase (current : CurrentWorkLifecycle) : Prop :=
  (current.activeState = .incomplete ∧ current.activeLegality = .legal) ∨ current.closeoutState = .required ∨
    (current.controlState = .conflict ∨ current.mainHealthState = .unhealthy ∨ current.activeLegality = .invalid) ∨
    (current.activeState = .unresolved ∨ current.activeLegality = .unresolved ∨ current.mainHealthState = .unresolved ∨
      current.closeoutState = .unresolved ∨ current.controlState = .unresolved)

instance (current : CurrentWorkLifecycle) : Decidable (LifecycleCase current) := by
  unfold LifecycleCase
  infer_instance

theorem reconciliationReasons_eq_nil {current : CurrentWorkLifecycle} : reconciliationReasons current = [] ↔
    ¬(current.controlState = .conflict ∨ current.mainHealthState = .unhealthy ∨ current.activeLegality = .invalid) := by
  have hnil (values : List Text) : uniqueSorted values = [] ↔ values = [] := by
    simp only [List.eq_nil_iff_forall_not_mem, mem_uniqueSorted]
  rw [reconciliationReasons, hnil]
  simp only [List.append_eq_nil_iff, textIf_eq_nil, not_or, and_assoc]

theorem lifecycleDecision_eq_none {current : CurrentWorkLifecycle} :
    lifecycleDecision current = none ↔ ¬LifecycleCase current := by
  unfold lifecycleDecision
  constructor
  · intro h
    split at h
    · cases h
    rename_i hactive
    split at h
    · cases h
    rename_i hcloseout
    split at h
    · cases h
    rename_i hreconcile
    split at h
    · cases h
    rename_i hunresolved
    have hreconcile := reconciliationReasons_eq_nil.mp (not_ne_iff.mp hreconcile)
    rintro (⟨hincomplete, hlegal⟩ | hcase | hcase | hcase)
    · push Not at hreconcile hunresolved hactive
      cases hhealth : current.mainHealthState with
      | healthy =>
          cases hcontrol : current.controlState with
          | consistent => exact hactive hincomplete hlegal hhealth hcontrol
          | conflict => exact hreconcile.1 hcontrol
          | unresolved => exact hunresolved.2.2.2.2 hcontrol
      | unhealthy => exact hreconcile.2.1 hhealth
      | unresolved => exact hunresolved.2.2.1 hhealth
    · exact hcloseout hcase
    · exact hreconcile hcase
    · exact hunresolved hcase
  · intro h
    have hreconcile := reconciliationReasons_eq_nil.mpr fun hcase => h (.inr (.inr (.inl hcase)))
    rw [if_neg fun hcase => h (.inl ⟨hcase.1, hcase.2.1⟩), if_neg fun hcase => h (.inr (.inl hcase)),
      if_neg (not_ne_iff.mpr hreconcile), if_neg fun hcase => h (.inr (.inr (.inr hcase)))]

theorem mem_currentPreconditions {current : CurrentWorkLifecycle} {entry : WorkSelectionPrecondition}
    (h : entry ∈ currentPreconditions current) : entry.currentSpecRef = none := by
  unfold currentPreconditions at h
  simp only [mem_sortBy, List.mem_append, List.mem_map] at h
  rcases h with ((⟨_, -, rfl⟩ | ⟨_, -, rfl⟩) | ⟨_, -, rfl⟩) | ⟨_, -, rfl⟩ <;> rfl

/-- A case of the current work looks at no candidate. -/
theorem lifecycleDecision_eq_some {current : CurrentWorkLifecycle} {material : DecisionMaterial}
    (h : lifecycleDecision current = some material) :
    material.status ≠ .selectNext ∧ material.selectedCandidateRef = none ∧ material.rejectionWitnesses = [] ∧
      ∀ entry ∈ material.requiredPreconditions, entry.currentSpecRef = none := by
  unfold lifecycleDecision at h
  split at h
  · obtain rfl := Option.some.inj h
    exact ⟨nofun, rfl, rfl, fun entry hentry => nomatch hentry⟩
  split at h
  · obtain rfl := Option.some.inj h
    exact ⟨nofun, rfl, rfl, fun entry hentry => nomatch hentry⟩
  split at h
  · obtain rfl := Option.some.inj h
    exact ⟨nofun, rfl, rfl, fun entry hentry => nomatch hentry⟩
  split at h
  · obtain rfl := Option.some.inj h
    exact ⟨nofun, rfl, rfl, fun entry => mem_currentPreconditions⟩
  · cases h

/-! ## Selections -/

/-- An eligible candidate that no uncertain one precedes. -/
def Selects (candidates : List WorkCandidate) : Prop :=
  ∃ eligible ∈ candidates, isEligible eligible = true ∧
    ∀ uncertain ∈ candidates, isUncertain uncertain = true → ¬compareCandidateRank uncertain eligible < 0

/-- The best of the eligible candidates. -/
def Best (candidates : List WorkCandidate) (candidate : WorkCandidate) : Prop :=
  candidate ∈ candidates ∧ isEligible candidate = true ∧
    ∀ other ∈ candidates, isEligible other = true → other ≠ candidate → compareCandidateRank candidate other < 0

variable {candidates : List WorkCandidate}

theorem best_of_head? (haccepted : Accepted candidates) {candidate : WorkCandidate}
    (h : ((sortBy rank candidates).filter isEligible).head? = some candidate) : Best candidates candidate := by
  obtain ⟨hmem, heligible, hleast⟩ := head?_filter_sortBy h
  refine ⟨hmem, heligible, fun other hother hpast hne => ?_⟩
  refine compareCandidateRank_neg.mpr (lt_of_le_of_ne (hleast other hother hpast) fun hrank => hne ?_)
  exact List.inj_on_of_nodup_map haccepted.distinctWork hother hmem (workId_eq_of_rank hrank).symm

/-- The first eligible candidate is selected when the first uncertain one does not precede it. -/
theorem selects_iff {eligible : WorkCandidate} (heligible : ((sortBy rank candidates).filter isEligible).head? = some eligible) :
    Selects candidates ↔
      (((sortBy rank candidates).filter isUncertain).head?.filter (outranks · (some eligible))) = none := by
  obtain ⟨hmem, hkind, hleast⟩ := head?_filter_sortBy heligible
  constructor
  · rintro ⟨chosen, hchosen, hchosenKind, hfirst⟩
    refine Option.filter_eq_none_iff.mpr fun uncertain huncertain houtranks => ?_
    obtain ⟨humem, hukind, -⟩ := head?_filter_sortBy huncertain
    have hbefore : rank uncertain < rank eligible := compareCandidateRank_neg.mp (of_decide_eq_true houtranks)
    exact hfirst uncertain humem hukind
      (compareCandidateRank_neg.mpr (hbefore.trans_le (hleast chosen hchosen hchosenKind)))
  · intro hnone
    refine ⟨eligible, hmem, hkind, fun uncertain huncertain hukind hbefore => ?_⟩
    cases hfirst : ((sortBy rank candidates).filter isUncertain).head? with
    | none => exact head?_filter_sortBy_eq_none.mp hfirst uncertain huncertain hukind
    | some first =>
        obtain ⟨-, -, hleastUncertain⟩ := head?_filter_sortBy hfirst
        refine Option.filter_eq_none_iff.mp hnone first hfirst (decide_eq_true ?_)
        exact compareCandidateRank_neg.mpr
          ((hleastUncertain uncertain huncertain hukind).trans_lt (compareCandidateRank_neg.mp hbefore))

theorem selectionMaterial_select (haccepted : Accepted candidates) :
    ((selectionMaterial candidates).status = .selectNext ↔ Selects candidates) ∧
    ((selectionMaterial candidates).status = .selectNext → ∃ candidate, Best candidates candidate ∧
      (selectionMaterial candidates).selectedWorkId = some candidate.workId ∧
      (selectionMaterial candidates).selectedCandidateRef = some candidate.candidateRef) ∧
    ((selectionMaterial candidates).status ≠ .selectNext →
      (selectionMaterial candidates).selectedCandidateRef = none) := by
  unfold selectionMaterial
  dsimp only
  rw [ranked_eq_sortBy]
  cases heligible : ((sortBy rank candidates).filter isEligible).head? with
  | none =>
      have hnone : ¬Selects candidates := by
        rintro ⟨chosen, hchosen, hkind, -⟩
        exact head?_filter_sortBy_eq_none.mp heligible chosen hchosen hkind
      split
      · rename_i uncertain hfound
        have hstatus : (uncertainMaterial uncertain).1 ≠ .selectNext := by
          unfold uncertainMaterial
          split <;> decide
        exact ⟨⟨fun h => absurd h hstatus, fun h => absurd h hnone⟩, fun h => absurd h hstatus, fun _ => rfl⟩
      · rename_i h
        cases h
      · exact ⟨⟨nofun, fun h => absurd h hnone⟩, nofun, fun _ => rfl⟩
  | some eligible =>
      rw [selects_iff heligible]
      split
      · rename_i uncertain hfound
        have hstatus : (uncertainMaterial uncertain).1 ≠ .selectNext := by
          unfold uncertainMaterial
          split <;> decide
        refine ⟨⟨fun h => absurd h hstatus, fun h => ?_⟩, fun h => absurd h hstatus, fun _ => rfl⟩
        rw [hfound] at h
        cases h
      · rename_i chosen hnone h
        obtain rfl := Option.some.inj h
        exact ⟨⟨fun _ => hnone, fun _ => rfl⟩, fun _ => ⟨_, best_of_head? haccepted heligible, rfl, rfl⟩,
          fun h => absurd rfl h⟩
      · rename_i h
        cases h

/-! ## Accounts -/

/-- Every candidate is accounted for. -/
structure Accounted (candidates : List WorkCandidate) (material : DecisionMaterial) : Prop where
  witnessed : ∀ candidate ∈ candidates, material.rejectionWitnesses.count (evaluateWorkCandidate candidate) =
    if isEligible candidate = true then 0 else 1
  witnesses : ∀ witness ∈ material.rejectionWitnesses, ∃ candidate ∈ candidates,
    isEligible candidate = false ∧ witness = evaluateWorkCandidate candidate
  required : ∀ candidate ∈ candidates, isUncertain candidate = true →
    ∃ entry ∈ material.requiredPreconditions, entry.workId = candidate.workId
  blocked : ∀ entry ∈ material.requiredPreconditions, ∃ candidate ∈ candidates, entry.workId = candidate.workId ∧
    entry.blockerRef ∈ (evaluateWorkCandidate candidate).blockerRefs

theorem mem_rejectionWitnesses {witness : WorkCandidateDecision} : witness ∈ rejectionWitnesses candidates ↔
    ∃ candidate ∈ candidates, isEligible candidate = false ∧ witness = evaluateWorkCandidate candidate := by
  unfold rejectionWitnesses
  simp only [mem_sortBy, List.mem_map, List.mem_filter, Bool.not_eq_true', and_assoc, eq_comm (a := witness)]

theorem nodup_rejectionWitnesses (haccepted : Accepted candidates) : (rejectionWitnesses candidates).Nodup := by
  refine ((sortBy_perm _).nodup_iff).mpr (List.Nodup.of_map WorkCandidateDecision.workId ?_)
  rw [List.map_map]
  exact haccepted.distinctWork.sublist (List.filter_sublist.map _)

theorem mem_candidatePreconditions {entry : WorkSelectionPrecondition} : entry ∈ candidatePreconditions candidates ↔
    ∃ candidate ∈ candidates, entry ∈ preconditionsOf candidate (evaluateWorkCandidate candidate).status := by
  unfold candidatePreconditions
  rw [mem_sortBy, List.mem_flatMap]

theorem selectionMaterial_lists (candidates : List WorkCandidate) :
    (selectionMaterial candidates).rejectionWitnesses = rejectionWitnesses candidates ∧
      (selectionMaterial candidates).requiredPreconditions = candidatePreconditions candidates := by
  unfold selectionMaterial
  dsimp only
  split <;> exact ⟨rfl, rfl⟩

theorem accounted_selectionMaterial (haccepted : Accepted candidates) : Accounted candidates (selectionMaterial candidates) := by
  obtain ⟨hwitnesses, hpreconditions⟩ := selectionMaterial_lists candidates
  refine ⟨fun candidate hcandidate => ?_, ?_, ?_, ?_⟩
  · rw [hwitnesses]
    split
    · rename_i heligible
      refine List.count_eq_zero.mpr fun hmem => ?_
      obtain ⟨other, hother, hrejected, heq⟩ := mem_rejectionWitnesses.mp hmem
      have hwork : candidate.workId = other.workId := congrArg WorkCandidateDecision.workId heq
      obtain rfl := List.inj_on_of_nodup_map haccepted.distinctWork hcandidate hother hwork
      rw [heligible] at hrejected
      cases hrejected
    · rename_i hrejected
      refine List.count_eq_one_of_mem (nodup_rejectionWitnesses haccepted) ?_
      exact mem_rejectionWitnesses.mpr ⟨candidate, hcandidate, Bool.eq_false_iff.mpr hrejected, rfl⟩
  · rw [hwitnesses]
    exact fun witness => mem_rejectionWitnesses.mp
  · rw [hpreconditions]
    intro candidate hcandidate huncertain
    obtain ⟨entry, hentry⟩ := exists_precondition (haccepted.owned candidate hcandidate) huncertain
    exact ⟨entry, mem_candidatePreconditions.mpr ⟨candidate, hcandidate, hentry⟩,
      (blocked_of_mem_preconditionsOf hentry).1⟩
  · rw [hpreconditions]
    intro entry hentry
    obtain ⟨candidate, hcandidate, hmem⟩ := mem_candidatePreconditions.mp hentry
    exact ⟨candidate, hcandidate, blocked_of_mem_preconditionsOf hmem⟩

/-! ## Decisions -/

section Decide

variable [Sha256] {input : WorkSelectionInput} {material : DecisionMaterial}

theorem finalizeDecision_of_unselected (input : WorkSelectionInput) (h : material.selectedCandidateRef = none) :
    ∃ decision, finalizeDecision input material = .ok decision ∧ decision.material = material := by
  unfold finalizeDecision
  refine ⟨_, check_bind_eq_ok.mpr ⟨require_eq_ok.mpr fun hselected => hselected.1 h, rfl⟩, rfl⟩

/-- The selected candidate is found again under its ref. -/
theorem finalizeDecision_of_selected (haccepted : Accepted input.candidates) {candidate : WorkCandidate}
    (hcandidate : candidate ∈ input.candidates) (h : material.selectedCandidateRef = some candidate.candidateRef) :
    ∃ decision, finalizeDecision input material = .ok decision ∧ decision.material = material ∧
      decision.selectedCurrentSpecRef = some candidate.currentSpecRef ∧
      decision.selectedCurrentSpecRevision = some candidate.currentSpecRevision := by
  have hfound : (input.candidates.find? fun other => other.candidateRef = candidate.candidateRef) = some candidate := by
    cases hfind : input.candidates.find? fun other => other.candidateRef = candidate.candidateRef with
    | none => exact absurd (decide_eq_true rfl) (List.find?_eq_none.mp hfind candidate hcandidate)
    | some other =>
        have href := List.find?_some hfind
        exact congrArg some (List.inj_on_of_nodup_map haccepted.distinctRefs (List.mem_of_find?_eq_some hfind) hcandidate
          (of_decide_eq_true href))
  unfold finalizeDecision
  rw [h, Option.bind_some, hfound]
  exact ⟨_, check_bind_eq_ok.mpr ⟨require_eq_ok.mpr (fun hlost => nomatch hlost.2), rfl⟩, rfl, rfl, rfl⟩

/-- The candidate is the selected one, and nothing is open about it. -/
structure Selected (input : WorkSelectionInput) (decision : WorkDecision) (candidate : WorkCandidate) : Prop where
  best : Best input.candidates candidate
  selectable : Selectable candidate
  work : decision.material.selectedWorkId = some candidate.workId
  ref : decision.material.selectedCandidateRef = some candidate.candidateRef
  specRef : decision.selectedCurrentSpecRef = some candidate.currentSpecRef
  specRevision : decision.selectedCurrentSpecRevision = some candidate.currentSpecRevision

theorem decision_of_selection (haccepted : Accepted input.candidates) :
    ∃ decision, finalizeDecision input (selectionMaterial input.candidates) = .ok decision ∧
      decision.material = selectionMaterial input.candidates ∧
      (decision.material.status = .selectNext → ∃ candidate, Selected input decision candidate) := by
  obtain ⟨-, hselect, hunselected⟩ := selectionMaterial_select haccepted
  by_cases hstatus : (selectionMaterial input.candidates).status = .selectNext
  · obtain ⟨candidate, hbest, hwork, href⟩ := hselect hstatus
    obtain ⟨decision, hdecision, hmaterial, hspecRef, hspecRevision⟩ := finalizeDecision_of_selected haccepted hbest.1 href
    refine ⟨decision, hdecision, hmaterial, fun _ => ⟨candidate, hbest, ?_, ?_, ?_, hspecRef, hspecRevision⟩⟩
    · exact selectable_of_eligible (of_decide_eq_true hbest.2.1)
    · exact hmaterial ▸ hwork
    · exact hmaterial ▸ href
  · obtain ⟨decision, hdecision, hmaterial⟩ := finalizeDecision_of_unselected input (hunselected hstatus)
    exact ⟨decision, hdecision, hmaterial, fun hselected => absurd (hmaterial ▸ hselected) hstatus⟩

/-- An input in another order is decided alike. -/
theorem compileWorkDecision_reordered {value value' : Value} (h : parseWorkSelectionInput value = .ok input)
    (hreordered : ReorderedInput value value') : compileWorkDecision value' = compileWorkDecision value := by
  unfold compileWorkDecision
  rw [h, follows_parseWorkSelectionInput hreordered input h]

theorem compileWorkDecision_selects {value : Value} (h : parseWorkSelectionInput value = .ok input) :
    (∀ value', ReorderedInput value value' → compileWorkDecision value' = compileWorkDecision value) ∧
    ∃ decision, compileWorkDecision value = .ok decision ∧
      (decision.material.status = .selectNext ↔ ¬LifecycleCase input.current ∧ Selects input.candidates) ∧
      (decision.material.status = .selectNext → ∃ candidate, Selected input decision candidate) ∧
      (decision.material.status ≠ .selectNext → decision.material.selectedCandidateRef = none) ∧
      (¬LifecycleCase input.current → Accounted input.candidates decision.material) ∧
      (LifecycleCase input.current → decision.material.rejectionWitnesses = [] ∧
        ∀ entry ∈ decision.material.requiredPreconditions, entry.currentSpecRef = none) := by
  have haccepted := accepted_of_parse h
  refine ⟨fun _ => compileWorkDecision_reordered h, ?_⟩
  unfold compileWorkDecision
  rw [h, ok_bind]
  cases hlifecycle : lifecycleDecision input.current with
  | some material =>
      have hcase : LifecycleCase input.current := by
        by_contra hnone
        rw [lifecycleDecision_eq_none.mpr hnone] at hlifecycle
        cases hlifecycle
      obtain ⟨hstatus, hunselected, hwitnesses, hpreconditions⟩ := lifecycleDecision_eq_some hlifecycle
      obtain ⟨decision, hdecision, rfl⟩ := finalizeDecision_of_unselected input hunselected
      exact ⟨decision, hdecision, ⟨fun hselect => absurd hselect hstatus, fun hselect => absurd hcase hselect.1⟩,
        fun hselect => absurd hselect hstatus, fun _ => hunselected, fun hnone => absurd hcase hnone,
        fun _ => ⟨hwitnesses, hpreconditions⟩⟩
  | none =>
      have hnone := lifecycleDecision_eq_none.mp hlifecycle
      obtain ⟨hselects, -, hunselected⟩ := selectionMaterial_select haccepted
      obtain ⟨decision, hdecision, hmaterial, hselected⟩ := decision_of_selection haccepted
      refine ⟨decision, hdecision, ?_, hselected, ?_, fun _ => ?_, fun hcase => absurd hcase hnone⟩
      · rw [hmaterial, hselects]
        exact ⟨fun h => ⟨hnone, h⟩, And.right⟩
      · rw [hmaterial]
        exact hunselected
      · rw [hmaterial]
        exact accounted_selectionMaterial haccepted

end Decide

/-! ## A candidate that is blocked -/

def someDigest : Digest := ⟨Text.ofString "sha256:" ++ List.replicate 64 (unit '0'), isDigest_zeros⟩

/-- A focused candidate that is open, with its owner and its exit criteria. -/
def focusedCandidate (workId : Text) (readiness : WorkReadiness) : WorkCandidate where
  workId
  candidateRef := Text.cat ["candidate:", workId]
  currentSpecRef := Text.cat ["spec:", workId]
  currentSpecRevision := someDigest
  ownerRef := some "owner"
  kind := .focused
  lifecycle := .opened
  lifecycleRef := "lifecycle"
  priorityClass := .maintenanceRequired
  priorityEvidenceRefs := []
  readiness
  readinessRef := "readiness"
  prerequisiteFacts := []
  orderedAfterFacts := []
  conflictStatus := .clear
  conflictDecisionRefs := ["conflicts"]
  blockedReadySuccessorCount := 0
  roadmapDirect := false
  reproductionOrEvidenceFreshness := .fresh
  rootCauseState := .notRepeated
  rootCauseRef := "cause"
  scopeClosure := .closed
  exitCriteriaRef := some "exit"
  nearTermConsumerRef := none
  humanDecisionRef := none

/-- Two candidates, one of which is not ready, beside the active work. -/
def twoCandidates (active : Option Text) : WorkSelectionInput where
  identity := ⟨List.replicate 40 (unit '0'), someDigest, someDigest⟩
  current := ⟨active, active, if active = none then .none else .incomplete,
    if active = none then .notApplicable else .legal, .healthy, "health", .none, "closeout", .consistent, "control"⟩
  candidates := [focusedCandidate "a" .notReady, focusedCandidate "b" .ready]

/-- Without active work, the ready candidate is selected and the other one witnessed. -/
theorem compileWorkDecision_selects_ready :
    let _ : Sha256 := ⟨fun _ => someDigest⟩
    parseWorkSelectionInput (twoCandidates none).toValue = .ok (twoCandidates none) ∧
      ∃ decision, compileWorkDecision (twoCandidates none).toValue = .ok decision ∧
        Accounted (twoCandidates none).candidates decision.material := by
  intro hash
  have hparsed : parseWorkSelectionInput (twoCandidates none).toValue = .ok (twoCandidates none) := by decide
  obtain ⟨-, decision, hdecision, -, -, -, haccounted, -⟩ := compileWorkDecision_selects hparsed
  exact ⟨hparsed, decision, hdecision, haccounted (by decide)⟩

/-- Beside active work, the candidate that is not ready has no witness. -/
theorem compileWorkDecision_active :
    let _ : Sha256 := ⟨fun _ => someDigest⟩
    let input := twoCandidates (some "active")
    parseWorkSelectionInput input.toValue = .ok input ∧
      (∃ candidate ∈ input.candidates, isEligible candidate = false) ∧
      (compileWorkDecision input.toValue).map (fun decision => decision.material.rejectionWitnesses) = .ok [] := by
  decide

end SecPlatform.WorkSelection
