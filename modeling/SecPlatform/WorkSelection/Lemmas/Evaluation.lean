import SecPlatform.WorkSelection.Decision

/-!
# What an evaluation found

Every reason of a status comes from one finding of the candidate, and every precondition names what a finding is blocked
by.
-/

namespace SecPlatform.WorkSelection

open Contracts

variable {candidate : WorkCandidate}

/-! ## Statuses -/

theorem textIf_eq_nil {condition : Prop} [Decidable condition] {text : Text} :
    textIf condition text = [] ↔ ¬condition := by
  unfold textIf
  split <;> simp [*]

theorem mem_textIf {condition : Prop} [Decidable condition] {text entry : Text} :
    entry ∈ textIf condition text ↔ condition ∧ entry = text := by
  unfold textIf
  split <;> simp [*]

theorem status_eq (candidate : WorkCandidate) :
    (evaluateWorkCandidate candidate).status =
      (candidateStatus candidate ((candidateFindings candidate).flatMap Findings.rejected)
        ((candidateFindings candidate).flatMap Findings.unresolved)).1 := rfl

theorem blockerRefs_eq (candidate : WorkCandidate) :
    (evaluateWorkCandidate candidate).blockerRefs =
      uniqueSorted ((candidateFindings candidate).flatMap Findings.blockers ++
        (candidateStatus candidate ((candidateFindings candidate).flatMap Findings.rejected)
          ((candidateFindings candidate).flatMap Findings.unresolved)).2.2) := rfl

theorem eligible_iff : (evaluateWorkCandidate candidate).status = .eligible ↔
    (∀ found ∈ candidateFindings candidate, found.rejected = [] ∧ found.unresolved = []) ∧
      candidate.humanDecisionRef = none := by
  rw [status_eq, candidateStatus]
  constructor
  · intro h
    split at h
    · cases h
    rename_i hrejected
    split at h
    · cases h
    rename_i hunresolved
    split at h
    · cases h
    rename_i hhuman
    exact ⟨fun found hfound => ⟨List.flatMap_eq_nil_iff.mp (not_ne_iff.mp hrejected) found hfound,
      List.flatMap_eq_nil_iff.mp (not_ne_iff.mp hunresolved) found hfound⟩, hhuman⟩
  · rintro ⟨hclear, hhuman⟩
    rw [if_neg (not_ne_iff.mpr (List.flatMap_eq_nil_iff.mpr fun found hfound => (hclear found hfound).1)),
      if_neg (not_ne_iff.mpr (List.flatMap_eq_nil_iff.mpr fun found hfound => (hclear found hfound).2)), hhuman]

theorem exists_doubt (h : (evaluateWorkCandidate candidate).status = .unresolved) :
    ∃ found ∈ candidateFindings candidate, found.unresolved ≠ [] := by
  rw [status_eq, candidateStatus] at h
  split at h
  · cases h
  split at h
  · rename_i hunresolved
    by_contra hnone
    push Not at hnone
    exact hunresolved (List.flatMap_eq_nil_iff.mpr hnone)
  · split at h <;> cases h

theorem exists_human (h : (evaluateWorkCandidate candidate).status = .humanRequired) :
    ∃ decision, candidate.humanDecisionRef = some decision ∧
      decision ∈ (evaluateWorkCandidate candidate).blockerRefs := by
  rw [status_eq, candidateStatus] at h
  split at h
  · cases h
  rename_i hrejected
  split at h
  · cases h
  rename_i hunresolved
  split at h
  · rename_i decision hdecision
    refine ⟨decision, hdecision, ?_⟩
    rw [blockerRefs_eq, candidateStatus, if_neg hrejected, if_neg hunresolved, hdecision]
    exact mem_uniqueSorted.mpr (List.mem_append_right _ (List.mem_singleton_self decision))
  · cases h

/-! ## Findings -/

theorem mem_blockerRefs (found : Findings) {ref : Text} (hfound : found ∈ candidateFindings candidate)
    (href : ref ∈ found.blockers) : ref ∈ (evaluateWorkCandidate candidate).blockerRefs := by
  rw [blockerRefs_eq, mem_uniqueSorted]
  exact List.mem_append_left _ (List.mem_flatMap.mpr ⟨found, hfound, href⟩)

theorem mem_candidateFindings {found : Findings} : found ∈ candidateFindings candidate ↔
    (found = lifecycleFindings candidate ∨ found = kindFindings candidate ∨ found = ownerFindings candidate ∨
      found = exitCriteriaFindings candidate ∨ found = readinessFindings candidate) ∨
    (∃ fact ∈ candidate.prerequisiteFacts,
      found = factFindings "prerequisite-unsatisfied" "prerequisite-unresolved" fact) ∨
    (∃ fact ∈ candidate.orderedAfterFacts, found = factFindings "ordered-after" "ordered-after-unresolved" fact) ∨
    found = conflictFindings candidate ∨ found = scopeFindings candidate ∨ found = evidenceFindings candidate ∨
      found = rootCauseFindings candidate := by
  unfold candidateFindings
  simp only [List.mem_append, List.mem_cons, List.mem_map, List.not_mem_nil, or_false, or_assoc, eq_comm]

theorem factFindings_clear {unsatisfied unresolved : Text} {fact : WorkDependencyFact}
    (hrejected : (factFindings unsatisfied unresolved fact).rejected = [])
    (hunresolved : (factFindings unsatisfied unresolved fact).unresolved = []) : fact.status = .satisfied := by
  unfold factFindings at hrejected hunresolved
  cases hstatus : fact.status with
  | satisfied => rfl
  | unsatisfied =>
      rw [hstatus] at hrejected
      cases hrejected
  | unresolved =>
      rw [hstatus] at hunresolved
      cases hunresolved

/-- Nothing is open about the candidate. -/
structure Selectable (candidate : WorkCandidate) : Prop where
  prerequisites : ∀ fact ∈ candidate.prerequisiteFacts, fact.status = .satisfied
  order : ∀ fact ∈ candidate.orderedAfterFacts, fact.status = .satisfied
  readiness : candidate.readiness = .ready
  conflict : candidate.conflictStatus = .clear
  scope : candidate.scopeClosure = .closed
  owner : candidate.ownerRef ≠ none
  exitCriteria : candidate.exitCriteriaRef ≠ none

theorem selectable_of_eligible (h : (evaluateWorkCandidate candidate).status = .eligible) : Selectable candidate := by
  have hclear := (eligible_iff.mp h).1
  exact {
    prerequisites := fun fact hfact => by
      obtain ⟨hrejected, hunresolved⟩ := hclear _ (mem_candidateFindings.mpr (.inr (.inl ⟨fact, hfact, rfl⟩)))
      exact factFindings_clear hrejected hunresolved
    order := fun fact hfact => by
      obtain ⟨hrejected, hunresolved⟩ := hclear _ (mem_candidateFindings.mpr (.inr (.inr (.inl ⟨fact, hfact, rfl⟩))))
      exact factFindings_clear hrejected hunresolved
    readiness := by
      obtain ⟨hrejected, hunresolved⟩ := hclear (readinessFindings candidate) (by simp [mem_candidateFindings])
      unfold readinessFindings at hrejected hunresolved
      cases hreadiness : candidate.readiness <;> simp_all [Findings.reject, Findings.doubt]
    conflict := by
      obtain ⟨hrejected, hunresolved⟩ := hclear (conflictFindings candidate) (by simp [mem_candidateFindings])
      unfold conflictFindings at hrejected hunresolved
      cases hconflict : candidate.conflictStatus <;> simp_all [Findings.reject, Findings.doubt]
    scope := by
      obtain ⟨hrejected, hunresolved⟩ := hclear (scopeFindings candidate) (by simp [mem_candidateFindings])
      unfold scopeFindings at hrejected hunresolved
      cases hscope : candidate.scopeClosure <;> simp_all [Findings.reject, Findings.doubt]
    owner := fun howner => by
      obtain ⟨hrejected, -⟩ := hclear (ownerFindings candidate) (by simp [mem_candidateFindings])
      simp [ownerFindings, howner, Findings.reject] at hrejected
    exitCriteria := fun hexit => by
      obtain ⟨hrejected, -⟩ := hclear (exitCriteriaFindings candidate) (by simp [mem_candidateFindings])
      simp [exitCriteriaFindings, hexit, Findings.reject] at hrejected }

/-! ## Preconditions -/

theorem mem_unresolvedFacts {facts : List WorkDependencyFact} {ref : Text} :
    ref ∈ unresolvedFacts facts ↔ ∃ fact ∈ facts, fact.status = .unresolved ∧ fact.ref = ref := by
  unfold unresolvedFacts
  simp only [List.mem_map, List.mem_filter, decide_eq_true_eq, and_assoc]

/-- What a precondition of a candidate is about. -/
inductive Doubts (candidate : WorkCandidate) : Text → Text → Prop
  | readiness : candidate.readiness = .unresolved → Doubts candidate "readiness-unresolved" candidate.readinessRef
  | prerequisite {fact : WorkDependencyFact} : fact ∈ candidate.prerequisiteFacts → fact.status = .unresolved →
      Doubts candidate "prerequisite-unresolved" fact.ref
  | order {fact : WorkDependencyFact} : fact ∈ candidate.orderedAfterFacts → fact.status = .unresolved →
      Doubts candidate "ordered-after-unresolved" fact.ref
  | conflict {ref : Text} : candidate.conflictStatus = .unresolved → ref ∈ candidate.conflictDecisionRefs →
      Doubts candidate "unresolved-conflict" ref
  | scope : candidate.scopeClosure = .unresolved → Doubts candidate "scope-unresolved" candidate.candidateRef
  | rootCause : candidate.rootCauseState = .unresolved →
      Doubts candidate "root-cause-unresolved" candidate.rootCauseRef

theorem mem_preconditionsOf_unresolved {entry : WorkSelectionPrecondition} :
    entry ∈ preconditionsOf candidate .unresolved ↔
      ∃ reason ref, Doubts candidate reason ref ∧ entry = precondition candidate reason ref := by
  unfold preconditionsOf
  simp only [if_true, reduceCtorEq, if_false, List.append_nil, List.mem_append, List.mem_map, mem_textIf,
    mem_unresolvedFacts]
  constructor
  · rintro (((((⟨_, ⟨h, rfl⟩, rfl⟩ | ⟨_, ⟨fact, hfact, h, rfl⟩, rfl⟩) | ⟨_, ⟨fact, hfact, h, rfl⟩, rfl⟩) | h) |
      ⟨_, ⟨h, rfl⟩, rfl⟩) | ⟨_, ⟨h, rfl⟩, rfl⟩)
    · exact ⟨_, _, .readiness h, rfl⟩
    · exact ⟨_, _, .prerequisite hfact h, rfl⟩
    · exact ⟨_, _, .order hfact h, rfl⟩
    · split at h
      · rename_i hconflict
        obtain ⟨ref, href, rfl⟩ := List.mem_map.mp h
        exact ⟨_, _, .conflict hconflict href, rfl⟩
      · cases h
    · exact ⟨_, _, .scope h, rfl⟩
    · exact ⟨_, _, .rootCause h, rfl⟩
  · rintro ⟨reason, ref, hdoubts, rfl⟩
    cases hdoubts with
    | readiness h => exact .inl (.inl (.inl (.inl (.inl ⟨_, ⟨h, rfl⟩, rfl⟩))))
    | prerequisite hfact h => exact .inl (.inl (.inl (.inl (.inr ⟨_, ⟨_, hfact, h, rfl⟩, rfl⟩))))
    | order hfact h => exact .inl (.inl (.inl (.inr ⟨_, ⟨_, hfact, h, rfl⟩, rfl⟩)))
    | conflict h href =>
        refine .inl (.inl (.inr ?_))
        rw [if_pos h]
        exact List.mem_map_of_mem href
    | scope h => exact .inl (.inr ⟨_, ⟨h, rfl⟩, rfl⟩)
    | rootCause h => exact .inr ⟨_, ⟨h, rfl⟩, rfl⟩

theorem mem_preconditionsOf_human {entry : WorkSelectionPrecondition} :
    entry ∈ preconditionsOf candidate .humanRequired ↔
      ∃ decision, candidate.humanDecisionRef = some decision ∧
        entry = precondition candidate "human-decision-required" decision := by
  unfold preconditionsOf
  simp only [reduceCtorEq, if_false, if_true, List.nil_append, List.mem_map, Option.mem_toList]
  exact ⟨fun ⟨decision, h, heq⟩ => ⟨decision, h, heq.symm⟩, fun ⟨decision, h, heq⟩ => ⟨decision, h, heq.symm⟩⟩

theorem blocked_of_doubts {reason ref : Text} (h : Doubts candidate reason ref) :
    ref ∈ (evaluateWorkCandidate candidate).blockerRefs := by
  cases h with
  | readiness h =>
      exact mem_blockerRefs (readinessFindings candidate) (by simp [mem_candidateFindings])
        (by simp [readinessFindings, h, Findings.doubt])
  | prerequisite hfact h =>
      exact mem_blockerRefs _ (mem_candidateFindings.mpr (.inr (.inl ⟨_, hfact, rfl⟩)))
        (by simp [factFindings, h, Findings.doubt])
  | order hfact h =>
      exact mem_blockerRefs _ (mem_candidateFindings.mpr (.inr (.inr (.inl ⟨_, hfact, rfl⟩))))
        (by simp [factFindings, h, Findings.doubt])
  | conflict h href =>
      exact mem_blockerRefs (conflictFindings candidate) (by simp [mem_candidateFindings])
        (by simpa [conflictFindings, h, Findings.doubt] using href)
  | scope h =>
      exact mem_blockerRefs (scopeFindings candidate) (by simp [mem_candidateFindings])
        (by simp [scopeFindings, h, Findings.doubt])
  | rootCause h =>
      exact mem_blockerRefs (rootCauseFindings candidate) (by simp [mem_candidateFindings])
        (by simp [rootCauseFindings, h, Findings.doubt])

/-- A precondition of a candidate names one of its blockers. -/
theorem blocked_of_mem_preconditionsOf {entry : WorkSelectionPrecondition}
    (h : entry ∈ preconditionsOf candidate (evaluateWorkCandidate candidate).status) :
    entry.workId = candidate.workId ∧ entry.blockerRef ∈ (evaluateWorkCandidate candidate).blockerRefs := by
  cases hstatus : (evaluateWorkCandidate candidate).status with
  | eligible =>
      rw [hstatus] at h
      cases h
  | rejected =>
      rw [hstatus] at h
      cases h
  | unresolved =>
      rw [hstatus] at h
      obtain ⟨reason, ref, hdoubts, rfl⟩ := mem_preconditionsOf_unresolved.mp h
      exact ⟨rfl, blocked_of_doubts hdoubts⟩
  | humanRequired =>
      rw [hstatus] at h
      obtain ⟨decision, hdecision, rfl⟩ := mem_preconditionsOf_human.mp h
      obtain ⟨decision', hdecision', hblocked⟩ := exists_human hstatus
      obtain rfl : decision = decision' := Option.some.inj (hdecision.symm.trans hdecision')
      exact ⟨rfl, hblocked⟩

theorem factFindings_doubt {unsatisfied unresolved : Text} {fact : WorkDependencyFact}
    (h : (factFindings unsatisfied unresolved fact).unresolved ≠ []) : fact.status = .unresolved := by
  unfold factFindings at h
  cases hstatus : fact.status with
  | satisfied => simp [hstatus, Findings.nothing] at h
  | unsatisfied => simp [hstatus, Findings.reject] at h
  | unresolved => rfl

/-- What is unresolved about a candidate is one of its doubts. -/
theorem exists_doubts {found : Findings} (hconflict : candidate.conflictDecisionRefs ≠ [])
    (hfound : found ∈ candidateFindings candidate) (h : found.unresolved ≠ []) : ∃ reason ref, Doubts candidate reason ref := by
  rcases mem_candidateFindings.mp hfound with (rfl | rfl | rfl | rfl | rfl) | ⟨fact, hfact, rfl⟩ | ⟨fact, hfact, rfl⟩ |
    rfl | rfl | rfl | rfl
  · refine absurd ?_ h
    unfold lifecycleFindings
    split_ifs <;> rfl
  · refine absurd ?_ h
    unfold kindFindings
    split_ifs <;> rfl
  · refine absurd ?_ h
    unfold ownerFindings
    split_ifs <;> rfl
  · refine absurd ?_ h
    unfold exitCriteriaFindings
    split_ifs <;> rfl
  · cases hreadiness : candidate.readiness with
    | unresolved => exact ⟨_, _, .readiness hreadiness⟩
    | ready => simp [readinessFindings, hreadiness, Findings.nothing] at h
    | notReady => simp [readinessFindings, hreadiness, Findings.reject] at h
  · exact ⟨_, _, .prerequisite hfact (factFindings_doubt h)⟩
  · exact ⟨_, _, .order hfact (factFindings_doubt h)⟩
  · cases hstatus : candidate.conflictStatus with
    | unresolved =>
        obtain ⟨ref, href⟩ := List.exists_mem_of_ne_nil _ hconflict
        exact ⟨_, _, .conflict hstatus href⟩
    | clear => simp [conflictFindings, hstatus, Findings.nothing] at h
    | writeConflict | resourceConflict | authorityConflict => simp [conflictFindings, hstatus, Findings.reject] at h
  · cases hscope : candidate.scopeClosure with
    | unresolved => exact ⟨_, _, .scope hscope⟩
    | closed => simp [scopeFindings, hscope, Findings.nothing] at h
    | opened => simp [scopeFindings, hscope, Findings.reject] at h
  · refine absurd ?_ h
    unfold evidenceFindings
    split_ifs <;> rfl
  · by_cases hroot : candidate.rootCauseState = .unresolved
    · exact ⟨_, _, .rootCause hroot⟩
    · simp [rootCauseFindings, hroot, Findings.nothing] at h

/-- An uncertain candidate has a precondition. -/
theorem exists_precondition (hconflict : candidate.conflictDecisionRefs ≠ []) (h : isUncertain candidate = true) :
    ∃ entry, entry ∈ preconditionsOf candidate (evaluateWorkCandidate candidate).status := by
  unfold isUncertain at h
  rcases Bool.or_eq_true_iff.mp h with h | h
  · have hstatus := of_decide_eq_true h
    obtain ⟨found, hfound, hunresolved⟩ := exists_doubt hstatus
    obtain ⟨reason, ref, hdoubts⟩ := exists_doubts hconflict hfound hunresolved
    rw [hstatus]
    exact ⟨_, mem_preconditionsOf_unresolved.mpr ⟨reason, ref, hdoubts, rfl⟩⟩
  · have hstatus := of_decide_eq_true h
    obtain ⟨decision, hdecision, -⟩ := exists_human hstatus
    rw [hstatus]
    exact ⟨_, mem_preconditionsOf_human.mpr ⟨decision, hdecision, rfl⟩⟩

end SecPlatform.WorkSelection

/-!
## The rank order

The comparison of two candidates is that of two tuples, so that it is a linear order on candidates of distinct work.
-/

namespace SecPlatform.WorkSelection

open Contracts

theorem compareCodeUnits_neg {left right : Text} : compareCodeUnits left right < 0 ↔ left < right := by
  unfold compareCodeUnits
  split
  · simp [*]
  · split <;> simp [*]

theorem compareCodeUnits_nonpos {left right : Text} : compareCodeUnits left right ≤ 0 ↔ left ≤ right := by
  unfold compareCodeUnits
  rcases lt_trichotomy left right with hlt | rfl | hlt
  · simp [hlt, hlt.le]
  · simp
  · simp [hlt, hlt.not_gt]

/-- What a candidate is compared by, the smaller the better. -/
def rank (candidate : WorkCandidate) : ℤ ×ₗ ℤ ×ₗ ℤ ×ₗ ℤ ×ₗ ℤ ×ₗ Text :=
  toLex (candidate.priorityClass.order, toLex (-(candidate.blockedReadySuccessorCount : ℤ),
    toLex (if candidate.roadmapDirect = true then 0 else 1, toLex (candidate.reproductionOrEvidenceFreshness.order,
      toLex (candidate.scopeClosure.order, candidate.workId)))))

theorem scopeOrder_injective : Function.Injective ScopeClosure.order := by
  intro left right h
  cases left <;> cases right <;> first | rfl | cases h

theorem direct_ne_iff {left right : Bool} :
    left ≠ right ↔ (if left = true then 0 else 1 : ℤ) ≠ if right = true then 0 else 1 := by
  cases left <;> cases right <;> decide

/-- One step of the comparison: a field decides unless it is equal. -/
theorem decides_iff {q : ℤ → Prop} {p next : Prop} [Decidable p] {difference rest left right : ℤ} (hp : p ↔ left ≠ right)
    (hdifference : p → (q difference ↔ left < right)) (hrest : q rest ↔ next) :
    q (if p then difference else rest) ↔ left < right ∨ left = right ∧ next := by
  by_cases h : p
  · rw [if_pos h, hdifference h]
    exact ⟨.inl, fun hstep => hstep.resolve_right fun hequal => hp.mp h hequal.1⟩
  · have hequal : left = right := not_ne_iff.mp fun hne => h (hp.mpr hne)
    rw [if_neg h, hrest]
    exact ⟨fun hnext => .inr ⟨hequal, hnext⟩, fun hstep => (hstep.resolve_left hequal.not_lt).2⟩

/-- The comparison of two candidates, down to their work. -/
theorem compareCandidateRank_iff {q : ℤ → Prop} (hq : ∀ d, d ≠ 0 → (q d ↔ d < 0)) {left right : WorkCandidate}
    {next : Prop} (hwork : q (compareCodeUnits left.workId right.workId) ↔ next) :
    q (compareCandidateRank left right) ↔
      left.priorityClass.order < right.priorityClass.order ∨ left.priorityClass.order = right.priorityClass.order ∧
      (-(left.blockedReadySuccessorCount : ℤ) < -(right.blockedReadySuccessorCount : ℤ) ∨
        -(left.blockedReadySuccessorCount : ℤ) = -(right.blockedReadySuccessorCount : ℤ) ∧
      ((if left.roadmapDirect = true then 0 else 1 : ℤ) < (if right.roadmapDirect = true then 0 else 1) ∨
        (if left.roadmapDirect = true then 0 else 1 : ℤ) = (if right.roadmapDirect = true then 0 else 1) ∧
      (left.reproductionOrEvidenceFreshness.order < right.reproductionOrEvidenceFreshness.order ∨
        left.reproductionOrEvidenceFreshness.order = right.reproductionOrEvidenceFreshness.order ∧
      (left.scopeClosure.order < right.scopeClosure.order ∨
        left.scopeClosure.order = right.scopeClosure.order ∧ next)))) := by
  unfold compareCandidateRank
  refine decides_iff (q := q) (by omega) (fun h => (hq _ h).trans (by omega)) ?_
  refine decides_iff (q := q) (by omega) (fun h => (hq _ (by omega)).trans (by omega)) ?_
  refine decides_iff (q := q) direct_ne_iff (fun h => ?_) ?_
  · rw [hq _ (by split <;> decide)]
    revert h
    cases left.roadmapDirect <;> cases right.roadmapDirect <;> decide
  refine decides_iff (q := q) (by omega) (fun h => (hq _ h).trans (by omega)) ?_
  refine decides_iff (q := q) scopeOrder_injective.ne_iff.symm (fun h => ?_) hwork
  have hne := scopeOrder_injective.ne h
  exact (hq _ (by omega)).trans (by omega)

theorem compareCandidateRank_neg {left right : WorkCandidate} :
    compareCandidateRank left right < 0 ↔ rank left < rank right := by
  simp only [rank, Prod.Lex.toLex_lt_toLex]
  exact compareCandidateRank_iff (q := (· < 0)) (fun _ _ => Iff.rfl) compareCodeUnits_neg

theorem compareCandidateRank_nonpos {left right : WorkCandidate} :
    compareCandidateRank left right ≤ 0 ↔ rank left ≤ rank right := by
  simp only [rank, Prod.Lex.toLex_le_toLex]
  exact compareCandidateRank_iff (q := (· ≤ 0)) (fun _ hd => lt_iff_le_and_ne.trans (and_iff_left hd) |>.symm)
    compareCodeUnits_nonpos

/-- The ranked candidates are those sorted by their rank. -/
theorem ranked_eq_sortBy (candidates : List WorkCandidate) :
    (candidates.insertionSort fun left right => compareCandidateRank left right ≤ 0) = sortBy rank candidates := by
  simp only [sortBy, compareCandidateRank_nonpos]

theorem workId_eq_of_rank {left right : WorkCandidate} (h : rank left = rank right) : left.workId = right.workId :=
  congrArg (fun key => (ofLex (ofLex (ofLex (ofLex (ofLex key).2).2).2).2).2) h

end SecPlatform.WorkSelection
