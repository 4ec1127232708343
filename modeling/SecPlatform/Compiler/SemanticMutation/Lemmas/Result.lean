import SecPlatform.Compiler.SemanticMutation.Result
import SecPlatform.Compiler.SemanticMutation.Lemmas.PlanInvariant

/-!
# Results that the builder makes

Every branch of the builder makes a result that the checker accepts.
-/

namespace SecPlatform.Compiler.SemanticMutation

open Contracts Semantics

/-! ## Comparisons -/

@[simp] theorem deltaEquals_self (delta : Option FactDelta) : deltaEquals delta delta = true := by
  cases delta <;> simp [deltaEquals]

@[simp] theorem impactEquals_self (impact : Option SemanticImpactPropagation) : impactEquals impact impact = true := by
  cases impact <;> simp [impactEquals]

theorem exactResultKeys_iff {result : SemanticMutationResultDraft} {required optional : List ResultKey} :
    exactResultKeys result required optional = true ↔
      ∀ key, if hasResultKey result key then key ∈ required ∨ key ∈ optional else key ∉ required := by
  rw [exactResultKeys, List.all_eq_true]
  have hall : ∀ key, key ∈ RESULT_KEYS := by
    intro key
    cases key <;> decide
  constructor
  · intro h key
    have hkey := h key (hall key)
    split at hkey <;> simp_all
  · intro h key _
    have hkey := h key
    split at hkey <;> simp_all

theorem bindsStaged_iff {plan : SemanticMutationPlanDraft} {attempted : SemanticMutationBase} :
    bindsStaged plan attempted = true ↔ plan.staged = some attempted := by
  rw [bindsStaged, Option.any_eq_true]
  constructor
  · rintro ⟨staged, hstaged, heq⟩
    rw [hstaged, canonicalEquals_base.mp heq]
  · exact fun h => ⟨attempted, h, canonicalEquals_self _⟩

section Revisions

variable [Sha256] {plan : SemanticMutationPlannedRequest} {verification : SemanticMutationVerificationExecutionRef}
  {attempted : SemanticMutationBase}

/-! ## Verification -/

/-- What a verification speaks of: the plan, the staged endpoint, the staged bytes and the required
verification. -/
structure BoundVerification (plan : SemanticMutationPlannedRequest)
    (verification : SemanticMutationVerificationExecutionRef) (change : SemanticMutationSourceChange)
    (requirements : List VerificationRequirement) : Prop where
  revision : verification.planRevision = plan.planRevision
  staged : plan.staged = some verification.attempted
  source : verification.stagedSourceDigest = change.stagedByteDigest
  required : verification.requiredVerificationDigest = semanticMutationRequiredVerificationDigest requirements

theorem verificationDiagnostic_eq_nil :
    verificationDiagnostic plan (some verification) (some attempted) = [] ↔
      verificationIsBound plan verification attempted = true := by
  unfold verificationDiagnostic
  split <;> simp_all

theorem boundVerification_of_isBound {change : SemanticMutationSourceChange}
    {requirements : List VerificationRequirement} (h : verificationIsBound plan verification attempted = true)
    (hchange : plan.sourceChanges = [change]) (hrequired : plan.requiredVerification = some requirements) :
    BoundVerification plan verification change requirements ∧ plan.staged = some attempted := by
  simp only [verificationIsBound, Bool.and_eq_true, decide_eq_true_eq, hchange, hrequired, List.head?_cons,
    Option.map_some, Option.some.injEq, Option.getD_some] at h
  obtain ⟨⟨⟨⟨⟨⟨⟨-, -⟩, hplan⟩, hattempted⟩, hstaged⟩, hsource⟩, hrequired⟩, -⟩ := h
  have hstaged := bindsStaged_iff.mp hstaged
  rw [← canonicalEquals_base.mp hattempted] at hstaged ⊢
  exact ⟨⟨hplan, hstaged, hsource, hrequired⟩, hstaged⟩

theorem executionDiagnostics_eq_nil {status : SemanticMutationResultStatus} :
    executionDiagnostics plan status attempted verification = [] ↔
      verificationIsBound plan verification attempted = true ∧ verification.status = .passed := by
  rw [executionDiagnostics, List.append_eq_nil_iff, verificationDiagnostic_eq_nil]
  split <;> simp [*]

/-! ## The base of a result -/

variable [EnglishLowerCase] {draft : SemanticMutationResultDraft}

/-- The common fields of a result are those of its plan, and its diagnostics are canonical. -/
structure ResultBase (draft : SemanticMutationResultDraft) (plan : SemanticMutationPlannedRequest) : Prop where
  contractVersion : draft.contractVersion = SEMANTIC_MUTATION_CONTRACT_VERSION
  requestId : draft.requestId = plan.requestId
  requestRevision : draft.requestRevision = plan.requestRevision
  planRevision : draft.planRevision = plan.planRevision
  base : draft.base = plan.base
  diagnostics : canonicalDiagnostics draft.diagnostics = .ok draft.diagnostics

theorem ResultBase.assert (h : ResultBase draft plan) : assertResultBase (finalizeResult draft) plan = .ok () := by
  have hdiagnostics : canonicalDiagnostics (finalizeResult draft).diagnostics = .ok draft.diagnostics := h.diagnostics
  simp only [assertResultBase, check_bind_eq_ok, require_eq_ok, hdiagnostics, ok_bind]
  refine ⟨⟨h.contractVersion, h.requestId, h.requestRevision, h.planRevision, ?_⟩, canonicalEquals_self _, rfl⟩
  rw [show (finalizeResult draft).base = plan.base from h.base]
  exact canonicalEquals_self _

/-- A result with the common fields of its plan passes when its own part does. -/
theorem assert_finalizeResult (hplan : assertSemanticMutationPlanInvariant (.planned plan) = .ok ())
    (hbase : ResultBase draft plan)
    (h : (if draft.status = .rejected then assertRejectedResult draft plan else assertVerifiedResult draft plan) = .ok ()) :
    assertSemanticMutationResultInvariant (finalizeResult draft) (.planned plan) = .ok () := by
  simp only [assertSemanticMutationResultInvariant, check_bind_eq_ok]
  exact ⟨hplan, hbase.assert, h⟩

/-! ## Rejections -/

omit [EnglishLowerCase] in
/-- What the checker asks of a rejection with the delta and the impact of its plan. -/
theorem assertRejectedResult_of {status : SemanticMutationResultStatus} {diagnostics : List SemanticMutationDiagnostic}
    {transactionId : Option Text} {attempted : Option SemanticMutationBase}
    {verification : Option SemanticMutationVerificationExecutionRef} (hdiagnostics : diagnostics ≠ [])
    (hattempted : ∀ a ∈ attempted, plan.staged = some a)
    (hverification : ∀ v ∈ verification, plan.rejectedAt = none ∧ ∃ a ∈ attempted, verificationIsBound plan v a = true) :
    assertRejectedResult { resultOf plan status diagnostics with
      transactionId := transactionId, attempted := attempted, verification := verification } plan = .ok () := by
  have hkeys : exactResultKeys { resultOf plan status diagnostics with
      transactionId := transactionId, attempted := attempted, verification := verification } []
      [.transactionId, .attempted, .actualDelta, .impact, .verification] = true := by
    refine exactResultKeys_iff.mpr fun key => ?_
    cases key <;> simp [hasResultKey, resultOf]
  have hbound : attempted.all (bindsStaged plan.toSemanticMutationPlanDraft) = true := by
    cases attempted with
    | none => rfl
    | some a => exact bindsStaged_iff.mpr (hattempted a rfl)
  have hverified : (verification.isNone || (plan.rejectedAt.isNone && attempted.isSome &&
      (verificationDiagnostic plan verification attempted).isEmpty)) = true := by
    cases verification with
    | none => rfl
    | some v =>
        obtain ⟨hready, a, ha, hv⟩ := hverification v rfl
        obtain rfl := Option.mem_def.mp ha
        simp [hready, verificationDiagnostic_eq_nil.mpr hv]
  simp only [assertRejectedResult, check_bind_eq_ok, require_eq_ok, Bool.and_eq_true]
  refine ⟨⟨⟨⟨⟨⟨⟨hkeys, ?_⟩, ?_⟩, ?_⟩, hbound⟩, hverified⟩, ?_⟩, deltaEquals_self _, impactEquals_self _⟩
  · simpa [resultOf] using hdiagnostics
  · simp [resultOf]
  · simp [resultOf]
  · exact canonicalEquals_self _

theorem rejectedPlanResult_accepted (hplan : assertSemanticMutationPlanInvariant (.planned plan) = .ok ())
    {result : SemanticMutationResult} (h : rejectedPlanResult plan = .ok result) :
    assertSemanticMutationResultInvariant result (.planned plan) = .ok () ∧ result.status = .rejected := by
  simp only [rejectedPlanResult, bind_eq_ok, require_eq_ok, pure_eq_ok, Except.ok.injEq] at h
  obtain ⟨diagnostics, hdiagnostics, -, hne, rfl⟩ := h
  refine ⟨assert_finalizeResult hplan ⟨rfl, rfl, rfl, rfl, rfl, canonicalDiagnostics_again hdiagnostics⟩ ?_, rfl⟩
  exact assertRejectedResult_of hne (by simp) (by simp)

theorem rejectedResult_accepted (hplan : assertSemanticMutationPlanInvariant (.planned plan) = .ok ())
    (hready : plan.rejectedAt = none) {transactionId : Option Text} {attempted : Option SemanticMutationBase}
    {verification : Option SemanticMutationVerificationExecutionRef} {diagnostics : List SemanticMutationDiagnostic}
    {result : SemanticMutationResult}
    (h : rejectedResult plan transactionId attempted verification diagnostics = .ok result) :
    assertSemanticMutationResultInvariant result (.planned plan) = .ok () ∧ result.status = .rejected := by
  simp only [rejectedResult, bind_eq_ok, require_eq_ok, pure_eq_ok, Except.ok.injEq] at h
  obtain ⟨given, -, -, hne, diagnostics, hdiagnostics, rfl⟩ := h
  refine ⟨assert_finalizeResult hplan ⟨rfl, rfl, rfl, rfl, rfl, canonicalDiagnostics_again hdiagnostics⟩ ?_, rfl⟩
  refine assertRejectedResult_of ?_ (fun a ha => ?_) (fun v hv => ⟨hready, ?_⟩)
  · intro hnil
    have hempty := (canonicalDiagnostics_eq_nil hdiagnostics).mp hnil
    simp only [List.append_eq_nil_iff] at hempty
    exact hne hempty.1.1
  · split at ha
    next hbound =>
      obtain rfl := Option.mem_def.mp ha
      exact bindsStaged_iff.mp hbound
    next => simp at ha
  · -- A verification is kept only with the endpoint it is bound to.
    cases verification with
    | none => simp at hv
    | some w =>
        simp only [Option.isNone_some, Bool.false_eq_true, if_false] at hv
        split at hv
        next hnil =>
          obtain rfl : w = v := by simpa using hv
          cases attempted with
          | none => simp [verificationDiagnostic] at hnil
          | some a =>
              have hbound := verificationDiagnostic_eq_nil.mp hnil
              refine ⟨a, ?_, hbound⟩
              have hstaged : bindsStaged plan.toSemanticMutationPlanDraft a = true := by
                simp only [verificationIsBound, Bool.and_eq_true] at hbound
                exact hbound.1.1.1.2
              simp [hstaged]
        next => simp at hv

/-! ## Verified terminals -/

omit [EnglishLowerCase] in
/-- What the checker asks of a terminal with the evidence of its ready plan. -/
theorem assertVerifiedResult_of {status : SemanticMutationResultStatus} {diagnostics : List SemanticMutationDiagnostic}
    {transactionId : Text} {accepted : Option SemanticMutationBase}
    {recoveryState : Option SemanticMutationRecoveryFailureState} {change : SemanticMutationSourceChange}
    {staged : SemanticMutationBase} {delta : FactDelta} {impact : SemanticImpactPropagation}
    {requirements : List VerificationRequirement}
    (hevidence : ReadyEvidence plan.toSemanticMutationPlanDraft change staged delta impact requirements)
    (hbound : verificationIsBound plan verification attempted = true) (hpassed : verification.status = .passed)
    (hstatus : status ≠ .rejected) (haccepted : accepted.isSome ↔ status = .accepted)
    (hrecovery : recoveryState.isSome ↔ status = .recoveryRequired)
    (hempty : status = .accepted ↔ diagnostics = [])
    (hcode : status = .recoveryRequired → ∃ d ∈ diagnostics, d.code = "SEMANTIC-MUTATION-012")
    (hendpoint : ∀ a ∈ accepted, a.inputRevision = attempted.inputRevision ∧
      a.semanticRevision = attempted.semanticRevision) :
    assertVerifiedResult { resultOf plan status diagnostics with
      transactionId := some transactionId, attempted := some attempted, accepted := accepted,
      verification := some verification, recoveryState := recoveryState } plan = .ok () := by
  have hkeys : exactResultKeys { resultOf plan status diagnostics with
      transactionId := some transactionId, attempted := some attempted, accepted := accepted,
      verification := some verification, recoveryState := recoveryState } (requiredResultKeys status) = true := by
    have hdelta : plan.actualDelta.isSome := by simp [hevidence.actualDelta]
    have himpact : plan.impact.isSome := by simp [hevidence.impact]
    refine exactResultKeys_iff.mpr fun key => ?_
    cases key <;> cases status <;> simp_all [hasResultKey, resultOf, requiredResultKeys]
  have hone : (resultOf plan status diagnostics).sourceChanges.length = 1 := by
    simp [resultOf, hevidence.sourceChanges]
  simp only [assertVerifiedResult, check_bind_eq_ok, require_eq_ok, Bool.and_eq_true, decide_eq_true_eq]
  refine ⟨⟨⟨⟨⟨⟨⟨?_, hkeys⟩, hone⟩, canonicalEquals_self _⟩, deltaEquals_self _⟩, impactEquals_self _⟩, ?_⟩, ?_⟩
  · simp [hevidence.ready]
  · simp [verificationDiagnostic_eq_nil.mpr hbound]
  · split
    next hacc =>
      have hacc : status = .accepted := hacc
      obtain ⟨a, ha⟩ := Option.isSome_iff_exists.mp (haccepted.mpr hacc)
      obtain ⟨hinput, hsemantic⟩ := hendpoint a ha
      simp [resultOf, passed, hpassed, hempty.mp hacc, ha, hinput, hsemantic]
    next hacc =>
      have hacc : status ≠ .accepted := hacc
      simp only [check_bind_eq_ok, require_eq_ok]
      refine ⟨?_, ?_, by simp [passed, hpassed]⟩
      · simpa [resultOf] using fun h => hacc (hempty.mpr h)
      · exact (Classical.em (status = .recoveryRequired)).symm.imp_right hcode

theorem verifiedResult_accepted (hplan : assertSemanticMutationPlanInvariant (.planned plan) = .ok ())
    (hready : plan.rejectedAt = none) {status : SemanticMutationResultStatus} {transactionId : Text}
    {accepted : Option SemanticMutationBase} {recoveryState : Option SemanticMutationRecoveryFailureState}
    {diagnostics : List SemanticMutationDiagnostic} {result : SemanticMutationResult} (hstatus : status ≠ .rejected)
    (haccepted : accepted.isSome ↔ status = .accepted) (hrecovery : recoveryState.isSome ↔ status = .recoveryRequired)
    (hempty : status = .accepted → diagnostics = [])
    (h : verifiedResult plan status transactionId attempted verification accepted recoveryState diagnostics = .ok result) :
    assertSemanticMutationResultInvariant result (.planned plan) = .ok () ∧
      (result.status = .accepted → status = .accepted ∧ verificationIsBound plan verification attempted = true ∧
        verification.status = .passed) := by
  simp only [verifiedResult, bind_eq_ok] at h
  obtain ⟨canonical, hcanonical, h⟩ := h
  split at h
  next hexecution =>
    -- The execution is not bound or did not pass: the terminal is a rejection.
    simp only [unverifiedResult, bind_eq_ok, pure_eq_ok, Except.ok.injEq] at h
    obtain ⟨all, hall, rfl⟩ := h
    refine ⟨assert_finalizeResult hplan ⟨rfl, rfl, rfl, rfl, rfl, canonicalDiagnostics_again hall⟩ ?_, by
      simp [finalizeResult, resultOf]⟩
    refine assertRejectedResult_of ?_ (fun a ha => ?_) (fun v hv => ⟨hready, ?_⟩)
    · intro hnil
      exact hexecution (List.append_eq_nil_iff.mp ((canonicalDiagnostics_eq_nil hall).mp hnil)).2
    · split at ha
      next hnil =>
        obtain rfl : attempted = a := by simpa using ha
        have hbound := verificationDiagnostic_eq_nil.mp hnil
        simp only [verificationIsBound, Bool.and_eq_true] at hbound
        exact bindsStaged_iff.mp hbound.1.1.1.2
      next => simp at ha
    · split at hv
      next hnil =>
        obtain rfl : verification = v := by simpa using hv
        exact ⟨attempted, by simp [hnil], verificationDiagnostic_eq_nil.mp hnil⟩
      next => simp at hv
  next hexecution =>
    obtain ⟨hbound, hpassed⟩ := executionDiagnostics_eq_nil.mp (not_not.mp hexecution)
    simp only [check_bind_eq_ok, require_eq_ok, pure_eq_ok, Except.ok.injEq] at h
    obtain ⟨hne, hcode, hendpoint, rfl⟩ := h
    refine ⟨?_, fun hacc => ⟨hacc, hbound, hpassed⟩⟩
    obtain ⟨change, staged, delta, impact, requirements, hevidence⟩ := exists_readyEvidence hplan hready
    refine assert_finalizeResult hplan ⟨rfl, rfl, rfl, rfl, rfl, canonicalDiagnostics_again hcanonical⟩ ?_
    have hempty : status = .accepted ↔ canonical = [] := by
      rw [canonicalDiagnostics_eq_nil hcanonical]
      refine ⟨hempty, fun hnil => hne.resolve_right fun hne => ?_⟩
      exact hne ((canonicalDiagnostics_eq_nil hcanonical).mpr hnil)
    refine (if_neg hstatus).trans ?_
    exact assertVerifiedResult_of hevidence hbound hpassed hstatus haccepted hrecovery hempty
      (fun hrequired => hcode.resolve_left (not_not.mpr hrequired)) hendpoint

/-- A terminal of a ready plan is accepted only on evidence of a verification that passed. -/
theorem terminalResult_accepted (hplan : assertSemanticMutationPlanInvariant (.planned plan) = .ok ())
    (hready : plan.rejectedAt = none) {evidence : SemanticMutationTerminalEvidence} {result : SemanticMutationResult}
    (h : terminalResult plan evidence = .ok result) :
    assertSemanticMutationResultInvariant result (.planned plan) = .ok () ∧
      (result.status = .accepted → ∃ transactionId attempted accepted verification,
        evidence = .accepted transactionId attempted accepted verification ∧
        verificationIsBound plan verification attempted = true ∧ verification.status = .passed) := by
  cases evidence with
  | rejected transactionId attempted verification diagnostics =>
      obtain ⟨hcheck, hstatus⟩ := rejectedResult_accepted hplan hready h
      exact ⟨hcheck, fun hacc => by simp [hstatus] at hacc⟩
  | accepted transactionId attempted accepted verification =>
      obtain ⟨hcheck, haccepted⟩ := verifiedResult_accepted hplan hready (by simp) (by simp) (by simp) (by simp) h
      exact ⟨hcheck, fun hacc => ⟨_, _, _, _, rfl, (haccepted hacc).2⟩⟩
  | rolledBack transactionId attempted verification diagnostics =>
      obtain ⟨hcheck, haccepted⟩ := verifiedResult_accepted hplan hready (by simp) (by simp) (by simp) (by simp) h
      exact ⟨hcheck, fun hacc => by simpa using (haccepted hacc).1⟩
  | recoveryRequired transactionId attempted verification recoveryState diagnostics =>
      obtain ⟨hcheck, haccepted⟩ := verifiedResult_accepted hplan hready (by simp) (by simp) (by simp) (by simp) h
      exact ⟨hcheck, fun hacc => by simpa using (haccepted hacc).1⟩

end Revisions

end SecPlatform.Compiler.SemanticMutation
