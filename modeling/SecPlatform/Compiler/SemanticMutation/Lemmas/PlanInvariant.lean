import SecPlatform.Compiler.SemanticMutation.PlanInvariant
import SecPlatform.Compiler.SemanticMutation.Lemmas.Canonical

/-!
# What the invariant says of a plan

The checks of a plan read backwards: which evidence a plan of a given status carries.
-/

namespace SecPlatform.Compiler.SemanticMutation

open Contracts Semantics

theorem exactKeys_iff {plan : SemanticMutationPlanDraft} {variant : List PlanKey} :
    exactKeys plan variant = true ↔ ∀ key, hasKey plan key = variant.contains key := by
  rw [exactKeys, List.all_eq_true]
  constructor
  · intro h key
    have hkey : key ∈ PLAN_KEYS := by cases key <;> decide
    simpa using h key hkey
  · intro h key _
    simpa using h key

/-! ## The parts of a plan -/

theorem assertSourceStage_eq_ok {plan : SemanticMutationPlanDraft} :
    assertSourceStage plan = .ok () ↔ ∃ change staged digest, plan.sourceChanges = [change] ∧
      plan.staged = some staged ∧ plan.rollbackManifestDigest = some digest ∧
      validSourceChange change ∧ exactBase staged ∧ isDigest digest := by
  unfold assertSourceStage
  split
  next change staged digest hchanges hstaged hdigest =>
    simp only [require_eq_ok, Bool.and_eq_true, hchanges, hstaged, hdigest]
    constructor
    · rintro ⟨⟨hchange, hbase⟩, hd⟩
      exact ⟨_, _, _, rfl, rfl, rfl, hchange, hbase, hd⟩
    · rintro ⟨_, _, _, hc, hs, hr, hchange, hbase, hd⟩
      cases hc; cases hs; cases hr
      exact ⟨⟨hchange, hbase⟩, hd⟩
  next hnone =>
    simp only [reduceCtorEq, false_iff]
    rintro ⟨change, staged, digest, hc, hs, hr, -⟩
    exact hnone change staged digest hc hs hr

theorem bindsEndpoint_iff {endpoint : FactDeltaEndpoint} {base : SemanticMutationBase} :
    bindsEndpoint endpoint base = true ↔
      endpoint = ⟨base.transactionId, base.inputRevision, base.semanticRevision⟩ := by
  obtain ⟨t, i, s⟩ := endpoint
  simp [bindsEndpoint, and_assoc]

theorem assertDeltaBinding_eq_ok {plan : SemanticMutationPlanDraft} :
    assertDeltaBinding plan = .ok () ↔ ∃ delta staged, plan.actualDelta = some delta ∧ plan.staged = some staged ∧
      bindsEndpoint delta.fromEndpoint plan.base ∧ bindsEndpoint delta.toEndpoint staged := by
  unfold assertDeltaBinding
  split
  next delta staged hdelta hstaged =>
    simp only [require_eq_ok, Bool.and_eq_true, hdelta, hstaged]
    constructor
    · rintro ⟨hfrom, hto⟩
      exact ⟨_, _, rfl, rfl, hfrom, hto⟩
    · rintro ⟨_, _, hd, hs, hfrom, hto⟩
      cases hd; cases hs
      exact ⟨hfrom, hto⟩
  next hnone =>
    simp only [reduceCtorEq, false_iff]
    rintro ⟨delta, staged, hd, hs, -⟩
    exact hnone delta staged hd hs

theorem assertImpactBinding_eq_ok {plan : SemanticMutationPlanDraft} :
    assertImpactBinding plan = .ok () ↔ ∃ impact delta staged, plan.impact = some impact ∧
      plan.actualDelta = some delta ∧ plan.staged = some staged ∧ impact.deltaRevision = delta.deltaRevision ∧
      impact.fromSemanticRevision = plan.base.semanticRevision ∧
      impact.toSemanticRevision = staged.semanticRevision := by
  unfold assertImpactBinding
  split
  next impact delta staged himpact hdelta hstaged =>
    simp only [require_eq_ok, himpact, hdelta, hstaged]
    constructor
    · intro h
      exact ⟨_, _, _, rfl, rfl, rfl, h⟩
    · rintro ⟨_, _, _, hi, hd, hs, h⟩
      cases hi; cases hd; cases hs
      exact h
  next hnone =>
    simp only [reduceCtorEq, false_iff]
    rintro ⟨impact, delta, staged, hi, hd, hs, -⟩
    exact hnone impact delta staged hi hd hs

theorem assertVerification_eq_ok {plan : SemanticMutationPlanDraft} :
    assertVerification plan = .ok () ↔ ∃ requirements, plan.requiredVerification = some requirements ∧
      nonEmptyString plan.verificationAdapterId ∧ nonEmptyString plan.verificationAdapterRevision ∧
      isDigest plan.verificationPlanningRevision ∧ requirements ≠ [] ∧
      canonicalEquals (requirementsValue requirements)
        (requirementsValue (canonicalVerificationUnion [requirements])) := by
  unfold assertVerification
  split
  next requirements hrequirements =>
    simp only [require_eq_ok, Bool.and_eq_true, Bool.not_eq_true', List.isEmpty_eq_false_iff, hrequirements,
      Option.some.injEq, exists_eq_left', and_assoc]
  next hnone => simp [hnone]

/-! ## Ready plans -/

section Invariant

variable [Sha256] [EnglishLowerCase] {plan : SemanticMutationPlannedRequest}

/-- The evidence of a ready plan. -/
structure ReadyEvidence (plan : SemanticMutationPlanDraft) (change : SemanticMutationSourceChange)
    (staged : SemanticMutationBase) (delta : FactDelta) (impact : SemanticImpactPropagation)
    (requirements : List VerificationRequirement) : Prop where
  ready : plan.rejectedAt = none
  sourceChanges : plan.sourceChanges = [change]
  staged : plan.staged = some staged
  actualDelta : plan.actualDelta = some delta
  impact : plan.impact = some impact
  requiredVerification : plan.requiredVerification = some requirements

theorem exists_readyEvidence (h : assertSemanticMutationPlanInvariant (.planned plan) = .ok ())
    (hready : plan.rejectedAt = none) :
    ∃ change staged delta impact requirements,
      ReadyEvidence plan.toSemanticMutationPlanDraft change staged delta impact requirements := by
  simp only [assertSemanticMutationPlanInvariant, check_bind_eq_ok, hready, assertReadyPlan] at h
  obtain ⟨-, -, -, hsource, hdelta, himpact, hverification⟩ := h
  obtain ⟨change, staged, -, hchange, hstaged, -⟩ := assertSourceStage_eq_ok.mp hsource
  obtain ⟨delta, -, hdelta, -⟩ := assertDeltaBinding_eq_ok.mp hdelta
  obtain ⟨impact, -, -, himpact, -⟩ := assertImpactBinding_eq_ok.mp himpact
  obtain ⟨requirements, hrequirements, -⟩ := assertVerification_eq_ok.mp hverification
  exact ⟨change, staged, delta, impact, requirements, hready, hchange, hstaged, hdelta, himpact, hrequirements⟩

end Invariant

end SecPlatform.Compiler.SemanticMutation
