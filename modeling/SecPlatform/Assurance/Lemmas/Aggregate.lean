import Mathlib.Data.Finset.Card
import SecPlatform.Assurance.Lemmas.Admission

/-!
# Decisions of the aggregate

A decision is the worst of a list. It is known from the members of the list, so that its order does not
matter, and more members cannot make it better.
-/

namespace SecPlatform.Assurance

open Contracts

/-! ## The worst decision -/

theorem STATUS_PRIORITY_injective : Function.Injective STATUS_PRIORITY := by
  intro a b h
  cases a <;> cases b <;> first | rfl | cases h

theorem STATUS_PRIORITY_le (status : VerificationResultStatus) : STATUS_PRIORITY status ≤ 4 := by
  cases status <;> decide

theorem STATUS_PRIORITY_pos {status : VerificationResultStatus} (h : status ≠ .passed) : 1 ≤ STATUS_PRIORITY status := by
  cases status <;> first | exact absurd rfl h | decide

theorem reasonCode_toText_injective : Function.Injective VerificationReasonCode.toText := by
  intro a b h
  cases a <;> cases b <;> first | rfl | exact absurd h (by decide)

theorem decisionKey_injective : Function.Injective decisionKey := by
  rintro ⟨status, reason⟩ ⟨status', reason'⟩ h
  obtain ⟨hstatus, hreason⟩ := Prod.mk.inj (toLex_inj.mp h)
  have hle := STATUS_PRIORITY_le status
  have hle' := STATUS_PRIORITY_le status'
  have hpriority : STATUS_PRIORITY status = STATUS_PRIORITY status' := by
    simp only at hstatus
    omega
  obtain rfl := STATUS_PRIORITY_injective hpriority
  obtain rfl := reasonCode_toText_injective hreason
  rfl

section Choice

variable {α : Type} {decision : α → StatusDecision} {values : List α}

/-- The chosen decision is a member of the list and no member is worse. -/
theorem chooseHighestStatus_spec {v : α} (h : chooseHighestStatus decision values = some v) : v ∈ values ∧
    ∀ w ∈ values, STATUS_PRIORITY (decision w).status ≤ STATUS_PRIORITY (decision v).status := by
  obtain ⟨hv, hleast⟩ := head?_sortBy h
  refine ⟨hv, fun w hw => ?_⟩
  have hfirst := (Prod.Lex.le_iff'.mp (hleast w hw)).1
  have hle := STATUS_PRIORITY_le (decision w).status
  simp only [decisionKey, ofLex_toLex] at hfirst
  omega

theorem chooseHighestStatus_eq_none : chooseHighestStatus decision values = none ↔ values = [] := head?_sortBy_eq_none

theorem exists_chooseHighestStatus (h : values ≠ []) : ∃ v, chooseHighestStatus decision values = some v :=
  Option.ne_none_iff_exists'.mp fun hnone => h (chooseHighestStatus_eq_none.mp hnone)

/-- The choice among the decisions themselves. -/
theorem map_chooseHighestStatus : (chooseHighestStatus decision values).map decision =
    chooseHighestStatus id (values.map decision) := by
  rw [chooseHighestStatus, chooseHighestStatus, ← List.head?_map]
  exact congrArg List.head? (map_sortBy decision decisionKey values)

/-- The order of the decisions does not matter. -/
theorem chooseHighestStatus_perm {decisions decisions' : List StatusDecision} (h : decisions.Perm decisions') :
    chooseHighestStatus id decisions = chooseHighestStatus id decisions' :=
  congrArg List.head? (sortBy_eq_of_perm h fun _ _ _ _ heq => decisionKey_injective heq)

/-- When each decision of a list is answered by one of another list that is not better, so is the choice. -/
theorem chooseHighestStatus_mono {β : Type} {decision' : β → StatusDecision} {values' : List β} {v : α} {w : β}
    (hv : chooseHighestStatus decision values = some v) (hw : chooseHighestStatus decision' values' = some w)
    (h : ∀ a ∈ values, ∃ b ∈ values', STATUS_PRIORITY (decision a).status ≤ STATUS_PRIORITY (decision' b).status) :
    STATUS_PRIORITY (decision v).status ≤ STATUS_PRIORITY (decision' w).status := by
  obtain ⟨b, hb, hle⟩ := h v (chooseHighestStatus_spec hv).1
  exact hle.trans ((chooseHighestStatus_spec hw).2 b hb)

end Choice

/-! ## Gates -/

section Gates

variable {claim : VerificationClaimDefinition} {gateId : Text} {observations observations' : List VerificationGateResult}

theorem decideRequiredGate_observations : (decideRequiredGate claim gateId observations).observations =
    observations.filter (observationAppliesToClaim claim) := by
  rw [decideRequiredGate]
  split
  next hnone => rw [List.isEmpty_iff.mp hnone]; rfl
  next =>
    dsimp only
    split
    next hnone => exact (List.isEmpty_iff.mp hnone).symm
    next => rfl

theorem decideRequiredGate_none (h : observations.filter (observationAppliesToClaim claim) = []) :
    (decideRequiredGate claim gateId observations).status = .notRun := by
  rw [decideRequiredGate]
  split
  next => rfl
  next => simp only [h, List.isEmpty_nil, if_true]

theorem decideRequiredGate_some (gateId : Text) (h : observations.filter (observationAppliesToClaim claim) ≠ []) :
    chooseHighestStatus id (applicableDecisions claim (observations.filter (observationAppliesToClaim claim))) =
      some (decideRequiredGate claim gateId observations).toStatusDecision := by
  have hdecisions : applicableDecisions claim (observations.filter (observationAppliesToClaim claim)) ≠ [] := by
    simp [applicableDecisions, h]
  obtain ⟨decision, hdecision⟩ : ∃ decision, chooseHighestStatus id _ = some decision :=
    exists_chooseHighestStatus hdecisions
  have hempty : observations.isEmpty = false := by
    cases observations with
    | nil => exact absurd rfl h
    | cons g gs => rfl
  rw [decideRequiredGate, hempty, if_neg Bool.false_ne_true]
  simp only [List.isEmpty_eq_false_iff.mpr h, Bool.false_eq_true, if_false, hdecision, Option.getD_some]

theorem mem_applicableDecisions {applicable : List VerificationGateResult} {decision : StatusDecision} :
    decision ∈ applicableDecisions claim applicable ↔ (∃ g ∈ applicable, observationDecision claim g = decision) ∨
      (∃ g ∈ applicable, ∃ g' ∈ applicable, logicalProofIdentity g ≠ logicalProofIdentity g') ∧
        decision = selectionUnresolved := by
  have htwo : 1 < (applicable.map logicalProofIdentity).dedup.length ↔
      ∃ g ∈ applicable, ∃ g' ∈ applicable, logicalProofIdentity g ≠ logicalProofIdentity g' := by
    rw [← List.card_toFinset, Finset.one_lt_card]
    simp
  rw [applicableDecisions, List.mem_append, List.mem_map, ← htwo]
  clear htwo
  split <;> simp [*]

/-- More observations, all of them not passed, do not make the decision better. -/
theorem decideRequiredGate_mono
    (hold : ∀ g ∈ observations, observationAppliesToClaim claim g → g ∈ observations')
    (hnew : ∀ g ∈ observations', observationAppliesToClaim claim g → g ∈ observations ∨ g.status ≠ .passed) :
    STATUS_PRIORITY (decideRequiredGate claim gateId observations).status ≤
      STATUS_PRIORITY (decideRequiredGate claim gateId observations').status := by
  have hsub : ∀ g ∈ observations.filter (observationAppliesToClaim claim),
      g ∈ observations'.filter (observationAppliesToClaim claim) := by
    intro g hg
    obtain ⟨hmem, happlies⟩ := List.mem_filter.mp hg
    exact List.mem_filter.mpr ⟨hold g hmem happlies, happlies⟩
  by_cases hnone' : observations'.filter (observationAppliesToClaim claim) = []
  · have hnone : observations.filter (observationAppliesToClaim claim) = [] :=
      List.eq_nil_iff_forall_not_mem.mpr fun g hg => by simpa [hnone'] using hsub g hg
    rw [decideRequiredGate_none hnone, decideRequiredGate_none hnone']
  have hsome' := decideRequiredGate_some gateId hnone'
  by_cases hnone : observations.filter (observationAppliesToClaim claim) = []
  · -- nothing applied before, so whatever applies now did not pass
    obtain ⟨g, hg⟩ := List.exists_mem_of_ne_nil _ hnone'
    obtain ⟨hmem, happlies⟩ := List.mem_filter.mp hg
    have hnot : g ∉ observations := fun h => by simpa [hnone] using List.mem_filter.mpr ⟨h, happlies⟩
    have hfailed := (hnew g hmem happlies).resolve_left hnot
    have hdecision : 1 ≤ STATUS_PRIORITY (observationDecision claim g).status := by
      unfold observationDecision
      split
      · decide
      · split
        · decide
        · exact STATUS_PRIORITY_pos hfailed
    rw [decideRequiredGate_none hnone]
    exact hdecision.trans ((chooseHighestStatus_spec hsome').2 _ (mem_applicableDecisions.mpr (.inl ⟨g, hg, rfl⟩)))
  · refine chooseHighestStatus_mono (v := (decideRequiredGate claim gateId observations).toStatusDecision)
      (w := (decideRequiredGate claim gateId observations').toStatusDecision) (decideRequiredGate_some gateId hnone) hsome'
      fun decision hdecision => ⟨decision, ?_, le_rfl⟩
    rcases mem_applicableDecisions.mp hdecision with ⟨g, hg, rfl⟩ | ⟨⟨g, hg, g', hg', hne⟩, rfl⟩
    · exact mem_applicableDecisions.mpr (.inl ⟨g, hsub g hg, rfl⟩)
    · exact mem_applicableDecisions.mpr (.inr ⟨⟨g, hsub g hg, g', hsub g' hg', hne⟩, rfl⟩)

/-- The order of the observations does not matter. -/
theorem decideRequiredGate_perm (h : observations.Perm observations') :
    (decideRequiredGate claim gateId observations).toStatusDecision =
      (decideRequiredGate claim gateId observations').toStatusDecision := by
  have hfilter := h.filter (observationAppliesToClaim claim)
  by_cases hnone : observations.filter (observationAppliesToClaim claim) = []
  · have hnone' : observations'.filter (observationAppliesToClaim claim) = [] := by
      rw [hnone] at hfilter
      exact hfilter.symm.eq_nil
    have hempty : observations.isEmpty = observations'.isEmpty := by
      rw [Bool.eq_iff_iff, List.isEmpty_iff, List.isEmpty_iff]
      exact ⟨fun h' => (h' ▸ h).symm.eq_nil, fun h' => (h' ▸ h).eq_nil⟩
    rw [decideRequiredGate, decideRequiredGate, hempty]
    split
    · rfl
    · simp only [hnone, hnone', List.isEmpty_nil, if_true]
  · have hnone' : observations'.filter (observationAppliesToClaim claim) ≠ [] := by
      intro h'
      rw [h'] at hfilter
      exact hnone hfilter.eq_nil
    have hdecisions : (applicableDecisions claim (observations.filter (observationAppliesToClaim claim))).Perm
        (applicableDecisions claim (observations'.filter (observationAppliesToClaim claim))) := by
      have hlength := ((hfilter.map logicalProofIdentity).dedup).length_eq
      rw [applicableDecisions, applicableDecisions, hlength]
      exact (hfilter.map _).append_right _
    have hsome := decideRequiredGate_some gateId hnone
    rw [chooseHighestStatus_perm hdecisions, decideRequiredGate_some gateId hnone'] at hsome
    exact (Option.some.inj hsome).symm

end Gates

end SecPlatform.Assurance
