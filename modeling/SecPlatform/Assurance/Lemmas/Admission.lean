import SecPlatform.Assurance.VerificationResult

/-!
# Admitted input of the aggregate

The checks of the input as one predicate on its claims and gate results, in which order no longer counts.
-/

namespace SecPlatform.Assurance

open Contracts

/-! ## Texts -/

/-- An identity is plain and trimmed. -/
def IsIdentity (value : Text) : Prop := isPlainText value ∧ value.trim = value

theorem assertIdentity_eq_ok {value label : Text} : assertIdentity value label = .ok () ↔ IsIdentity value := by
  simp only [assertIdentity, assertString, check_bind_eq_ok, require_eq_ok, IsIdentity]

/-- A list of different identities. -/
def AreIdentities (values : List Text) : Prop := (∀ value ∈ values, IsIdentity value) ∧ values.Nodup

theorem assertUniqueIdentityArray_eq_ok {values : List Text} {label : Text} :
    assertUniqueIdentityArray values label = .ok () ↔ AreIdentities values := by
  have h : assertUniqueIdentityArray values label = .ok () ↔
      (∀ value ∈ values, IsIdentity value) ∧ (values.map id).Nodup := by
    refine forUnique_eq_ok (P := IsIdentity) ?_
    exact fun _ _ => assertIdentity_eq_ok
  rwa [List.map_id] at h

theorem AreIdentities.perm {values values' : List Text} (h : AreIdentities values) (hperm : values.Perm values') :
    AreIdentities values' :=
  ⟨fun v hv => h.1 v (hperm.mem_iff.mpr hv), hperm.nodup_iff.mp h.2⟩

/-! ## Claims and gates -/

structure ValidClaim (claim : VerificationClaimDefinition) : Prop where
  claimId : IsIdentity claim.claimId
  requiredGateIds : AreIdentities claim.requiredGateIds
  owningEnvironments : AreIdentities claim.owningEnvironments
  hasGates : claim.requiredGateIds ≠ []
  hasEnvironments : claim.owningEnvironments ≠ []

theorem assertVerificationClaimDefinition_eq_ok {claim : VerificationClaimDefinition} {label : Text} :
    assertVerificationClaimDefinition claim label = .ok () ↔ ValidClaim claim := by
  simp only [assertVerificationClaimDefinition, check_bind_eq_ok, require_eq_ok, assertIdentity_eq_ok,
    assertUniqueIdentityArray_eq_ok]
  exact ⟨fun ⟨h1, h2, h3, h4, h5⟩ => ⟨h1, h2, h3, h4, h5⟩, fun ⟨h1, h2, h3, h4, h5⟩ => ⟨h1, h2, h3, h4, h5⟩⟩

theorem assertClaims_eq_ok {claims : List VerificationClaimDefinition} : assertClaims claims = .ok () ↔
    (∀ claim ∈ claims, ValidClaim claim) ∧ (claims.map VerificationClaimDefinition.claimId).Nodup := by
  refine forUnique_eq_ok (P := ValidClaim) ?_
  exact fun _ _ => assertVerificationClaimDefinition_eq_ok

theorem assertGateResults_eq_ok {gates : List VerificationGateResult} : assertGateResults gates = .ok () ↔
    (∀ gate ∈ gates, assertVerificationGateResult gate = .ok ()) ∧ (gates.map observationIdentity).Nodup := by
  refine forUnique_eq_ok (P := fun gate => assertVerificationGateResult gate = .ok ()) ?_
  exact fun _ _ => Iff.rfl

/-- The entry that is found under its own unique key. -/
theorem find?_eq_some_of_nodup {α κ : Type} [DecidableEq κ] {key : α → κ} {xs : List α} (h : (xs.map key).Nodup) {x : α}
    (hx : x ∈ xs) : xs.find? (fun y => decide (key y = key x)) = some x := by
  induction xs with
  | nil => cases hx
  | cons y ys ih =>
      obtain ⟨hy, hys⟩ := List.nodup_cons.mp h
      rcases List.mem_cons.mp hx with rfl | hx
      · simp
      · rw [List.find?_cons_of_neg, ih hys hx]
        simpa using fun he : key y = key x => hy (he ▸ List.mem_map_of_mem hx)

theorem assertPlanned_eq_ok {claims : List VerificationClaimDefinition} {gate : VerificationGateResult} {claimId : Text}
    (h : (claims.map VerificationClaimDefinition.claimId).Nodup) :
    assertPlanned claims gate claimId = .ok () ↔
      ∀ claim ∈ claims, claim.claimId = claimId → gate.gateId ∈ claim.requiredGateIds := by
  unfold assertPlanned
  split
  next claim hfind =>
    have hid : claim.claimId = claimId := by simpa using List.find?_some hfind
    rw [require_eq_ok]
    constructor
    · intro hplanned other hother hsame
      have hsome := find?_eq_some_of_nodup h hother
      rw [hsame, hfind] at hsome
      cases hsome
      exact hplanned
    · exact fun hall => hall claim (List.mem_of_find?_eq_some hfind) hid
  next hnone =>
    have hnone := List.find?_eq_none.mp hnone
    simp only [true_iff]
    exact fun claim hclaim hid => absurd (decide_eq_true hid) (hnone claim hclaim)

/-! ## Input -/

structure Admitted (input : VerificationAggregateInput) : Prop where
  claims : ∀ claim ∈ input.claims, ValidClaim claim
  claimIds : (input.claims.map VerificationClaimDefinition.claimId).Nodup
  gates : ∀ gate ∈ input.gateResults, assertVerificationGateResult gate = .ok ()
  observations : (input.gateResults.map observationIdentity).Nodup
  planned : ∀ gate ∈ input.gateResults, ∀ claim ∈ input.claims, claim.claimId ∈ gate.requiredForClaims →
    gate.gateId ∈ claim.requiredGateIds
  required : ∀ claim ∈ input.claims, ∀ gate ∈ input.gateResults, gate.gateId ∈ claim.requiredGateIds →
    claim.claimId ∈ gate.requiredForClaims
  supported : ∀ claim ∈ input.claims, ∀ gate ∈ input.gateResults, gate.gateId ∈ claim.requiredGateIds →
    gate.status = .passed → claim.claimId ∈ gate.supportedClaims

theorem mem_gateGroup {gates : List VerificationGateResult} {gateId : Text} {gate : VerificationGateResult} :
    gate ∈ gateGroup gates gateId ↔ gate ∈ gates ∧ gate.gateId = gateId := by simp [gateGroup]

/-- The input passes its checks exactly when it is admitted. -/
theorem assertVerificationAggregateInput_eq_ok {input : VerificationAggregateInput} :
    assertVerificationAggregateInput input = .ok () ↔ Admitted input := by
  simp only [assertVerificationAggregateInput, check_bind_eq_ok, forM_eq_ok, assertClaims_eq_ok, assertGateResults_eq_ok,
    mem_gateGroup, assertLinked, require_eq_ok]
  constructor
  · rintro ⟨⟨hclaims, hids⟩, ⟨hgates, hobservations⟩, hplanned, hlinked⟩
    refine ⟨hclaims, hids, hgates, hobservations, ?_, ?_, ?_⟩
    · exact fun gate hgate claim hclaim hrequired =>
        (assertPlanned_eq_ok hids).mp (hplanned gate hgate _ hrequired) claim hclaim rfl
    · exact fun claim hclaim gate hgate hrequired => (hlinked claim hclaim _ hrequired gate ⟨hgate, rfl⟩).1
    · exact fun claim hclaim gate hgate hrequired => (hlinked claim hclaim _ hrequired gate ⟨hgate, rfl⟩).2
  · intro h
    refine ⟨⟨h.claims, h.claimIds⟩, ⟨h.gates, h.observations⟩, ?_, ?_⟩
    · intro gate hgate claimId hrequired
      refine (assertPlanned_eq_ok h.claimIds).mpr ?_
      rintro claim hclaim rfl
      exact h.planned gate hgate claim hclaim hrequired
    · rintro claim hclaim _ hrequired gate ⟨hgate, rfl⟩
      exact ⟨h.required claim hclaim gate hgate hrequired, h.supported claim hclaim gate hgate hrequired⟩

end SecPlatform.Assurance
