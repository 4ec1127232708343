import SecPlatform.Compiler.SemanticMutation.RecoveryRecord
import SecPlatform.Compiler.SemanticMutation.Lemmas.Result

/-!
# Chains of recovery records

What one accepted record says of itself and of the record before it, and what follows for a whole list of
accepted records.
-/

namespace SecPlatform.Compiler.SemanticMutation

open Contracts Semantics

/-! ## One record -/

structure StartsChain (record : SemanticMutationRecoveryRecord) : Prop where
  sequence : record.sequence = 1
  linked : record.previousRecordRevision = []
  prepared : record.state = .prepared

structure Follows (previous record : SemanticMutationRecoveryRecord) : Prop where
  sequence : record.sequence = previous.sequence + 1
  linked : record.previousRecordRevision = previous.recordRevision
  allowed : record.state ∈ SEMANTIC_MUTATION_RECOVERY_TRANSITIONS previous.state

theorem position_of_validSequence {record : SemanticMutationRecoveryRecord}
    {previous : Option SemanticMutationRecoveryRecord} (h : validSequence record previous = true) :
    (previous = none → StartsChain record) ∧ ∀ p ∈ previous, Follows p record := by
  have h := (Bool.and_eq_true_iff.mp h).2
  cases previous with
  | none =>
      simp only [Bool.and_eq_true, decide_eq_true_eq, List.isEmpty_iff] at h
      exact ⟨fun _ => ⟨h.1.1, h.1.2, h.2⟩, by simp⟩
  | some previous =>
      simp only [Bool.and_eq_true, decide_eq_true_eq, isSemanticMutationRecoveryTransitionAllowed,
        List.contains_iff_mem] at h
      refine ⟨by simp, fun p hp => ?_⟩
      obtain rfl : previous = p := by simpa using hp
      exact ⟨h.1.1, h.1.2, h.2⟩

/-! ## Positions in a chain -/

/-- The sequences of a chain count up from its first one. -/
theorem sequences_of_chain {record : SemanticMutationRecoveryRecord} {records : List SemanticMutationRecoveryRecord}
    (h : (record :: records).IsChain Follows) :
    (record :: records).map (fun r => r.sequence) = List.range' record.sequence (records.length + 1) := by
  induction records generalizing record with
  | nil => simp
  | cons next records ih =>
      obtain ⟨hnext, h⟩ := List.isChain_cons.mp h
      have hnext := (hnext next rfl).sequence
      rw [List.map_cons, ih h, hnext, List.length_cons, List.range'_succ (n := records.length + 1)]

/-- From the start the table leaves room for two more states, the last of them terminal. -/
theorem states_of_chain {records : List SemanticMutationRecoveryRecord}
    (hstart : ∀ first ∈ records.head?, StartsChain first) (h : records.IsChain Follows) :
    records.length ≤ 3 ∧ ∀ record ∈ records.dropLast, SEMANTIC_MUTATION_RECOVERY_TRANSITIONS record.state ≠ [] := by
  have hallowed : ∀ {a b : SemanticMutationRecoveryRecord}, Follows a b →
      SEMANTIC_MUTATION_RECOVERY_TRANSITIONS a.state ≠ [] :=
    fun h => List.ne_nil_of_mem h.allowed
  match records, hstart, h with
  | [], _, _ => simp
  | [a], _, _ => simp
  | [a, b], _, h =>
      have hab := List.isChain_pair.mp h
      simpa using hallowed hab
  | [a, b, c], _, h =>
      simp only [List.isChain_cons_cons] at h
      simpa using ⟨hallowed h.1, hallowed h.2.1⟩
  | a :: b :: c :: d :: rest, hstart, h =>
      simp only [List.isChain_cons_cons] at h
      obtain ⟨hab, hbc, hcd, -⟩ := h
      have ha := (hstart a rfl).prepared
      have hb := ha ▸ hab.allowed
      have hc := hbc.allowed
      have hd := hcd.allowed
      simp only [SEMANTIC_MUTATION_RECOVERY_TRANSITIONS, List.mem_cons, List.not_mem_nil, or_false] at hb
      rcases hb with hb | hb
      · rw [hb] at hc
        simp only [SEMANTIC_MUTATION_RECOVERY_TRANSITIONS, List.mem_cons, List.not_mem_nil, or_false] at hc
        rcases hc with hc | hc | hc <;> simp [hc, SEMANTIC_MUTATION_RECOVERY_TRANSITIONS] at hd
      · simp [hb, SEMANTIC_MUTATION_RECOVERY_TRANSITIONS] at hc

section Revisions

variable [Sha256]

/-! ## Identity -/

/-- The identity of a record is that of a request, of a ready plan and of its one source change. -/
structure OwnIdentity (record : SemanticMutationRecoveryRecordContent) (request : NormalizedSemanticMutationRequest)
    (plan : SemanticMutationPlannedRequest) (change : SemanticMutationSourceChange) : Prop where
  read : normalizeSemanticMutationRequest record.request = .ok request
  planned : record.plan = .planned plan
  ready : plan.rejectedAt = none
  sourceChanges : plan.sourceChanges = [change]
  requestIdentity : record.requestIdentityDigest =
    semanticMutationRequestIdentityDigest ⟨request.graphId, request.appId, request.requestId⟩
  requestRevision : record.requestRevision = request.requestRevision
  plannedRequestRevision : record.requestRevision = plan.requestRevision
  planRevision : record.planRevision = plan.planRevision
  relativePath : record.relativePath = change.relativePath
  beforeByteDigest : record.beforeByteDigest = change.beforeByteDigest
  committedByteDigest : record.committedByteDigest = change.stagedByteDigest

variable [EnglishLowerCase]

theorem ownIdentity_of_crossBindings {record : SemanticMutationRecoveryRecordContent}
    (h : assertRecoveryCrossBindings record = .ok ()) : ∃ request plan change, OwnIdentity record request plan change := by
  rw [assertRecoveryCrossBindings, check_bind_eq_ok] at h
  obtain ⟨hplan, h⟩ := h
  split at h
  next => simp at h
  next plan hrecord =>
    simp only [check_bind_eq_ok, require_eq_ok] at h
    obtain ⟨hready, h⟩ := h
    obtain ⟨request, hrequest, h⟩ := bind_eq_ok.mp h
    obtain ⟨authorization, -, h⟩ := bind_eq_ok.mp h
    obtain ⟨hbound, -⟩ := check_bind_eq_ok.mp h
    rw [hrecord] at hplan
    obtain ⟨change, staged, delta, impact, requirements, hevidence⟩ := exists_readyEvidence hplan hready
    simp only [require_eq_ok, identityIsBound, Bool.and_eq_true, decide_eq_true_eq, hevidence.sourceChanges,
      List.head?_cons, Option.map_some, Option.some.injEq] at hbound
    obtain ⟨⟨⟨⟨⟨⟨⟨⟨⟨⟨⟨⟨⟨⟨⟨-, -⟩, hrevision⟩, -⟩, hidentity⟩, hplanned⟩, -⟩, -⟩, hplanRevision⟩, -⟩, -⟩, -⟩, -⟩, hpath⟩,
      hbefore⟩, hcommitted⟩ := hbound
    exact ⟨request, plan, change, mapError_eq_ok.mp hrequest, hrecord, hready, hevidence.sourceChanges, hidentity,
      hrevision.symm, hplanned, hplanRevision, hpath, hbefore, hcommitted⟩

/-- What the checker establishes of one record. -/
structure CheckedRecord (record : SemanticMutationRecoveryRecord) : Prop where
  revision : record.recordRevision =
    semanticMutationRecoveryRecordRevision record.toSemanticMutationRecoveryRecordContent
  identity : ∃ request plan change,
    OwnIdentity record.toSemanticMutationRecoveryRecordContent request plan change

theorem checkedRecord_of_invariant {record : SemanticMutationRecoveryRecord}
    {previous : Option SemanticMutationRecoveryRecord}
    (h : assertSemanticMutationRecoveryRecordInvariant record previous = .ok ()) :
    validSequence record previous = true ∧ CheckedRecord record := by
  rw [assertSemanticMutationRecoveryRecordInvariant, check_bind_eq_ok] at h
  obtain ⟨hcontent, h⟩ := h
  obtain ⟨canonical, -, h⟩ := bind_eq_ok.mp h
  simp only [check_bind_eq_ok, require_eq_ok, Bool.and_eq_true, decide_eq_true_eq] at hcontent h
  exact ⟨hcontent.1.1.1.1.2, h.1.2, ownIdentity_of_crossBindings h.2.2⟩

/-! ## Chains -/

/-- Each record of an accepted list follows the one before it and is checked by itself. -/
theorem chain_of_accepted {previous : Option SemanticMutationRecoveryRecord}
    {records : List SemanticMutationRecoveryRecord} (h : assertRecoveryRecords previous records = .ok ()) :
    (previous = none → ∀ first ∈ records.head?, StartsChain first) ∧
      (∀ p ∈ previous, ∀ first ∈ records.head?, Follows p first) ∧ records.IsChain Follows ∧
      ∀ record ∈ records, CheckedRecord record := by
  induction records generalizing previous with
  | nil => simp
  | cons record records ih =>
      rw [assertRecoveryRecords, check_bind_eq_ok] at h
      obtain ⟨hvalid, hchecked⟩ := checkedRecord_of_invariant h.1
      obtain ⟨hstart, hfollows⟩ := position_of_validSequence hvalid
      obtain ⟨-, hnext, hchain, hrest⟩ := ih h.2
      refine ⟨fun hnone first hfirst => ?_, fun p hp first hfirst => ?_, ?_, ?_⟩
      · obtain rfl : record = first := by simpa using hfirst
        exact hstart hnone
      · obtain rfl : record = first := by simpa using hfirst
        exact hfollows p hp
      · exact List.isChain_cons.mpr ⟨hnext record rfl, hchain⟩
      · exact List.forall_mem_cons.mpr ⟨hchecked, hrest⟩

end Revisions

end SecPlatform.Compiler.SemanticMutation
