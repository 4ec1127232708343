import SecPlatform.Execution.SemanticOperation
import SecPlatform.Library.Run

/-!
# What each call does to the tokens

Every call leaves the sets as they are or adds to them; a call that succeeds used a token that was issued
and not consumed.
-/

namespace SecPlatform.Execution

open Contracts

variable [Sha256] {tokens tokens' : RecoveryTokens}

/-! ## Checks -/

theorem recoveredDomainReadbackReceipt_ok {operation : BoundSemanticOperation} {input : RecoveredReadbackInput}
    {receipt : RecoveredDomainReadbackReceipt}
    (h : recoveredDomainReadbackReceipt tokens operation input = .ok receipt) :
    receipt.boundAttemptDigest = operation.boundAttemptDigest ∧
      receipt.predecessorBoundAttemptDigest = input.predecessor.boundAttemptDigest ∧
      input.predecessor.boundAttemptDigest ≠ operation.boundAttemptDigest ∧
      receipt.predecessorDeadlineAtUnixMs = input.predecessor.deadlineAtUnixMs ∧
      receipt.disposition = input.disposition := by
  have hdigest : ∀ {value label d : Text}, requireDigest value label = .ok d → d = value := by
    intro value label d hd
    unfold requireDigest at hd
    split at hd
    · exact (Except.ok.inj hd).symm
    · cases hd
  unfold recoveredDomainReadbackReceipt at h
  simp only [bind_eq_ok, require_eq_ok, pure_eq_ok, Except.ok.injEq] at h
  obtain ⟨_, -, _, ⟨-, -, -, hdistinct, -⟩, _, -, _, -, _, -, _, -, _, hattempt, _, -, _, -, _, -, _, -, _, -, _, -, rfl⟩ := h
  exact ⟨rfl, hdigest hattempt, hdistinct, rfl, rfl⟩

theorem assertJoinable_ok {operation : BoundSemanticOperation} {readback : Object RecoveredDomainReadbackReceipt}
    (h : assertJoinable tokens operation readback = .ok ()) :
    readback ∈ tokens.issuedReadbacks ∧ readback ∉ tokens.consumedReadbacks := by
  simp only [assertJoinable, bind_eq_ok, require_eq_ok] at h
  obtain ⟨_, -, _, -, _, hissued, hfresh⟩ := h
  exact ⟨hissued, hfresh⟩

theorem assertRetryable_ok {operation : BoundSemanticOperation} {readback : Object RecoveredDomainReadbackReceipt}
    {epoch : Text} (h : assertRetryable tokens operation readback = .ok epoch) :
    readback ∈ tokens.issuedReadbacks ∧ readback ∉ tokens.consumedReadbacks ∧
      readback.value.disposition = .notApplied := by
  simp only [assertRetryable, bind_eq_ok] at h
  obtain ⟨_, -, _, -, h⟩ := h
  split at h
  · cases h
  · simp only [bind_eq_ok, require_eq_ok] at h
    obtain ⟨_, ⟨hissued, hdisposition, -⟩, _, hfresh, -⟩ := h
    exact ⟨hissued, hfresh, hdisposition⟩

/-- What binds a successor to an admission. -/
structure Authorizes (admission : RecoveredRetryAdmission) (successor : BoundSemanticOperation) : Prop where
  predecessor : successor.boundAttemptDigest ≠ admission.previousBoundAttemptDigest
  recovery : successor.boundAttemptDigest ≠ admission.recoveryBoundAttemptDigest
  deadline : successor.plan.value.attempt.deadlineAtUnixMs ≤ admission.previousDeadlineAtUnixMs

theorem assertForSuccessor_ok {now : Nat} {admission : Object RecoveredRetryAdmission}
    {successor : BoundSemanticOperation} {epoch : Text}
    (h : assertRecoveredRetryAdmissionForSuccessor tokens now admission successor epoch = .ok ()) :
    admission ∈ tokens.issuedAdmissions ∧ admission ∉ tokens.consumedAdmissions ∧
      Authorizes admission.value successor := by
  simp only [assertRecoveredRetryAdmissionForSuccessor, assertRecoveredRetryAdmission, bind_eq_ok, require_eq_ok] at h
  obtain ⟨_, ⟨_, hissued, -⟩, _, -, _, ⟨-, -, -, hpredecessor, hrecovery, -⟩, _, -, _, ⟨-, hdeadline, -⟩, hfresh⟩ := h
  exact ⟨hissued, hfresh, hpredecessor, hrecovery, hdeadline⟩

/-! ## Calls -/

/-- The sets only grow. -/
structure Grows (tokens tokens' : RecoveryTokens) : Prop where
  nextRef : tokens.nextRef ≤ tokens'.nextRef
  consumedReadbacks : tokens.consumedReadbacks ⊆ tokens'.consumedReadbacks
  consumedAdmissions : tokens.consumedAdmissions ⊆ tokens'.consumedAdmissions

omit [Sha256] in
theorem Grows.refl (tokens : RecoveryTokens) : Grows tokens tokens :=
  ⟨le_refl _, List.Subset.refl _, List.Subset.refl _⟩

/-- One event: a call and what it returned or threw. -/
structure RecoveryEvent where
  call : RecoveryCall
  result : RecoveryResult

/-- What a call does, by its result. -/
inductive Effect : RecoveryTokens → RecoveryEvent → RecoveryTokens → Prop
  | compiled {tokens plan} : Effect tokens ⟨.compilePlan plan, .plan ⟨tokens.nextRef, plan⟩⟩
      { tokens with nextRef := tokens.nextRef + 1, compiledPlans := ⟨tokens.nextRef, plan⟩ :: tokens.compiledPlans }
  | readback {tokens operation input receipt}
      (h : recoveredDomainReadbackReceipt tokens operation input = .ok receipt) :
      Effect tokens ⟨.issueReadback operation input, .readback ⟨tokens.nextRef, receipt⟩⟩
        { tokens with
          nextRef := tokens.nextRef + 1, issuedReadbacks := ⟨tokens.nextRef, receipt⟩ :: tokens.issuedReadbacks }
  | joined {tokens operation readback contract reference receipt}
      (h : assertJoinable tokens operation readback = .ok ()) :
      Effect tokens ⟨.joinTerminal operation readback contract reference, .joined receipt⟩
        { tokens with consumedReadbacks := readback :: tokens.consumedReadbacks }
  | admitted {tokens operation readback epoch} (h : assertRetryable tokens operation readback = .ok epoch) :
      Effect tokens ⟨.admitRetry operation readback,
          .admitted ⟨tokens.nextRef, recoveredRetryAdmission operation epoch readback.value⟩⟩
        { tokens with
          nextRef := tokens.nextRef + 1
          consumedReadbacks := readback :: tokens.consumedReadbacks
          issuedAdmissions :=
            ⟨tokens.nextRef, recoveredRetryAdmission operation epoch readback.value⟩ :: tokens.issuedAdmissions }
  | consumed {tokens now admission successor epoch}
      (h : assertRecoveredRetryAdmissionForSuccessor tokens now admission successor epoch = .ok ()) :
      Effect tokens ⟨.consumeRetry now admission successor epoch, .consumed⟩
        { tokens with consumedAdmissions := admission :: tokens.consumedAdmissions }
  | thrown {tokens call message tokens'} (hgrows : Grows tokens tokens')
      (hreadbacks : tokens'.issuedReadbacks = tokens.issuedReadbacks)
      (hadmissions : tokens'.issuedAdmissions = tokens.issuedAdmissions) :
      Effect tokens ⟨call, .thrown message⟩ tokens'

/-- Every call has one of these effects. -/
theorem effect_of_perform {e : RecoveryEvent} (h : perform tokens e.call = (e.result, tokens')) :
    Effect tokens e tokens' := by
  obtain ⟨call, result⟩ := e
  dsimp only at h
  cases call with
  | compilePlan plan =>
      cases h
      exact .compiled
  | issueReadback operation input =>
      simp only [perform, issueRecoveredDomainReadbackReceipt] at h
      cases hreceipt : recoveredDomainReadbackReceipt tokens operation input with
      | error e =>
          rw [hreceipt] at h
          cases h
          exact .thrown (.refl _) rfl rfl
      | ok receipt =>
          rw [hreceipt] at h
          cases h
          exact .readback hreceipt
  | joinTerminal operation readback contract reference =>
      simp only [perform, issueRecoveredOwnerTerminalJoinReceipt] at h
      cases hjoinable : assertJoinable tokens operation readback with
      | error e =>
          rw [hjoinable] at h
          cases h
          exact .thrown (.refl _) rfl rfl
      | ok u =>
          rw [hjoinable] at h
          dsimp only at h
          cases hreceipt : issueOwnerTerminalJoinReceipt operation readback.value contract reference with
          | error e =>
              -- the digests of the terminal are refused after the readback is consumed
              rw [hreceipt] at h
              cases h
              exact .thrown ⟨le_refl _, List.subset_cons_self _ _, List.Subset.refl _⟩ rfl rfl
          | ok receipt =>
              rw [hreceipt] at h
              cases h
              exact .joined hjoinable
  | admitRetry operation readback =>
      simp only [perform, issueRecoveredRetryAdmission] at h
      cases hretryable : assertRetryable tokens operation readback with
      | error e =>
          rw [hretryable] at h
          cases h
          exact .thrown (.refl _) rfl rfl
      | ok epoch =>
          rw [hretryable] at h
          cases h
          exact .admitted hretryable
  | consumeRetry now admission successor epoch =>
      simp only [perform, consumeRecoveredRetryAdmission] at h
      cases hassert : assertRecoveredRetryAdmissionForSuccessor tokens now admission successor epoch with
      | error e =>
          rw [hassert] at h
          cases h
          exact .thrown (.refl _) rfl rfl
      | ok u =>
          rw [hassert, if_neg (assertForSuccessor_ok hassert).2.1] at h
          cases h
          exact .consumed hassert

theorem Effect.grows {e : RecoveryEvent} (h : Effect tokens e tokens') : Grows tokens tokens' := by
  cases h with
  | compiled => exact ⟨Nat.le_succ _, List.Subset.refl _, List.Subset.refl _⟩
  | readback => exact ⟨Nat.le_succ _, List.Subset.refl _, List.Subset.refl _⟩
  | joined => exact ⟨le_refl _, List.subset_cons_self _ _, List.Subset.refl _⟩
  | admitted => exact ⟨Nat.le_succ _, List.subset_cons_self _ _, List.Subset.refl _⟩
  | consumed => exact ⟨le_refl _, List.Subset.refl _, List.subset_cons_self _ _⟩
  | thrown hgrows => exact hgrows

end SecPlatform.Execution
