import SecPlatform.DurableExecution.Lemmas.SealedInputs
import SecPlatform.DurableExecution.Lemmas.Transitions

/-!
# Capacity is never what fails the closing of an attempt

Sealing a record stays within the byte ceiling, observing fails for other reasons, and every record of an attempt
uses up what was reserved for it.
-/

namespace SecPlatform.DurableExecution

open Contracts

/-! ## Failures of other kinds -/

/-- Whatever fails here fails for an invalid transition. -/
def Transitional {α : Type} (x : Except ContractFailure α) : Prop :=
  ∀ f, x = .error f → ∃ message, f = .contract .invalidTransition message

section Transitional

variable {α β : Type} {x y : Except ContractFailure α} {message : Text}

theorem transitional_ok {a : α} : Transitional (.ok a) := by rintro _ ⟨⟩

theorem transitional_fail : Transitional (failContract (α := α) .invalidTransition message) := by
  rintro _ ⟨⟩
  exact ⟨_, rfl⟩

theorem Transitional.ite {p : Prop} [Decidable p] (hx : Transitional x) (hy : Transitional y) :
    Transitional (if p then x else y) := by
  split
  · exact hx
  · exact hy

theorem Transitional.bind {f : α → Except ContractFailure β} (hx : Transitional x) (hf : ∀ a, Transitional (f a)) :
    Transitional (x >>= f) := by
  cases x with
  | error e => rintro _ ⟨⟩; exact hx e rfl
  | ok a => exact hf a

end Transitional

section Observing

variable {intent : Sealed IntentFields} {st : Observing} {record : DurableRecord}

theorem transitional_attemptStart {start : AttemptStartFields} :
    Transitional (observeAttemptStart intent st record start) :=
  .ite transitional_fail (.ite transitional_fail (.ite transitional_fail (.ite transitional_fail
    (.ite transitional_fail (.ite transitional_fail transitional_ok)))))

theorem transitional_providerSettlement {settlement : ProviderSettlementFields} :
    Transitional (observeProviderSettlement st record settlement) := by
  unfold observeProviderSettlement
  cases st.active with
  | none => exact transitional_fail
  | some active => exact .ite transitional_fail transitional_ok

theorem transitional_domainReadback {readback : DomainReadbackFields} :
    Transitional (observeDomainReadback st record readback) := by
  unfold observeDomainReadback
  cases st.active with
  | none => exact transitional_fail
  | some active => exact .ite transitional_fail transitional_ok

theorem transitional_lostHandle {lostHandle : LostHandleFields} :
    Transitional (observeLostHandle st record lostHandle) := by
  unfold observeLostHandle
  cases st.active with
  | none => exact transitional_fail
  | some active => exact .ite transitional_fail transitional_ok

theorem transitional_attemptResolution {resolution : AttemptResolutionFields} :
    Transitional (observeAttemptResolution st record resolution) := by
  unfold observeAttemptResolution
  cases st.active with
  | none => exact transitional_fail
  | some active =>
      have hassert : Transitional (assertAttemptResolution resolution active) :=
        .ite transitional_fail (.ite transitional_fail transitional_ok)
      exact .ite transitional_fail (hassert.bind fun _ => transitional_ok)

theorem transitional_observeRecord {index : Nat} : Transitional (observeRecord intent index st record) := by
  refine .ite transitional_fail (.ite transitional_fail (.ite transitional_ok ?_))
  cases record.body with
  | intent fields => exact transitional_fail
  | attemptStart fields => exact transitional_attemptStart
  | providerSettlement fields => exact transitional_providerSettlement
  | domainReadback fields => exact transitional_domainReadback
  | lostHandle fields => exact transitional_lostHandle
  | attemptResolution fields => exact transitional_attemptResolution

theorem transitional_observeFrom {index : Nat} {records : List DurableRecord} :
    Transitional (observeFrom intent index st records) := by
  induction records generalizing index st with
  | nil => exact transitional_ok
  | cons record records ih => exact transitional_observeRecord.bind fun _ => ih

end Observing

variable [Sha256] {records : List DurableRecord} {record : DurableRecord} {current next : JournalObservation}
  {limits : StoreLimits} {e : StoreFailure}

theorem transitional_observe : Transitional (observeDurableExecutionJournal records) := by
  unfold observeDurableExecutionJournal
  cases records with
  | nil => exact transitional_fail
  | cons first rest =>
      dsimp only
      split
      · exact transitional_observeFrom.bind fun _ => transitional_ok
      · exact transitional_fail

theorem isCapacity_observeJournal (h : observeJournal records = .error e) : e.isCapacity = false := by
  unfold observeJournal at h
  cases hx : observeDurableExecutionJournal records with
  | ok obs => rw [hx] at h; cases h
  | error f =>
      obtain ⟨message, rfl⟩ := transitional_observe f hx
      rw [hx] at h
      cases h
      rfl

/-! ## Sealing -/

omit [Sha256] in
theorem isCapacity_canonicalDigest {value label : Text} (h : canonicalDigest value label = .error e) :
    e.isCapacity = false := by
  unfold canonicalDigest at h
  split at h
  · cases h
  · cases h; rfl

/-- A record that names few enough settlements does not exceed the byte ceiling. -/
theorem isCapacity_sealRecord {value : UnsignedRecord} (hn : value.body.settlementReferences ≤ 32)
    (h : sealRecord value = .error e) : e.isCapacity = false := by
  unfold sealRecord sealDurableExecutionRecordForInternalWriter at h
  split at h
  · cases h
    rfl
  · rename_i value' hschema
    obtain ⟨rfl, ha⟩ := durableExecutionUnsignedRecordSchema_ok.mp hschema
    dsimp only at h
    rw [utf8Length_encode ha, if_neg (not_lt.mpr (length_encode_le_maximum ha hn))] at h
    cases h

omit [Sha256] in
/-- A builder reads digests before it seals. -/
theorem isCapacity_bind_digest {α : Type} {value label : Text} {f : Digest → Except StoreFailure α}
    (h : canonicalDigest value label >>= f = .error e) (hf : ∀ d, f d = .error e → e.isCapacity = false) :
    e.isCapacity = false := by
  cases hd : canonicalDigest value label with
  | error e' =>
      rw [hd] at h
      cases h
      exact isCapacity_canonicalDigest hd
  | ok d =>
      rw [hd] at h
      exact hf d h

theorem isCapacity_providerSettlementRecord {input : AppendProviderSettlementInput}
    (h : providerSettlementRecord input current = .error e) : e.isCapacity = false := by
  refine isCapacity_bind_digest h fun nonce h => ?_
  refine isCapacity_bind_digest h fun binding h => ?_
  refine isCapacity_bind_digest h fun receipt h => ?_
  exact isCapacity_sealRecord (Nat.zero_le _) h

theorem isCapacity_domainReadbackRecord {input : AppendDomainReadbackInput}
    (h : domainReadbackRecord input current = .error e) : e.isCapacity = false := by
  refine isCapacity_bind_digest h fun nonce h => ?_
  refine isCapacity_bind_digest h fun contract h => ?_
  refine isCapacity_bind_digest h fun receipt h => ?_
  exact isCapacity_sealRecord (Nat.zero_le _) h

theorem isCapacity_lostHandleRecord {input : AppendLostHandleInput}
    (h : lostHandleRecord input current = .error e) : e.isCapacity = false := by
  refine isCapacity_bind_digest h fun nonce h => ?_
  refine isCapacity_bind_digest h fun reference h => ?_
  exact isCapacity_sealRecord (Nat.zero_le _) h

theorem isCapacity_attemptResolutionRecord {input : AppendAttemptResolutionInput}
    (hn : ∀ a, current.activeAttempt = some a → a.providerSettlements.length ≤ 32)
    (h : attemptResolutionRecord input current = .error e) : e.isCapacity = false := by
  unfold attemptResolutionRecord at h
  split at h
  · cases h; rfl
  · rename_i attempt hattempt
    split at h
    · cases h; rfl
    · split at h
      · cases h; rfl
      · refine isCapacity_bind_digest h fun nonce h => ?_
        refine isCapacity_bind_digest h fun reference h => ?_
        refine isCapacity_sealRecord ?_ h
        have hlength : attempt.providerRecordDigests.length = attempt.providerSettlements.length := by
          rw [AttemptObservation.providerRecordDigests, length_sortBy, List.length_map]
        exact hlength.le.trans (hn attempt hattempt)

/-! ## Reserved records -/

omit [Sha256] in
/-- A record of an active attempt takes up one of the reserved records. -/
theorem Advances.reserve_lt (h : Advances current record next) (hstart : record.isAttemptStart = false)
    (hroom : ∀ a fields, record.body = .providerSettlement fields → current.activeAttempt = some a →
      a.providerSettlements.length < limits.maximumProviderSettlementsPerAttempt) :
    next.reserve limits + 1 ≤ current.reserve limits := by
  unfold JournalObservation.reserve
  cases h with
  | attemptStart fields body inactive active => simp [DurableRecord.isAttemptStart, body] at hstart
  | providerSettlement fields a body before allowed after =>
      have hlt := hroom a fields body before
      rw [before, after]
      simp only [AttemptObservation.reserve, allowed.present, allowed.unread, if_true, List.length_append,
        List.length_singleton]
      omega
  | domainReadback fields a body before nonce unread after =>
      rw [before, after]
      simp only [AttemptObservation.reserve, unread, if_true, reduceCtorEq, if_false]
      omega
  | lostHandle fields a body before nonce present unread after =>
      rw [before, after]
      simp only [AttemptObservation.reserve, present, unread, if_true, reduceCtorEq, if_false]
      omega
  | attemptResolution fields a body before allowed inactive latest =>
      rw [before, inactive]
      exact Nat.le_add_left 1 _

omit [Sha256] in
/-- What fits with its reserve still fits with the next record of the active attempt. -/
theorem Fits.advance {bytes added : Nat} (hfits : Fits current limits bytes) (h : Advances current record next)
    (hrecords : next.records = current.records ++ [record]) (hstart : record.isAttemptStart = false)
    (hroom : ∀ a fields, record.body = .providerSettlement fields → current.activeAttempt = some a →
      a.providerSettlements.length < limits.maximumProviderSettlementsPerAttempt)
    (hadded : added ≤ durableExecutionMaximumRecordBytes + 1) : Fits next limits (bytes + added) := by
  have hreserve := h.reserve_lt hstart hroom
  refine ⟨?_, ?_, ?_⟩
  · have := hfits.records
    rw [hrecords, List.length_append, List.length_singleton]
    omega
  · have hbytes := hfits.bytes
    have hmul := Nat.mul_le_mul_right (durableExecutionMaximumRecordBytes + 1) hreserve
    rw [Nat.add_mul, Nat.one_mul] at hmul
    omega
  · rw [attemptCount, hrecords, List.filter_append, List.filter_singleton, hstart]
    simpa [attemptCount] using hfits.attempts

/-- The line of a record stays within what is reserved for it. -/
theorem WellSealed.utf8Length_line (h : WellSealed record) :
    (encodeDurableExecutionRecord record ++ [lineBreak]).utf8Length ≤ durableExecutionMaximumRecordBytes + 1 := by
  rw [← journalText_singleton]
  simpa using utf8Length_journalText_le (List.forall_mem_singleton.mpr h)

/-- The store never refuses a record of the active attempt for its limits, unless it is a settlement too many. -/
theorem Stored.check_advance {key : Digest} {source : Text} (hstored : Stored key source current)
    (hm : limitsMatchIntent current limits) (hsealed : WellSealed record)
    (hnext : observeDurableExecutionJournal (current.records ++ [record]) = .ok next)
    (hstart : record.isAttemptStart = false)
    (hroom : ∀ a fields, record.body = .providerSettlement fields → current.activeAttempt = some a →
      a.providerSettlements.length < limits.maximumProviderSettlementsPerAttempt) :
    checkCumulativeLimits next limits
      (source.utf8Length + (encodeDurableExecutionRecord record ++ [lineBreak]).utf8Length) true = .ok () := by
  obtain ⟨hfits, _, hcount⟩ := hstored.check hm
  have hadvances := observe_concat hstored.observed hnext
  refine checkCumulativeLimits_ok.mpr
    ⟨hfits.advance hadvances (observe_records hnext) hstart hroom hsealed.utf8Length_line, ?_⟩
  intro a ha _
  cases hadvances with
  | attemptStart fields body inactive active => simp [DurableRecord.isAttemptStart, body] at hstart
  | providerSettlement fields b body before allowed after =>
      rw [after, Option.some.injEq] at ha
      subst ha
      rw [List.length_append, List.length_singleton]
      exact hroom b fields body before
  | domainReadback fields b body before nonce unread after =>
      rw [after, Option.some.injEq] at ha
      subst ha
      exact hcount b before
  | lostHandle fields b body before nonce present unread after =>
      rw [after, Option.some.injEq] at ha
      subst ha
      exact hcount b before
  | attemptResolution fields b body before allowed inactive latest =>
      rw [inactive] at ha
      cases ha

/-! ## Requests of an attempt -/

/-- What a request of an attempt asks for is not a start, and a settlement only for a request of one. -/
theorem asks_of_closes {request : StoreRequest} {ask : DurableRecord → Bool} (h : request.closes)
    (hask : ask ∈ request.asks limits) (hr : ask record) : record.isAttemptStart = false ∧
      ∀ fields, record.body = .providerSettlement fields → ∃ input,
        request = .appendProviderSettlementReference input ∧ ask = equivalentProviderSettlement input ∧
          fields.attemptNonceDigest.val = input.attemptNonceDigest := by
  cases request with
  | createIntent input => cases h
  | appendAttemptStart input => cases h
  | appendRecoveredRetryAttemptStart resolution start => cases h
  | appendProviderSettlementReference input =>
      obtain rfl := List.mem_singleton.mp hask
      unfold equivalentProviderSettlement at hr
      split at hr
      · rename_i fields hbody
        simp only [Bool.and_eq_true, decide_eq_true_eq] at hr
        refine ⟨by simp [DurableRecord.isAttemptStart, hbody], fun fields' hbody' => ⟨input, rfl, rfl, ?_⟩⟩
        rw [hbody] at hbody'
        cases hbody'
        exact hr.1.1.1
      · cases hr
  | appendDomainReadbackReference input =>
      obtain rfl := List.mem_singleton.mp hask
      unfold equivalentDomainReadback at hr
      split at hr
      · rename_i fields hbody
        exact ⟨by simp [DurableRecord.isAttemptStart, hbody], fun fields' hbody' => by rw [hbody] at hbody'; cases hbody'⟩
      · cases hr
  | appendLostHandleReference input =>
      obtain rfl := List.mem_singleton.mp hask
      unfold equivalentLostHandle at hr
      split at hr
      · rename_i fields hbody
        exact ⟨by simp [DurableRecord.isAttemptStart, hbody], fun fields' hbody' => by rw [hbody] at hbody'; cases hbody'⟩
      · cases hr
  | appendAttemptResolution input =>
      obtain rfl := List.mem_singleton.mp hask
      unfold equivalentAttemptResolution at hr
      split at hr
      · rename_i fields hbody
        exact ⟨by simp [DurableRecord.isAttemptStart, hbody], fun fields' hbody' => by rw [hbody] at hbody'; cases hbody'⟩
      · cases hr

end SecPlatform.DurableExecution
