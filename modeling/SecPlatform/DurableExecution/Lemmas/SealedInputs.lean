import SecPlatform.DurableExecution.Lemmas.StoredJournal

/-!
# The records that the store seals from its inputs
-/

namespace SecPlatform.DurableExecution

open Contracts

theorem canonicalDigest_ok {value label : Text} {d : Digest} : canonicalDigest value label = .ok d ↔ d.val = value := by
  unfold canonicalDigest
  split
  · rw [Except.ok.injEq]
    exact ⟨fun h => h ▸ rfl, fun h => Subtype.ext h.symm⟩
  · rename_i hno
    constructor
    · intro h; cases h
    · rintro rfl; exact absurd d.property hno

@[simp] theorem canonicalDigest_val (d : Digest) (label : Text) : canonicalDigest d.val label = .ok d :=
  canonicalDigest_ok.mpr rfl

theorem canonicalNullableDigest_ok {value : Option Text} {label : Text} {d : Option Digest} :
    canonicalNullableDigest value label = .ok d ↔ d.map Subtype.val = value := by
  cases value with
  | none => cases d <;> simp [canonicalNullableDigest]
  | some value =>
      rw [canonicalNullableDigest, map_eq_ok]
      constructor
      · rintro ⟨d', hd, rfl⟩
        rw [Option.map_some, canonicalDigest_ok.mp hd]
      · intro h
        obtain ⟨d', rfl, hd⟩ := Option.map_eq_some_iff.mp h
        exact ⟨d', canonicalDigest_ok.mpr hd, rfl⟩

variable [Sha256] {current : JournalObservation} {record : DurableRecord}

theorem sealRecord_ok {value : UnsignedRecord} (h : sealRecord value = .ok record) :
    WellSealed record ∧ record.base = value.base ∧ record.body = value.body := by
  obtain ⟨hsealed, rfl⟩ := wellSealed_of_seal (mapError_eq_ok.mp h)
  exact ⟨hsealed, rfl, rfl⟩

/-- A record under its own digest. -/
def UnsignedRecord.sealed (value : UnsignedRecord) : DurableRecord := ⟨value, recordDigestOf value⟩

theorem wellSealed_sealed {value : UnsignedRecord} (h : value.Admissible) (hn : value.body.settlementReferences ≤ 32) :
    WellSealed value.sealed := by
  refine sealDurableExecutionRecordForInternalWriter_ok.mpr ⟨h, rfl, ?_⟩
  rw [utf8Length_encode h]
  exact length_encode_le_maximum h hn

/-- A record within its schema is sealed. -/
theorem sealRecord_of_admissible {value : UnsignedRecord} (h : value.Admissible)
    (hn : value.body.settlementReferences ≤ 32) : sealRecord value = .ok value.sealed :=
  mapError_eq_ok.mpr (wellSealed_sealed h hn)

theorem intentRecord_ok {limits : StoreLimits} {input : CreateIntentInput}
    (h : intentRecord limits input = .ok record) : WellSealed record ∧
      record.base.operationKeyDigest.val = input.operationKeyDigest ∧ ∃ fields, record.body = .intent fields ∧
        fields.maximumRecords = limits.maximumRecords ∧ fields.maximumStateBytes = limits.maximumStateBytes ∧
        fields.maximumAttempts = limits.maximumAttempts ∧
        fields.maximumProviderSettlementsPerAttempt = limits.maximumProviderSettlementsPerAttempt := by
  unfold intentRecord at h
  obtain ⟨key, hkey, h⟩ := bind_eq_ok.mp h
  obtain ⟨reference, _, h⟩ := bind_eq_ok.mp h
  obtain ⟨plan, _, h⟩ := bind_eq_ok.mp h
  obtain ⟨hsealed, hbase, hbody⟩ := sealRecord_ok h
  refine ⟨hsealed, ?_, _, hbody, rfl, rfl, rfl, rfl⟩
  rw [hbase]
  exact canonicalDigest_ok.mp hkey

theorem attemptStartRecord_ok {input : AppendAttemptStartInput} {retry : Option Text}
    (h : attemptStartRecord input retry current = .ok record) : WellSealed record ∧ ∃ fields,
      record.body = .attemptStart fields ∧
        sameAttemptStart fields { input with retryAdmissionReferenceDigest := retry } := by
  unfold attemptStartRecord at h
  obtain ⟨runId, hrunId, h⟩ := bind_eq_ok.mp h
  obtain ⟨epoch, hepoch, h⟩ := bind_eq_ok.mp h
  obtain ⟨nonce, hnonce, h⟩ := bind_eq_ok.mp h
  obtain ⟨bound, hbound, h⟩ := bind_eq_ok.mp h
  obtain ⟨worker, hworker, h⟩ := bind_eq_ok.mp h
  obtain ⟨grant, hgrant, h⟩ := bind_eq_ok.mp h
  obtain ⟨bindings, hbindings, h⟩ := bind_eq_ok.mp h
  obtain ⟨plan, hplan, h⟩ := bind_eq_ok.mp h
  obtain ⟨admission, hadmission, h⟩ := bind_eq_ok.mp h
  obtain ⟨hsealed, _, hbody⟩ := sealRecord_ok h
  refine ⟨hsealed, _, hbody, ?_⟩
  simp only [sameAttemptStart, Bool.and_eq_true, decide_eq_true_eq]
  exact ⟨⟨⟨⟨⟨⟨⟨⟨⟨canonicalDigest_ok.mp hnonce, canonicalDigest_ok.mp hbound⟩, canonicalNullableDigest_ok.mp hrunId⟩,
    canonicalNullableDigest_ok.mp hepoch⟩, canonicalDigest_ok.mp hworker⟩, canonicalDigest_ok.mp hgrant⟩,
    canonicalDigest_ok.mp hbindings⟩, canonicalDigest_ok.mp hplan⟩, trivial⟩, canonicalNullableDigest_ok.mp hadmission⟩

theorem attemptStartRecord_equivalent {input : AppendAttemptStartInput} {retry : Option Text}
    (h : attemptStartRecord input retry current = .ok record) :
    WellSealed record ∧ equivalentAttemptStart { input with retryAdmissionReferenceDigest := retry } record := by
  obtain ⟨hsealed, fields, hbody, hsame⟩ := attemptStartRecord_ok h
  exact ⟨hsealed, by rw [equivalentAttemptStart, hbody]; exact hsame⟩

theorem providerSettlementRecord_equivalent {input : AppendProviderSettlementInput}
    (h : providerSettlementRecord input current = .ok record) :
    WellSealed record ∧ equivalentProviderSettlement input record := by
  unfold providerSettlementRecord at h
  obtain ⟨nonce, hnonce, h⟩ := bind_eq_ok.mp h
  obtain ⟨binding, hbinding, h⟩ := bind_eq_ok.mp h
  obtain ⟨receipt, hreceipt, h⟩ := bind_eq_ok.mp h
  obtain ⟨hsealed, _, hbody⟩ := sealRecord_ok h
  refine ⟨hsealed, ?_⟩
  rw [equivalentProviderSettlement, hbody]
  simp only [commonRecord, Bool.and_eq_true, decide_eq_true_eq]
  exact ⟨⟨⟨canonicalDigest_ok.mp hnonce, trivial⟩, canonicalDigest_ok.mp hbinding⟩, canonicalDigest_ok.mp hreceipt⟩

theorem domainReadbackRecord_equivalent {input : AppendDomainReadbackInput}
    (h : domainReadbackRecord input current = .ok record) :
    WellSealed record ∧ equivalentDomainReadback input record := by
  unfold domainReadbackRecord at h
  obtain ⟨nonce, hnonce, h⟩ := bind_eq_ok.mp h
  obtain ⟨contract, hcontract, h⟩ := bind_eq_ok.mp h
  obtain ⟨receipt, hreceipt, h⟩ := bind_eq_ok.mp h
  obtain ⟨hsealed, _, hbody⟩ := sealRecord_ok h
  refine ⟨hsealed, ?_⟩
  rw [equivalentDomainReadback, hbody]
  simp only [commonRecord, Bool.and_eq_true, decide_eq_true_eq]
  exact ⟨⟨canonicalDigest_ok.mp hnonce, canonicalDigest_ok.mp hcontract⟩, canonicalDigest_ok.mp hreceipt⟩

theorem lostHandleRecord_equivalent {input : AppendLostHandleInput}
    (h : lostHandleRecord input current = .ok record) : WellSealed record ∧ equivalentLostHandle input record := by
  unfold lostHandleRecord at h
  obtain ⟨nonce, hnonce, h⟩ := bind_eq_ok.mp h
  obtain ⟨reference, hreference, h⟩ := bind_eq_ok.mp h
  obtain ⟨hsealed, _, hbody⟩ := sealRecord_ok h
  refine ⟨hsealed, ?_⟩
  rw [equivalentLostHandle, hbody]
  simp only [commonRecord, Bool.and_eq_true, decide_eq_true_eq]
  exact ⟨canonicalDigest_ok.mp hnonce, canonicalDigest_ok.mp hreference⟩

theorem resolutionRecord_equivalent {input : AppendAttemptResolutionInput} {kind : AttemptResolutionKind}
    {attempt : AttemptObservation} (h : resolutionRecord input kind attempt current = .ok record) :
    WellSealed record ∧ equivalentAttemptResolution { input with resolutionKind := kind } record ∧
      ∃ fields, record.body = .attemptResolution fields := by
  unfold resolutionRecord at h
  obtain ⟨nonce, hnonce, h⟩ := bind_eq_ok.mp h
  obtain ⟨reference, hreference, h⟩ := bind_eq_ok.mp h
  obtain ⟨hsealed, _, hbody⟩ := sealRecord_ok h
  refine ⟨hsealed, ?_, _, hbody⟩
  rw [equivalentAttemptResolution, hbody]
  simp only [commonRecord, Bool.and_eq_true, decide_eq_true_eq]
  exact ⟨⟨canonicalDigest_ok.mp hnonce, trivial⟩, canonicalDigest_ok.mp hreference⟩

theorem attemptResolutionRecord_ok {input : AppendAttemptResolutionInput}
    (h : attemptResolutionRecord input current = .ok record) :
    ∃ attempt, current.activeAttempt = some attempt ∧
      resolutionRecord input input.resolutionKind attempt current = .ok record := by
  unfold attemptResolutionRecord at h
  split at h
  · cases h
  · rename_i attempt hattempt
    split at h
    · cases h
    · split at h
      · cases h
      · exact ⟨attempt, hattempt, h⟩

theorem attemptResolutionRecord_equivalent {input : AppendAttemptResolutionInput}
    (h : attemptResolutionRecord input current = .ok record) :
    WellSealed record ∧ equivalentAttemptResolution input record := by
  obtain ⟨attempt, _, hrecord⟩ := attemptResolutionRecord_ok h
  obtain ⟨hsealed, hequivalent, _⟩ := resolutionRecord_equivalent hrecord
  exact ⟨hsealed, hequivalent⟩

end SecPlatform.DurableExecution
