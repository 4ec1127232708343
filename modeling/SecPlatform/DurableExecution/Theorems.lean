import SecPlatform.DurableExecution.Lemmas.WriterRuns

/-!
# Durable execution journals: main results
-/

namespace SecPlatform.DurableExecution

open Contracts FileProgram FileSystem

/-! ## Accepted journals -/

/-- An accepted sequence of records is a lawful journal, and so is every non-empty part of it from the start. -/
theorem observeDurableExecutionJournal_lawful [Sha256] {records : List DurableRecord} {obs : JournalObservation}
    (h : observeDurableExecutionJournal records = .ok obs) :
    LawfulJournal obs.intent records ∧
      ∀ pre, pre <+: records → pre ≠ [] → Succeeds (observeDurableExecutionJournal pre) := by
  obtain ⟨intent, st, haccepts, rfl⟩ := observeDurableExecutionJournal_ok.mp h
  refine ⟨haccepts.lawful, ?_⟩
  rintro pre ⟨post, rfl⟩ hne
  obtain ⟨st', hpre, _⟩ := haccepts.front hne
  exact ⟨_, hpre.observes⟩

section Example

/-- A digest whose digits are all the same. -/
def exampleDigest (c : Char) (h : isHexDigit (unit c) = true := by decide) : Digest :=
  ⟨Text.ofString "sha256:" ++ List.replicate 64 (unit c), by
    have hall : (List.replicate 64 (unit c)).all isHexDigit := by rw [List.all_replicate, if_neg (by simp), h]
    have hhex : isDigestHex (List.replicate 64 (unit c)) := by
      rw [isDigestHex, hall, List.length_replicate]
      rfl
    exact (Bool.and_eq_true _ _).mpr ⟨decide_eq_true (List.prefix_append _ _), hhex⟩⟩

/-- The hash of the list of the five record digests below. -/
def settledJournalDigest : Digest :=
  ⟨"sha256:4997e61a49be58c196bef5123c273864f034a692d9820c297ce0f2a3cc7ad29b", by decide⟩

def settledIntent : IntentFields where
  intentReferenceDigest := exampleDigest 'a'
  executionPlanReferenceDigest := exampleDigest 'b'
  deadlineAtUnixMs := 2000
  maximumRecords := 16
  maximumStateBytes := 65536
  maximumAttempts := 2
  maximumProviderSettlementsPerAttempt := 1

def settledStart : AttemptStartFields where
  runIdDigest := none
  resumeEpochDigest := none
  attemptNonceDigest := exampleDigest 'c'
  boundAttemptDigest := exampleDigest 'd'
  workerIdentityDigest := exampleDigest 'e'
  authorityGrantReferenceDigest := exampleDigest 'f'
  providerBindingSetReferenceDigest := exampleDigest '0'
  executionPlanReferenceDigest := exampleDigest 'b'
  deadlineAtUnixMs := 2000
  retryAdmissionReferenceDigest := none

/-- An attempt that is settled, read back and ended by its owner. -/
def settledRecords : List DurableRecord :=
  let base (sequence : Nat) (previous : Option Digest) : RecordBase := ⟨sequence, exampleDigest '9', previous⟩
  [ ⟨⟨base 0 none, .intent settledIntent⟩, exampleDigest '1'⟩,
    ⟨⟨base 1 (exampleDigest '1'), .attemptStart settledStart⟩, exampleDigest '2'⟩,
    ⟨⟨base 2 (exampleDigest '2'), .providerSettlement ⟨exampleDigest 'c', "compute.run", exampleDigest '6',
      exampleDigest '7'⟩⟩, exampleDigest '3'⟩,
    ⟨⟨base 3 (exampleDigest '3'), .domainReadback ⟨exampleDigest 'c', exampleDigest '6', exampleDigest '8'⟩⟩,
      exampleDigest '4'⟩,
    ⟨⟨base 4 (exampleDigest '4'), .attemptResolution ⟨exampleDigest 'c', .ownerTerminalReference, exampleDigest '8',
      [exampleDigest '3'], exampleDigest '4'⟩⟩, exampleDigest '5'⟩ ]

/-- The laws hold of the journal of the ended attempt. -/
theorem observeDurableExecutionJournal_lawful_settled :
    let _ : Sha256 := ⟨fun _ => settledJournalDigest⟩
    ∃ obs, observeDurableExecutionJournal settledRecords = .ok obs ∧ LawfulJournal obs.intent settledRecords ∧
      ∀ pre, pre <+: settledRecords → pre ≠ [] → Succeeds (observeDurableExecutionJournal pre) :=
  let _ : Sha256 := ⟨fun _ => settledJournalDigest⟩
  ⟨_, rfl, observeDurableExecutionJournal_lawful rfl⟩

end Example

/-! ## The texts of records and journals -/

/-- The encodings of sealed records and the readers are inverse to each other: what is written is read back, and
nothing else is accepted. -/
theorem durableExecution_codec [Sha256] :
    (∀ value record, sealDurableExecutionRecordForInternalWriter value = .ok record →
      parseDurableExecutionRecord (encodeDurableExecutionRecord record) = .ok record) ∧
    (∀ source record, parseDurableExecutionRecord source = .ok record →
      encodeDurableExecutionRecord record = source ∧
        sealDurableExecutionRecordForInternalWriter record.toUnsignedRecord = .ok record) ∧
    (∀ records obs, (∀ r ∈ records, sealDurableExecutionRecordForInternalWriter r.toUnsignedRecord = .ok r) →
      observeDurableExecutionJournal records = .ok obs →
        parseDurableExecutionJournal (journalText records) = .ok obs ∧ obs.records = records) ∧
    (∀ source obs, parseDurableExecutionJournal source = .ok obs →
      journalText obs.records = source ∧ observeDurableExecutionJournal obs.records = .ok obs ∧
        ∀ r ∈ obs.records, sealDurableExecutionRecordForInternalWriter r.toUnsignedRecord = .ok r) := by
  refine ⟨fun value record h => ?_, fun source record h => ?_, fun records obs hsealed h => ?_, fun source obs h => ?_⟩
  · exact parseDurableExecutionRecord_ok.mpr ⟨rfl, (wellSealed_of_seal h).1⟩
  · obtain ⟨rfl, hsealed⟩ := parseDurableExecutionRecord_ok.mp h
    exact ⟨rfl, hsealed⟩
  · have hrecords := observe_records h
    exact ⟨parseDurableExecutionJournal_ok.mpr (hrecords.symm ▸ ⟨rfl, hsealed, h⟩), hrecords⟩
  · obtain ⟨hsource, hsealed, hobserved⟩ := parseDurableExecutionJournal_ok.mp h
    exact ⟨hsource.symm, hobserved, hsealed⟩

/-! ## Writers of one journal -/

namespace OvertakenRetry

def retryKey : Digest := exampleDigest '9'

theorem normalizeLimits_retry : normalizeLimits false ⟨16, 65536, 2, 1⟩ = .ok ⟨16, 65536, 2, 1⟩ := rfl

def retryLimits : WriterLimits := ⟨⟨16, 65536, 2, 1⟩, normalizeLimits_retry⟩

def readbackFields : DomainReadbackFields := ⟨settledStart.attemptNonceDigest, exampleDigest '6', exampleDigest '8'⟩

/-- The start of a successor by one of the workers. -/
def successorFields (worker : Digest) : AttemptStartFields := { settledStart with
  attemptNonceDigest := exampleDigest 'd'
  workerIdentityDigest := worker
  retryAdmissionReferenceDigest := some (exampleDigest '7') }

/-! ### Requests -/

def createInput : CreateIntentInput where
  operationKeyDigest := retryKey.val
  intentReferenceDigest := settledIntent.intentReferenceDigest.val
  executionPlanReferenceDigest := settledIntent.executionPlanReferenceDigest.val
  deadlineAtUnixMs := settledIntent.deadlineAtUnixMs

def predecessorInput : AppendAttemptStartInput where
  operationKeyDigest := retryKey.val
  runIdDigest := none
  resumeEpochDigest := none
  attemptNonceDigest := settledStart.attemptNonceDigest.val
  boundAttemptDigest := settledStart.boundAttemptDigest.val
  workerIdentityDigest := settledStart.workerIdentityDigest.val
  authorityGrantReferenceDigest := settledStart.authorityGrantReferenceDigest.val
  providerBindingSetReferenceDigest := settledStart.providerBindingSetReferenceDigest.val
  executionPlanReferenceDigest := settledStart.executionPlanReferenceDigest.val
  deadlineAtUnixMs := settledStart.deadlineAtUnixMs
  retryAdmissionReferenceDigest := none

def readbackInput : AppendDomainReadbackInput where
  operationKeyDigest := retryKey.val
  attemptNonceDigest := readbackFields.attemptNonceDigest.val
  readbackContractDigest := readbackFields.readbackContractDigest.val
  domainReadbackReceiptDigest := readbackFields.domainReadbackReceiptDigest.val

def resolutionInput : AppendAttemptResolutionInput where
  operationKeyDigest := retryKey.val
  attemptNonceDigest := settledStart.attemptNonceDigest.val
  resolutionKind := .retryAdmissionReference
  resolutionReferenceDigest := (exampleDigest '7').val
  domainReadbackReceiptDigest := readbackFields.domainReadbackReceiptDigest.val

def successorInput (worker : Digest) : AppendAttemptStartInput := { predecessorInput with
  attemptNonceDigest := (successorFields worker).attemptNonceDigest.val
  workerIdentityDigest := worker.val }

def retryCall (request : StoreRequest) (h : request.operationKeyDigest = retryKey.val) : WriterCall retryKey :=
  ⟨retryLimits, request, h⟩

/-! ### Records -/

section Run

variable [Sha256] (worker : Digest)

def retryIntent : DurableRecord := UnsignedRecord.sealed ⟨⟨0, retryKey, none⟩, .intent settledIntent⟩

def predecessor : DurableRecord :=
  UnsignedRecord.sealed ⟨⟨1, retryKey, some retryIntent.recordDigest⟩, .attemptStart settledStart⟩

def readback : DurableRecord :=
  UnsignedRecord.sealed ⟨⟨2, retryKey, some predecessor.recordDigest⟩, .domainReadback readbackFields⟩

def resolutionFields : AttemptResolutionFields where
  attemptNonceDigest := settledStart.attemptNonceDigest
  resolutionKind := .retryAdmissionReference
  resolutionReferenceDigest := exampleDigest '7'
  providerSettlementRecordDigests := []
  domainReadbackRecordDigest := some readback.recordDigest

def resolution : DurableRecord :=
  UnsignedRecord.sealed ⟨⟨3, retryKey, some readback.recordDigest⟩, .attemptResolution resolutionFields⟩

def successor : DurableRecord :=
  UnsignedRecord.sealed ⟨⟨4, retryKey, some resolution.recordDigest⟩, .attemptStart (successorFields worker)⟩

def retryRecords : List DurableRecord := [retryIntent, predecessor, readback, resolution, successor worker]

theorem wellSealed_retry : ∀ r ∈ retryRecords worker, WellSealed r := by
  have hintent : WellSealed retryIntent := wellSealed_sealed ⟨by decide, by decide⟩ (Nat.zero_le _)
  have hpredecessor : WellSealed predecessor := wellSealed_sealed ⟨(by decide : 1 < 2 ^ 53), (by decide : 1 ≤ 2000 ∧ 2000 < 2 ^ 53)⟩ (Nat.zero_le _)
  have hreadback : WellSealed readback := wellSealed_sealed ⟨(by decide : 2 < 2 ^ 53), trivial⟩ (Nat.zero_le _)
  have hresolution : WellSealed resolution := wellSealed_sealed ⟨(by decide : 3 < 2 ^ 53), trivial⟩ (Nat.zero_le _)
  have hsuccessor : WellSealed (successor worker) :=
    wellSealed_sealed ⟨(by decide : 4 < 2 ^ 53), (by decide : 1 ≤ 2000 ∧ 2000 < 2 ^ 53)⟩ (Nat.zero_le _)
  simp only [retryRecords, List.forall_mem_cons]
  exact ⟨hintent, hpredecessor, hreadback, hresolution, hsuccessor, by simp⟩

/-! ### Observations -/

/-- The observing loop behind each of the records. -/
def afterIntent : Observing := ⟨some retryIntent, none, none, none, []⟩

def afterPredecessor : Observing := ⟨some predecessor, some ⟨predecessor.as settledStart, [], none, none⟩, none,
  some (predecessor.as settledStart), [settledStart.attemptNonceDigest]⟩

def afterReadback : Observing := { afterPredecessor with
  previous := some readback
  active := some ⟨predecessor.as settledStart, [], some (readback.as readbackFields), none⟩ }

def afterResolution : Observing := { afterReadback with
  previous := some resolution
  active := none
  latestResolution := some (resolution.as resolutionFields) }

def afterSuccessor : Observing := { afterResolution with
  previous := some (successor worker)
  active := some ⟨(successor worker).as (successorFields worker), [], none, none⟩
  previousAttemptStart := some ((successor worker).as (successorFields worker))
  attemptNonces := [exampleDigest 'd', settledStart.attemptNonceDigest] }

theorem accepts_intent : Accepts [retryIntent] (retryIntent.as settledIntent) afterIntent :=
  ⟨⟨_, _, _, rfl, rfl, rfl⟩, by
    rw [observeFrom, observeRecord_zero.mpr ⟨⟨rfl, rfl, rfl⟩, rfl⟩]
    rfl⟩

theorem accepts_predecessor : Accepts [retryIntent, predecessor] (retryIntent.as settledIntent) afterPredecessor := by
  refine accepts_intent.concat.mpr ((observeRecord_ok (by simp)).mpr ⟨⟨rfl, rfl, rfl⟩, ?_⟩)
  exact observeAttemptStart_ok.mpr
    ⟨⟨rfl, fun _ => rfl, by rintro _ ⟨⟩, rfl, Nat.le_refl 2000, by rintro _ ⟨⟩, List.not_mem_nil⟩, rfl⟩

theorem accepts_readback :
    Accepts [retryIntent, predecessor, readback] (retryIntent.as settledIntent) afterReadback := by
  refine accepts_predecessor.concat.mpr ((observeRecord_ok (by simp)).mpr ⟨⟨rfl, rfl, rfl⟩, ?_⟩)
  change observeDomainReadback afterPredecessor readback readbackFields = .ok afterReadback
  exact observeDomainReadback_ok.mpr ⟨⟨predecessor.as settledStart, [], none, none⟩, rfl, rfl, rfl, rfl⟩

theorem accepts_resolution :
    Accepts [retryIntent, predecessor, readback, resolution] (retryIntent.as settledIntent) afterResolution := by
  refine accepts_readback.concat.mpr ((observeRecord_ok (by simp)).mpr ⟨⟨rfl, rfl, rfl⟩, ?_⟩)
  change observeAttemptResolution afterReadback resolution resolutionFields = .ok afterResolution
  exact observeAttemptResolution_ok.mpr ⟨⟨predecessor.as settledStart, [], some (readback.as readbackFields), none⟩,
    rfl, ⟨rfl, rfl, readback.as readbackFields, rfl, rfl⟩, rfl⟩

theorem accepts_successor :
    Accepts (retryRecords worker) (retryIntent.as settledIntent) (afterSuccessor worker) := by
  refine accepts_resolution.concat.mpr ((observeRecord_ok (by simp)).mpr ⟨⟨rfl, rfl, rfl⟩, ?_⟩)
  refine observeAttemptStart_ok.mpr ⟨⟨rfl, ?_, ?_, rfl, Nat.le_refl 2000, ?_, ?_⟩, rfl⟩
  · rintro ⟨⟩
  · rintro _ ⟨⟩
    exact ⟨rfl, rfl⟩
  · rintro _ ⟨⟩
    exact Nat.le_refl 2000
  · change exampleDigest 'd' ∉ [settledStart.attemptNonceDigest]
    decide

/-! ### The run -/

variable {permitted : JournalSystem retryKey → Action (WriterCall retryKey) CodeUnit JournalReadFailure → Prop}

abbrev observed (st : Observing) (records : List DurableRecord) : JournalObservation :=
  st.observation (retryIntent.as settledIntent) records

/-- The journal is created, an attempt is started and read back. -/
def opened : List (FileCall (WriterCall retryKey) CodeUnit JournalReadFailure StoreFailure JournalObservation) := [
  ⟨retryCall (.createIntent createInput) rfl, pure (observed afterIntent [retryIntent]), false⟩,
  ⟨retryCall (.appendAttemptStart predecessorInput) rfl, pure (observed afterPredecessor [retryIntent, predecessor]),
    false⟩,
  ⟨retryCall (.appendDomainReadbackReference readbackInput) rfl,
    pure (observed afterReadback [retryIntent, predecessor, readback]), false⟩]

theorem reachable_opened (hp : PermitsUnlost permitted) :
    Reachable WriterCall.program JournalReads permitted
      ⟨some (journalText [retryIntent, predecessor, readback]), opened⟩ ∧
      Stored retryKey (journalText [retryIntent, predecessor, readback])
        (observed afterReadback [retryIntent, predecessor, readback]) := by
  have hsealed := wellSealed_retry (exampleDigest 'e')
  simp only [retryRecords, List.forall_mem_cons] at hsealed
  obtain ⟨hintent, hpredecessor, hreadback, _⟩ := hsealed
  have hcheck₀ : checkCumulativeLimits (observed afterIntent [retryIntent]) retryLimits.val
      (journalText [retryIntent]).utf8Length false = .ok () := by
    have hsize := utf8Length_journalText_le (List.forall_mem_singleton.mpr hintent)
    exact checkCumulativeLimits_unreserved.mpr ⟨Nat.le_of_ble_eq_true rfl, hsize.trans (by simp [retryLimits, durableExecutionMaximumRecordBytes]), Nat.zero_le _⟩
  have hcheck₁ : checkCumulativeLimits (observed afterPredecessor [retryIntent, predecessor]) retryLimits.val
      ((journalText [retryIntent]).utf8Length + (journalText [predecessor]).utf8Length) true = .ok () :=
    checkCumulativeLimits_of_room (by simp [hintent]) (by simp [hpredecessor]) (Nat.le_of_ble_eq_true rfl)
      (by rw [show (observed afterPredecessor [retryIntent, predecessor]).reserve retryLimits.val = 4 from rfl]; simp [retryLimits, durableExecutionMaximumRecordBytes]) (Nat.le_of_ble_eq_true rfl) (by rintro _ ⟨⟩; exact Nat.zero_le _)
  have hcheck₂ : checkCumulativeLimits (observed afterReadback [retryIntent, predecessor, readback]) retryLimits.val
      ((journalText [retryIntent, predecessor]).utf8Length + (journalText [readback]).utf8Length) true = .ok () :=
    checkCumulativeLimits_of_room (by simp [hintent, hpredecessor]) (by simp [hreadback]) (Nat.le_of_ble_eq_true rfl)
      (by rw [show (observed afterReadback [retryIntent, predecessor, readback]).reserve retryLimits.val = 3 from rfl]; simp [retryLimits, durableExecutionMaximumRecordBytes]) (Nat.le_of_ble_eq_true rfl) (by rintro _ ⟨⟩; exact Nat.zero_le _)
  obtain ⟨hreachable₀, hstored₀⟩ : Reachable WriterCall.program JournalReads permitted
      ⟨some (journalText [retryIntent]), opened.take 1⟩ ∧
      Stored retryKey (journalText [retryIntent]) (observed afterIntent [retryIntent]) := by
    refine reachable_createIntent hp .empty rfl ?_ accepts_intent.observes hcheck₀
    simp only [retryCall, intentRecord, createInput, canonicalDigest_val, ok_bind]
    exact sealRecord_of_admissible (wellSealed_iff.mp hintent).1 (Nat.zero_le _)
  obtain ⟨hreachable₁, hstored₁⟩ : Reachable WriterCall.program JournalReads permitted
      ⟨some (journalText [retryIntent, predecessor]), opened.take 2⟩ ∧
      Stored retryKey (journalText [retryIntent, predecessor]) (observed afterPredecessor [retryIntent, predecessor]) := by
    refine reachable_append (observed afterIntent _) (observed afterPredecessor _) hp hreachable₀ hstored₀ rfl rfl rfl ?_ hpredecessor accepts_predecessor.observes hcheck₁
    simp only [attemptStartRecord, predecessorInput, canonicalDigest_val, canonicalNullableDigest, ok_bind]
    exact sealRecord_of_admissible (wellSealed_iff.mp hpredecessor).1 (Nat.zero_le _)
  refine reachable_append (observed afterPredecessor _) (observed afterReadback _) hp hreachable₁ hstored₁ rfl rfl rfl ?_ hreadback accepts_readback.observes hcheck₂
  simp only [domainReadbackRecord, readbackInput, canonicalDigest_val, ok_bind]
  exact sealRecord_of_admissible (wellSealed_iff.mp hreadback).1 (Nat.zero_le _)

/-- The calls of two recovered retries. -/
abbrev retry : WriterCall retryKey :=
  retryCall (.appendRecoveredRetryAttemptStart resolutionInput (successorInput worker)) rfl

theorem quiet_retryCall : ∃ rest, rest true = pure (observed (afterSuccessor worker) (retryRecords worker)) ∧
    rest false = (do
        let concurrent ← required retryLimits.val retryKey.val
        if concurrentRetry resolutionInput (successorInput worker) concurrent then return concurrent
        else lift (failStore .conflict "journal changed during atomic retry transition.")) ∧
      Quiet boundedRead (some (journalText [retryIntent, predecessor, readback])) (retry worker).program
        (.append (journalText [retryIntent, predecessor, readback]) (journalText [resolution, successor worker]) rest) := by
  have hsealed := wellSealed_retry worker
  simp only [retryRecords, List.forall_mem_cons] at hsealed
  obtain ⟨hintent, hpredecessor, hreadback, hresolution, hsuccessor, _⟩ := hsealed
  obtain ⟨_, hstored⟩ := reachable_opened permitsUnlost_soundReads
  refine quiet_retry rfl hstored rfl rfl rfl rfl rfl ?_ accepts_resolution.observes ?_ (accepts_successor worker).observes ?_
  · simp only [resolutionRecord, resolutionInput, canonicalDigest_val, ok_bind]
    exact sealRecord_of_admissible (wellSealed_iff.mp hresolution).1 (Nat.zero_le _)
  · simp only [attemptStartRecord, successorInput, predecessorInput, canonicalDigest_val, canonicalNullableDigest, ok_bind]
    exact sealRecord_of_admissible (wellSealed_iff.mp hsuccessor).1 (Nat.zero_le _)
  · refine checkCumulativeLimits_of_room (by simp [hintent, hpredecessor, hreadback]) (by simp [hresolution, hsuccessor])
      (Nat.le_of_ble_eq_true rfl) ?_ (Nat.le_of_ble_eq_true rfl) (by rintro _ ⟨⟩; exact Nat.zero_le _)
    rw [show (observed (afterSuccessor worker) (retryRecords worker)).reserve retryLimits.val = 4 from rfl]
    simp [retryLimits, durableExecutionMaximumRecordBytes]

def overtaker : Digest := exampleDigest 'e'

def overtaken : Digest := exampleDigest 'f'

/-- One retry is at its append when the other one has made its own. -/
theorem reachable_overtaken (hp : PermitsUnlost permitted) : ∃ rest,
    rest false = (do
      let concurrent ← required retryLimits.val retryKey.val
      if concurrentRetry resolutionInput (successorInput overtaken) concurrent then return concurrent
      else lift (failStore .conflict "journal changed during atomic retry transition.")) ∧
    Reachable WriterCall.program JournalReads permitted ⟨some (journalText (retryRecords overtaker)), opened ++
      [⟨retry overtaken, .append (journalText [retryIntent, predecessor, readback])
        (journalText [resolution, successor overtaken]) rest, false⟩] ++
      [⟨retry overtaker, pure (observed (afterSuccessor overtaker) (retryRecords overtaker)), false⟩]⟩ := by
  obtain ⟨rest, _, hrefused, hquiet⟩ := quiet_retryCall overtaken
  obtain ⟨rest', haccepted, _, hquiet'⟩ := quiet_retryCall overtaker
  have hreachable := ((reachable_opened hp).1.issue boundedRead_reads hp hquiet).issue boundedRead_reads hp hquiet'
  have happended := hreachable.appended_last hp
  rw [haccepted, ← journalText_append] at happended
  exact ⟨rest, hrefused, happended⟩

theorem stored_overtaken : Stored retryKey (journalText (retryRecords overtaker))
    (observed (afterSuccessor overtaker) (retryRecords overtaker)) := by
  obtain ⟨rest, _, hreachable⟩ := reachable_overtaken permitsUnlost_soundReads
  have hinvariant : Invariant JournalReads (writerSpec retryKey True) _ :=
    (hreachable.mono fun _ _ => guarded_of_soundReads).invariant meets_program
  obtain ⟨obs, hstored⟩ := hinvariant.valid _ rfl
  have hobs := (accepts_successor overtaker).observes
  rw [← parseDurableExecutionJournal_text (by simp [retryRecords]) (wellSealed_retry _), hstored.parsed] at hobs
  rwa [Except.ok.inj hobs] at hstored

theorem exists_not_safe : ∃ s : JournalSystem retryKey,
    Reachable WriterCall.program JournalReads (fun _ _ => True) s ∧ ¬JournalSystem.Safe s := by
  have hp : PermitsUnlost fun (_ : JournalSystem retryKey) (_ : Action (WriterCall retryKey) _ _) => True :=
    fun _ _ _ => trivial
  obtain ⟨rest, hrefused, hreachable⟩ := reachable_overtaken hp
  have hlost := hreachable.step (Step.appendRefused (i := 3) rfl rfl) trivial
  have hquiet : Quiet boundedRead (some (journalText (retryRecords overtaker))) (rest false)
      (pure (observed (afterSuccessor overtaker) (retryRecords overtaker))) := by
    rw [hrefused]
    exact (quiet_required stored_overtaken rfl).bind (.refl _)
  have hanswer := hlost.quiet (i := 3) boundedRead_reads (fun _ _ _ _ => trivial) rfl rfl hquiet
  refine ⟨_, hanswer, fun hsafe => ?_⟩
  obtain ⟨text, obs, hfile, hparsed, _, _, hasks⟩ := hsafe.answered ⟨retry overtaken, _, true⟩
    (List.mem_of_getElem? (i := 3) rfl) _ rfl
  obtain rfl := Option.some.inj hfile
  obtain rfl := stored_overtaken.unique hparsed
  have hone := hasks (equivalentAttemptStart (StoreRequest.retryStart resolutionInput (successorInput overtaken)))
    (List.mem_cons_of_mem _ List.mem_cons_self)
  have hzero : (retryRecords overtaker).countP
      (equivalentAttemptStart (StoreRequest.retryStart resolutionInput (successorInput overtaken))) = 0 := rfl
  exact absurd (hone.symm.trans hzero) Nat.one_ne_zero

end Run

end OvertakenRetry

/-! ## Reserved capacity -/

/-- In every run, a request for a record of a started attempt fails for its capacity only when the limits of its store
are not those of the journal or when it is a settlement too many, and a journal can be read under its limits. -/
theorem reachable_capacity [Sha256] {key : Digest} {s : JournalSystem key}
    (h : Reachable WriterCall.program JournalReads (fun _ _ => True) s) :
    (∀ call ∈ s.calls, ∀ e, call.request.request.closes → call.program = .done (.error e) → e.isCapacity →
      ∃ source text obs, s.file = some text ∧ source <+: text ∧ parseDurableExecutionJournal source = .ok obs ∧
        (limitsMatchIntent obs call.request.limits.val → call.request.request.ExceedsSettlements obs)) ∧
    ∀ text, s.file = some text → ∃ obs, parseDurableExecutionJournal text = .ok obs ∧
      (∀ r ∈ obs.records, (encodeDurableExecutionRecord r).utf8Length ≤ durableExecutionMaximumRecordBytes) ∧
      ∀ limits : WriterLimits, limitsMatchIntent obs limits.val →
        (read limits.val key.val).run boundedRead s.file = (.ok (some obs), s.file) := by
  have hinvariant : Invariant JournalReads (writerSpec key False) s :=
    (h.mono fun _ _ _ => guarded_of_not_strict).invariant meets_program
  refine ⟨fun call hcall e hcloses he hcapacity => ?_, fun text htext => ?_⟩
  · obtain ⟨known, hknown, hfails⟩ := hinvariant.failed hcall he
    obtain ⟨source, obs, rfl, hstored, hexceeds⟩ := hfails hcloses hcapacity
    obtain ⟨text, hfile, hsource⟩ := hknown source rfl
    exact ⟨source, text, obs, hfile, hsource, hstored.parsed, hexceeds⟩
  · obtain ⟨obs, hstored⟩ := hinvariant.valid text htext
    refine ⟨obs, hstored.parsed, fun r hr => (wellSealed_iff.mp (hstored.sealed r hr)).2.2, fun limits hm => ?_⟩
    rw [htext]
    exact run_read hstored hm

/-- The journal of a started attempt that is read back. -/
theorem reachable_capacity_readback :
    let _ : Sha256 := ⟨fun _ => settledJournalDigest⟩
    ∃ s : JournalSystem OvertakenRetry.retryKey, s.calls = OvertakenRetry.opened ∧
      (∀ call ∈ s.calls, ∀ e, call.request.request.closes → call.program = .done (.error e) → e.isCapacity →
        ∃ source text obs, s.file = some text ∧ source <+: text ∧ parseDurableExecutionJournal source = .ok obs ∧
          (limitsMatchIntent obs call.request.limits.val → call.request.request.ExceedsSettlements obs)) ∧
      ∀ text, s.file = some text → ∃ obs, parseDurableExecutionJournal text = .ok obs ∧
        (∀ r ∈ obs.records, (encodeDurableExecutionRecord r).utf8Length ≤ durableExecutionMaximumRecordBytes) ∧
        ∀ limits : WriterLimits, limitsMatchIntent obs limits.val →
          (read limits.val OvertakenRetry.retryKey.val).run boundedRead s.file = (.ok (some obs), s.file) := by
  intro _
  obtain ⟨hreachable, _⟩ := OvertakenRetry.reachable_opened permitsUnlost_soundReads
  exact ⟨_, rfl, reachable_capacity (hreachable.mono fun _ _ _ => trivial)⟩

end SecPlatform.DurableExecution
