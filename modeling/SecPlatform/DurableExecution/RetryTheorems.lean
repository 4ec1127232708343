import SecPlatform.DurableExecution.Writers
import SecPlatform.DurableExecution.Theorems
import SecPlatform.Execution.Theorems

/-!
# Retries that throw

A retry that throws has left the journal as it was, unless the clock reached the deadline of the successor behind
the append, or the append itself threw after it had written.
-/

namespace SecPlatform.DurableExecution

open Contracts Execution FileProgram

section Retry

variable [Sha256] {limits : StoreLimits}

/-! ## The store -/

omit [Sha256] in
theorem silent_failStore (kind : StoreFailureKind) (message : Text) :
    Silent (lift (failStore kind message) : StoreProgram α) := silent_lift _

omit [Sha256] in
theorem silent_assertDeadline : Silent assertDeadline := by
  refine silent_bind silent_expired fun expired => ?_
  split
  · exact silent_failStore _ _
  · exact silent_pure ()

omit [Sha256] in
theorem silent_assertCumulativeLimits (observation : JournalObservation) (bytes : Nat) (reserve : Bool) :
    Silent (assertCumulativeLimits observation limits bytes reserve) :=
  silent_bind silent_assertDeadline fun _ => silent_lift _

theorem silent_readState (key : Text) : Silent (readState limits key) := by
  refine silent_bind silent_assertDeadline fun _ => silent_bind (silent_lift _) fun _ =>
    silent_bind (silent_readFile _) fun content => ?_
  rcases content with failure | ⟨_ | source⟩
  · exact silent_lift _
  · exact silent_pure _
  · refine silent_bind (silent_bind (silent_lift _) fun observation => ?_) fun _ => silent_pure _
    split
    · exact silent_failStore _ _
    · split
      · exact silent_failStore _ _
      · exact silent_bind (silent_assertCumulativeLimits _ _ _) fun _ => silent_pure _

theorem silent_required (key : Text) : Silent (required limits key) := by
  refine silent_bind (silent_readState key) fun state => ?_
  cases state with
  | none => exact silent_failStore _ _
  | some state => exact silent_pure _

/-- A start that was appended is the answer of the store. -/
theorem settles_appendRecoveredRetryAttemptStart (resolution : AppendAttemptResolutionInput)
    (start : AppendAttemptStartInput) : Settles (appendRecoveredRetryAttemptStart limits resolution start) := by
  refine settles_bind silent_assertDeadline fun _ => settles_bind (silent_readState _) fun state => ?_
  rcases state with _ | ⟨current, source⟩
  · exact (silent_failStore _ _).settles
  dsimp only
  cases current.activeAttempt with
  | none => exact (silent_failStore _ _).settles
  | some activeAttempt =>
      dsimp only
      split
      · exact (silent_failStore _ _).settles
      · refine settles_bind (silent_lift _) fun resolution => settles_bind (silent_lift _) fun admitted =>
          settles_bind (silent_lift _) fun start => settles_bind (silent_lift _) fun next =>
          settles_bind (silent_assertCumulativeLimits _ _ _) fun _ => settles_bind (silent_lift _) fun _ =>
          settles_bind silent_assertDeadline fun _ => settles_appendFile rfl ?_
        refine silent_bind (silent_required _) fun concurrent => ?_
        split
        · exact silent_pure _
        · exact silent_failStore _ _

/-! ## The admission -/

variable {tokens tokens' : RecoveryTokens} {times : RetryTimes} {args : RetryArguments}

/-- The checks of an admission hold at any time before the deadline. -/
theorem assertForSuccessor_later {now : Nat} {admission : Object RecoveredRetryAdmission}
    {successor : BoundSemanticOperation} {epoch : Text}
    (h : assertRecoveredRetryAdmissionForSuccessor tokens now admission successor epoch = .ok ()) (now' : Nat) :
    assertRecoveredRetryAdmissionForSuccessor tokens now' admission successor epoch = .ok () ↔
      now' < successor.plan.value.attempt.deadlineAtUnixMs := by
  unfold assertRecoveredRetryAdmissionForSuccessor at h ⊢
  obtain ⟨hadmission, h⟩ := check_bind_eq_ok.mp h
  obtain ⟨hprojection, h⟩ := check_bind_eq_ok.mp h
  dsimp only at h
  obtain ⟨hbinds, h⟩ := check_bind_eq_ok.mp h
  obtain ⟨epoch', hepoch, h⟩ := bind_eq_ok.mp h
  obtain ⟨htimes, hfresh⟩ := check_bind_eq_ok.mp h
  rw [hadmission, ok_bind, hprojection, ok_bind]
  dsimp only
  rw [hbinds, ok_bind, hepoch, ok_bind, check_bind_eq_ok, hfresh, require_eq_ok]
  obtain ⟨hsame, hdeadline, -⟩ := require_eq_ok.mp htimes
  exact ⟨fun ⟨⟨_, _, hlt⟩, _⟩ => hlt, fun hlt => ⟨⟨hsame, hdeadline, hlt⟩, rfl⟩⟩

theorem retryInputs_ok {inputs : AppendAttemptResolutionInput × AppendAttemptStartInput}
    (h : retryInputs tokens times args = .ok inputs) :
    assertRecoveredRetryAdmissionForSuccessor tokens times.checked args.retryAdmission args.successorOperation
      args.currentPhysicalEpochDigest = .ok () := by
  unfold retryInputs at h
  obtain ⟨start, hstart, -⟩ := bind_eq_ok.mp h
  unfold recoveredRetryAttemptStartInput at hstart
  obtain ⟨-, hstart⟩ := check_bind_eq_ok.mp hstart
  exact mapError_eq_ok.mp (check_bind_eq_ok.mp hstart).1

/-- Behind an answer the admission is consumed before the deadline of the successor only. -/
theorem consumeBehind_ok {inputs : AppendAttemptResolutionInput × AppendAttemptStartInput}
    (h : retryInputs tokens times args = .ok inputs) (observation : JournalObservation) :
    (times.consumed < args.successorOperation.plan.value.attempt.deadlineAtUnixMs →
      (consumeBehind tokens times args (.ok observation)).1 = .ok observation ∧
        args.retryAdmission ∈ (consumeBehind tokens times args (.ok observation)).2.consumedAdmissions) ∧
    (args.successorOperation.plan.value.attempt.deadlineAtUnixMs ≤ times.consumed →
      ∃ e, (consumeBehind tokens times args (.ok observation)).1 = .error e) := by
  have hchecked := retryInputs_ok h
  have hlater := assertForSuccessor_later hchecked times.consumed
  constructor
  · intro hlt
    have hfresh := (assertForSuccessor_ok hchecked).2.1
    simp [consumeBehind, consumeRecoveredRetryAdmission, hlater.mpr hlt, hfresh]
  · intro hle
    simp only [consumeBehind, consumeRecoveredRetryAdmission]
    cases hassert : assertRecoveredRetryAdmissionForSuccessor tokens times.consumed args.retryAdmission
      args.successorOperation args.currentPhysicalEpochDigest with
    | error e => exact ⟨_, rfl⟩
    | ok u => exact absurd (hlater.mp hassert) (Nat.not_lt.mpr hle)

/-! ## The call -/

/-- A call that throws has written nothing, and one that has written consumed its admission. -/
structure RetryAtomic (args : RetryArguments) (answers : List (WriteAnswer StoreFailure))
    (result : Except WriterFailure JournalObservation) (tokens' : RecoveryTokens) : Prop where
  throws : (∃ e, result = .error e) → ∀ answer ∈ answers, answer.written = false
  consumes : ∀ answer ∈ answers, answer.written → args.retryAdmission ∈ tokens'.consumedAdmissions

/-- The append does not throw when it has written, and then the deadline of the successor is still ahead. -/
def WrittenInTime (times : RetryTimes) (args : RetryArguments) (answers : List (WriteAnswer StoreFailure)) : Prop :=
  ∀ answer ∈ answers, answer.written →
    answer = .done true ∧ times.consumed < args.successorOperation.plan.value.attempt.deadlineAtUnixMs

/-- A retry is atomic exactly when what it writes is written in time. -/
theorem retryCall_atomic_iff {answers : List (WriteAnswer StoreFailure)} {result : Except WriterFailure JournalObservation}
    (h : RetryCall limits tokens times args answers result tokens') :
    RetryAtomic args answers result tokens' ↔ WrittenInTime times args answers := by
  cases h with
  | refused _ => exact ⟨fun _ => by simp [WrittenInTime], fun _ => ⟨by simp, by simp⟩⟩
  | @stored resolution start _ outcome hinputs hstore =>
      have hsettles := settles_appendRecoveredRetryAttemptStart resolution start _ _ hstore
      have hlost : ∀ {e}, outcome = .error e → ∃ e, (consumeBehind tokens times args outcome).1 = .error e := by
        rintro e rfl
        exact ⟨_, rfl⟩
      constructor
      · intro hatomic answer hanswer hwritten
        obtain ⟨hdone, hthrew⟩ := hsettles answer hanswer
        cases answer with
        | threw written e =>
            have hunwritten := hatomic.throws (hlost (hthrew written e rfl)) _ hanswer
            exact absurd hwritten (by rw [hunwritten]; exact Bool.false_ne_true)
        | done written =>
            obtain rfl : written = true := hwritten
            refine ⟨rfl, ?_⟩
            obtain ⟨observation, rfl⟩ := hdone rfl
            by_contra hlate
            have herror := (consumeBehind_ok hinputs observation).2 (Nat.not_lt.mp hlate)
            exact Bool.false_ne_true (hatomic.throws herror _ hanswer).symm
      · intro hintime
        -- what was written in time was answered and consumed
        have hconsumed : ∀ answer ∈ answers, answer.written →
            (∃ observation, (consumeBehind tokens times args outcome).1 = .ok observation) ∧
              args.retryAdmission ∈ (consumeBehind tokens times args outcome).2.consumedAdmissions := by
          intro answer hanswer hwritten
          obtain ⟨rfl, hlt⟩ := hintime answer hanswer hwritten
          obtain ⟨observation, rfl⟩ := (hsettles _ hanswer).1 rfl
          obtain ⟨hresult, hmem⟩ := (consumeBehind_ok hinputs observation).1 hlt
          exact ⟨⟨observation, hresult⟩, hmem⟩
        refine ⟨fun ⟨e, herror⟩ answer hanswer => ?_, fun answer hanswer hwritten => (hconsumed answer hanswer hwritten).2⟩
        cases hwritten : answer.written with
        | false => rfl
        | true =>
            obtain ⟨⟨observation, hresult⟩, -⟩ := hconsumed answer hanswer hwritten
            rw [herror] at hresult
            cases hresult

end Retry

/-! ## A deadline behind the append -/

namespace ExpiredRetry

local instance : Sha256 := attemptSha256

def intentFields : IntentFields where
  intentReferenceDigest := tokenDigest 1
  executionPlanReferenceDigest := tokenDigest 4
  deadlineAtUnixMs := 2000
  maximumRecords := 16
  maximumStateBytes := 65536
  maximumAttempts := 2
  maximumProviderSettlementsPerAttempt := 1

/-- The attempt that was recovered. -/
def predecessorFields : AttemptStartFields where
  runIdDigest := none
  resumeEpochDigest := none
  attemptNonceDigest := tokenDigest 9
  boundAttemptDigest := tokenDigest 8
  workerIdentityDigest := tokenDigest 12
  authorityGrantReferenceDigest := tokenDigest 5
  providerBindingSetReferenceDigest := tokenDigest 0
  executionPlanReferenceDigest := tokenDigest 4
  deadlineAtUnixMs := 2000
  retryAdmissionReferenceDigest := none

def successorFields : AttemptStartFields := { predecessorFields with
  resumeEpochDigest := some (tokenDigest 6)
  attemptNonceDigest := tokenDigest 7
  boundAttemptDigest := tokenDigest 6
  deadlineAtUnixMs := 1900
  retryAdmissionReferenceDigest := some (tokenDigest 0) }

def readbackFields : DomainReadbackFields := ⟨tokenDigest 9, tokenDigest 11, tokenDigest 10⟩

/-- A record at its place. All of them have the same digest. -/
def recordAt (sequence : Nat) (body : RecordBody) : DurableRecord :=
  ⟨⟨⟨sequence, tokenDigest 3, if sequence = 0 then none else some (tokenDigest 0)⟩, body⟩, tokenDigest 0⟩

def intent : DurableRecord := recordAt 0 (.intent intentFields)

def predecessor : DurableRecord := recordAt 1 (.attemptStart predecessorFields)

def readback : DurableRecord := recordAt 2 (.domainReadback readbackFields)

def resolution : DurableRecord := recordAt 3
  (.attemptResolution ⟨tokenDigest 9, .retryAdmissionReference, tokenDigest 0, [], some (tokenDigest 0)⟩)

def successor : DurableRecord := recordAt 4 (.attemptStart successorFields)

/-- The journal when the retry is admitted. -/
def opened : List DurableRecord := [intent, predecessor, readback]

/-- The observation of records that are accepted. -/
def observed (records : List DurableRecord) (h : (observeDurableExecutionJournal records).toOption.isSome) :
    JournalObservation := (observeDurableExecutionJournal records).toOption.get h

theorem eq_ok_get {ε α : Type} {x : Except ε α} (h : x.toOption.isSome) : x = .ok (x.toOption.get h) := by
  cases x with
  | ok a => rfl
  | error e => cases h

theorem observed_eq {records : List DurableRecord} (h : (observeDurableExecutionJournal records).toOption.isSome) :
    observeDurableExecutionJournal records = .ok (observed records h) := eq_ok_get h

def openedJournal : JournalObservation := observed opened (by decide)

def resolvedJournal : JournalObservation := observed (opened ++ [resolution]) (by decide)

def retriedJournal : JournalObservation := observed (opened ++ [resolution] ++ [successor]) (by decide)

theorem observe_opened : observeDurableExecutionJournal opened = .ok openedJournal := observed_eq _

theorem observe_resolved : observeDurableExecutionJournal (opened ++ [resolution]) = .ok resolvedJournal := observed_eq _

theorem observe_retried : observeDurableExecutionJournal (opened ++ [resolution] ++ [successor]) = .ok retriedJournal :=
  observed_eq _

def retryLimits : WriterLimits := ⟨⟨16, 65536, 2, 1⟩, OvertakenRetry.normalizeLimits_retry⟩

theorem wellSealed_opened : ∀ r ∈ opened, WellSealed r := by
  have hintent : intent = intent.toUnsignedRecord.sealed := by decide +kernel
  have hpredecessor : predecessor = predecessor.toUnsignedRecord.sealed := by decide +kernel
  have hreadback : readback = readback.toUnsignedRecord.sealed := by decide
  simp only [opened, List.forall_mem_cons]
  refine ⟨?_, ?_, ?_, by simp⟩
  · rw [hintent]
    exact wellSealed_sealed ⟨by decide, by decide⟩ (Nat.zero_le _)
  · rw [hpredecessor]
    exact wellSealed_sealed ⟨(by decide : 1 < 2 ^ 53), (by decide : 1 ≤ 2000 ∧ 2000 < 2 ^ 53)⟩ (Nat.zero_le _)
  · rw [hreadback]
    exact wellSealed_sealed ⟨(by decide : 2 < 2 ^ 53), trivial⟩ (Nat.zero_le _)

theorem stored_opened : Stored (tokenDigest 3) (journalText opened) openedJournal := by
  have hcheck : checkCumulativeLimits openedJournal retryLimits.val (journalText opened).utf8Length true = .ok () := by
    decide +kernel
  have hsettlements : ∀ a ∈ openedJournal.activeAttempt, a.providerSettlements.length ≤ 1 := by decide
  refine ⟨?_, by decide, retryLimits, by decide, (checkCumulativeLimits_ok.mp hcheck).1, hsettlements⟩
  rw [parseDurableExecutionJournal_text (by simp [opened]) wellSealed_opened]
  exact observe_opened

def resolutionInput : AppendAttemptResolutionInput where
  operationKeyDigest := (tokenDigest 3).val
  attemptNonceDigest := (tokenDigest 9).val
  resolutionKind := .retryAdmissionReference
  resolutionReferenceDigest := (tokenDigest 0).val
  domainReadbackReceiptDigest := (tokenDigest 10).val

def successorInput : AppendAttemptStartInput where
  operationKeyDigest := (tokenDigest 3).val
  runIdDigest := none
  resumeEpochDigest := some (tokenDigest 6).val
  attemptNonceDigest := (tokenDigest 7).val
  boundAttemptDigest := (tokenDigest 6).val
  workerIdentityDigest := (tokenDigest 12).val
  authorityGrantReferenceDigest := (tokenDigest 5).val
  providerBindingSetReferenceDigest := (tokenDigest 0).val
  executionPlanReferenceDigest := (tokenDigest 4).val
  deadlineAtUnixMs := 1900
  retryAdmissionReferenceDigest := some (tokenDigest 0).val

/-- The store appends the start of the successor. -/
theorem ends_retried : (appendRecoveredRetryAttemptStart retryLimits.val resolutionInput successorInput).Ends [.done true]
    (.ok retriedJournal) := by
  have hopened : openedJournal.records = opened := observe_records observe_opened
  have hresolved : resolvedJournal.records = opened ++ [resolution] := observe_records observe_resolved
  have hlimits : limitsMatchIntent openedJournal retryLimits.val := by decide
  have hactive : openedJournal.activeAttempt = some ⟨predecessor.as predecessorFields, [],
    some (readback.as readbackFields), none⟩ := by decide
  have hresolution : resolutionRecord resolutionInput .retryAdmissionReference ⟨predecessor.as predecessorFields, [],
    some (readback.as readbackFields), none⟩ openedJournal = .ok resolution := by decide +kernel
  have hstart : attemptStartRecord successorInput (some resolutionInput.resolutionReferenceDigest) resolvedJournal =
    .ok successor := by decide +kernel
  have hcheck : checkCumulativeLimits retriedJournal retryLimits.val
    ((journalText opened).utf8Length + (journalText [resolution, successor]).utf8Length) true = .ok () := by decide +kernel
  have hadmitted : observeDurableExecutionJournal (openedJournal.records ++ [resolution]) = .ok resolvedJournal := by
    rw [hopened]
    exact observe_resolved
  have hnext : observeDurableExecutionJournal (resolvedJournal.records ++ [successor]) = .ok retriedJournal := by
    rw [hresolved]
    exact observe_retried
  obtain ⟨rest, hrest, -, hquiet⟩ := quiet_retry rfl stored_opened hlimits hactive rfl rfl rfl hresolution hadmitted
    hstart hnext hcheck
  refine hquiet.ends (.append true ?_)
  rw [hrest]
  exact .done _

def retryArguments : RetryArguments where
  recoveryOperation := recoveringAttempt
  successorOperation := retriedAttempt
  workerIdentityDigest := (tokenDigest 12).val
  retryAdmission := retryAdmission
  currentPhysicalEpochDigest := (tokenDigest 13).val

/-- The clock shows 1500 at the checks and this time at the consumption. -/
def timesUntil (consumed : Nat) (h : 1500 ≤ consumed := by decide) : RetryTimes := ⟨1500, 1500, consumed, le_refl _, h⟩

theorem retryInputs_admitted (consumed : Nat) (h : 1500 ≤ consumed) :
    retryInputs admittedTokens (timesUntil consumed h) retryArguments = .ok (resolutionInput, successorInput) := by
  have hinputs : retryInputs admittedTokens (timesUntil 1500 (le_refl _)) retryArguments = .ok (resolutionInput, successorInput) := by
    decide +kernel
  exact hinputs

theorem retryCall_retried (consumed : Nat) (h : 1500 ≤ consumed) :
    RetryCall retryLimits.val admittedTokens (timesUntil consumed h) retryArguments [.done true]
      (consumeBehind admittedTokens (timesUntil consumed h) retryArguments (.ok retriedJournal)).1
      (consumeBehind admittedTokens (timesUntil consumed h) retryArguments (.ok retriedJournal)).2 :=
  .stored (retryInputs_admitted consumed h) ends_retried

/-- The successor is started before its deadline. -/
theorem retryCall_atomic_iff_in_time :
    RetryAtomic retryArguments [.done true]
      (consumeBehind admittedTokens (timesUntil 1800) retryArguments (.ok retriedJournal)).1
      (consumeBehind admittedTokens (timesUntil 1800) retryArguments (.ok retriedJournal)).2 := by
  refine (retryCall_atomic_iff (retryCall_retried 1800 (by decide))).mpr fun answer hanswer _ => ?_
  exact ⟨List.mem_singleton.mp hanswer, (by decide : 1800 < 1900)⟩

/-- When the deadline of the successor passes behind the append, the call throws and the start is in the journal. -/
theorem retryCall_not_atomic :
    ∃ events tokens, RecoveryRun events tokens ∧ ∃ key source obs, Stored key source obs ∧
      ∃ (limits : WriterLimits) (times : RetryTimes) (args : RetryArguments) (e : WriterFailure) (tokens' : RecoveryTokens),
        RetryCall limits.val tokens times args [.done true] (.error e) tokens' ∧
        ¬RetryAtomic args [.done true] (.error e) tokens' := by
  have hcall := retryCall_retried 1900 (by decide)
  obtain ⟨e, hthrown⟩ := (consumeBehind_ok (retryInputs_admitted 1900 (by decide)) retriedJournal).2
    (by decide : 1900 ≤ 1900)
  rw [hthrown] at hcall
  refine ⟨_, _, recoveryRun_admitted, _, _, _, stored_opened, retryLimits, _, retryArguments, e, _, hcall,
    fun hatomic => ?_⟩
  exact absurd (hatomic.throws ⟨_, rfl⟩ _ List.mem_cons_self) (by decide)

end ExpiredRetry

end SecPlatform.DurableExecution
