import SecPlatform.DurableExecution.Lemmas.JournalCodec
import SecPlatform.DurableExecution.Store
import SecPlatform.Library.Lemmas.FileProgram

/-!
# Writers of one journal

Any number of writers call the store for the operation of one journal. Their calls run interleaved over
the file of that journal.
-/

namespace SecPlatform.DurableExecution

open Contracts

inductive StoreRequest where
  | createIntent (input : CreateIntentInput)
  | appendAttemptStart (input : AppendAttemptStartInput)
  | appendRecoveredRetryAttemptStart (resolution : AppendAttemptResolutionInput) (start : AppendAttemptStartInput)
  | appendProviderSettlementReference (input : AppendProviderSettlementInput)
  | appendDomainReadbackReference (input : AppendDomainReadbackInput)
  | appendLostHandleReference (input : AppendLostHandleInput)
  | appendAttemptResolution (input : AppendAttemptResolutionInput)
  deriving DecidableEq

namespace StoreRequest

/-- The operation whose journal is addressed. -/
def operationKeyDigest : StoreRequest → Text
  | .createIntent input => input.operationKeyDigest
  | .appendAttemptStart input => input.operationKeyDigest
  | .appendRecoveredRetryAttemptStart resolution _ => resolution.operationKeyDigest
  | .appendProviderSettlementReference input => input.operationKeyDigest
  | .appendDomainReadbackReference input => input.operationKeyDigest
  | .appendLostHandleReference input => input.operationKeyDigest
  | .appendAttemptResolution input => input.operationKeyDigest

variable [Sha256]

def program (limits : StoreLimits) : StoreRequest → StoreProgram JournalObservation
  | .createIntent input => DurableExecution.createIntent limits input
  | .appendAttemptStart input => DurableExecution.appendAttemptStart limits input
  | .appendRecoveredRetryAttemptStart resolution start =>
      DurableExecution.appendRecoveredRetryAttemptStart limits resolution start
  | .appendProviderSettlementReference input => DurableExecution.appendProviderSettlementReference limits input
  | .appendDomainReadbackReference input => DurableExecution.appendDomainReadbackReference limits input
  | .appendLostHandleReference input => DurableExecution.appendLostHandleReference limits input
  | .appendAttemptResolution input => DurableExecution.appendAttemptResolution limits input

/-- The intent of the input, up to the content under its digest. -/
def equivalentIntent (limits : StoreLimits) (input : CreateIntentInput) (record : DurableRecord) : Bool :=
  match record.body, intentRecord limits input with
  | .intent _, .ok intent => record.recordDigest = intent.recordDigest
  | _, _ => false

/-- The resolution that a recovered retry writes. -/
def retryResolution (resolution : AppendAttemptResolutionInput) : AppendAttemptResolutionInput :=
  { resolution with resolutionKind := .retryAdmissionReference }

/-- The start that a recovered retry writes. -/
def retryStart (resolution : AppendAttemptResolutionInput) (start : AppendAttemptStartInput) : AppendAttemptStartInput :=
  { start with retryAdmissionReferenceDigest := some resolution.resolutionReferenceDigest }

/-- The records that a request asks for. -/
def asks (limits : StoreLimits) : StoreRequest → List (DurableRecord → Bool)
  | .createIntent input => [equivalentIntent limits input]
  | .appendAttemptStart input => [equivalentAttemptStart input]
  | .appendRecoveredRetryAttemptStart resolution start =>
      [equivalentAttemptResolution (retryResolution resolution), equivalentAttemptStart (retryStart resolution start)]
  | .appendProviderSettlementReference input => [equivalentProviderSettlement input]
  | .appendDomainReadbackReference input => [equivalentDomainReadback input]
  | .appendLostHandleReference input => [equivalentLostHandle input]
  | .appendAttemptResolution input => [equivalentAttemptResolution input]

end StoreRequest

namespace StoreRequest

variable [Sha256]

/-- What a request adds to a journal: the resolution and the start of a recovered retry together, or one record. -/
def Adds (request : StoreRequest) (added : List DurableRecord) : Prop :=
  match request with
  | .appendRecoveredRetryAttemptStart _ _ => ∃ resolution start resolved started, added = [resolution, start] ∧
      resolution.body = .attemptResolution resolved ∧ start.body = .attemptStart started
  | _ => ∃ record, added = [record]

/-- The journal that won against a recovered retry is not mistaken for its answer: when its active attempt has the
nonce and its latest resolution the reference of the retry, its active start is the one of the retry and the
predecessor is resolved as the retry asks. -/
def RetrySound (request : StoreRequest) (source : Text) : Prop :=
  ∀ resolution start concurrent, request = .appendRecoveredRetryAttemptStart resolution start →
    parseDurableExecutionJournal source = .ok concurrent → concurrentRetry resolution start concurrent →
      (∃ active, concurrent.activeAttempt = some active ∧
        sameAttemptStart active.start.fields (retryStart resolution start)) ∧
      concurrent.records.any (equivalentAttemptResolution (retryResolution resolution))

/-- Requests for the records of an attempt that has started. -/
def closes : StoreRequest → Bool
  | .createIntent _ | .appendAttemptStart _ | .appendRecoveredRetryAttemptStart _ _ => false
  | .appendProviderSettlementReference _ | .appendDomainReadbackReference _ | .appendLostHandleReference _
  | .appendAttemptResolution _ => true

/-- A further settlement for an attempt that has as many as the intent admits. -/
def ExceedsSettlements (request : StoreRequest) (observation : JournalObservation) : Prop :=
  ∃ input active, request = .appendProviderSettlementReference input ∧ observation.activeAttempt = some active ∧
    active.start.fields.attemptNonceDigest.val = input.attemptNonceDigest ∧
    active.providerSettlements.length = observation.intent.fields.maximumProviderSettlementsPerAttempt ∧
    observation.records.any (equivalentProviderSettlement input) = false

end StoreRequest

/-- A call of a writer with its own limits, for the operation of the journal. -/
structure WriterCall (key : Digest) where
  limits : WriterLimits
  request : StoreRequest
  address : request.operationKeyDigest = key.val

namespace WriterCall

variable [Sha256] {key : Digest}

def program (call : WriterCall key) : StoreProgram JournalObservation := call.request.program call.limits.val

def asks (call : WriterCall key) : List (DurableRecord → Bool) := call.request.asks call.limits.val

end WriterCall

/-- The limits on records and bytes are what failed. -/
def StoreFailure.isCapacity : StoreFailure → Bool
  | .store .resourceExhausted _ => true
  | .contract failure =>
      failure = .contract .invalidRecord "Durable local execution record exceeds its canonical byte ceiling."
  | _ => false

/-- How a bounded read of the journal file may end. -/
inductive JournalReads (maximum : Nat) (file : Option Text) : Except JournalReadFailure (Option Text) → Prop
  | text (h : ∀ text, file = some text → text.utf8Length ≤ maximum) : JournalReads maximum file (.ok file)
  | tooLarge (text message : Text) (hfile : file = some text) (h : maximum < text.utf8Length) :
      JournalReads maximum file (.error (.read .maximumBytesExceeded message))
  | expired (message : Text) : JournalReads maximum file (.error (.read .deadlineExhausted message))
  | other : JournalReads maximum file (.error .other)

/-- The bounded read of a file that nothing hinders. -/
def boundedRead (maximum : Nat) (file : Option Text) : Except JournalReadFailure (Option Text) :=
  match file with
  | none => .ok none
  | some text => if maximum < text.utf8Length then .error (.read .maximumBytesExceeded "exceeds maximumBytes")
      else .ok (some text)

abbrev JournalSystem (key : Digest) :=
  FileSystem (WriterCall key) CodeUnit JournalReadFailure StoreFailure JournalObservation

namespace JournalSystem

open FileSystem (Action)

variable [Sha256] {key : Digest}

/-- A call whose change was refused reads a journal that is sound for it. -/
def SoundReads (s : JournalSystem key) : Action (WriterCall key) CodeUnit JournalReadFailure → Prop
  | .read i (.ok (some source)) => ∀ call, s.calls[i]? = some call → call.lost → call.request.request.RetrySound source
  | _ => True

/-- What holds of the file and the answered calls at every moment. -/
structure Safe (s : JournalSystem key) : Prop where
  /-- The file is an accepted journal with at most one active attempt. -/
  journal : ∀ text, s.file = some text → ∃ obs, parseDurableExecutionJournal text = .ok obs ∧
    (activeNonces obs.records).length ≤ 1
  /-- An answer was the journal at some time, and every record that was asked for is in the journal once. -/
  answered : ∀ call ∈ s.calls, ∀ answer, call.program = .done (.ok answer) → ∃ text obs, s.file = some text ∧
    parseDurableExecutionJournal text = .ok obs ∧ answer.records <+: obs.records ∧
    parseDurableExecutionJournal (journalText answer.records) = .ok answer ∧
    ∀ ask ∈ call.request.asks, obs.records.countP ask = 1

/-- How one step changes the file. -/
structure SafeStep (s : JournalSystem key) (a : Action (WriterCall key) CodeUnit JournalReadFailure)
    (s' : JournalSystem key) : Prop where
  /-- Only by one creation or append, of the whole sealed records that the call asks for and that were not there. -/
  changes : s'.file = s.file ∨ ∃ i call added, (a = .create i true ∨ a = .append i true) ∧
    s.calls[i]? = some call ∧ (∀ r ∈ added, WellSealed r) ∧ call.request.request.Adds added ∧
    s'.file = some (s.file.getD [] ++ journalText added) ∧
    ∀ ask ∈ call.request.asks, (∃ r ∈ added, ask r) ∧ ∀ text obs, s.file = some text →
      parseDurableExecutionJournal text = .ok obs → obs.records.countP ask = 0
  /-- Not by a call that is the same as an answered one. -/
  reissued : s'.file = s.file ∨ ∀ i call, (a = .create i true ∨ a = .append i true) → s.calls[i]? = some call →
    ∀ other ∈ s.calls, other.request = call.request → ∀ answer, other.program ≠ .done (.ok answer)

end JournalSystem

/-!
## Starting an admitted retry

The writer checks the admission, has the store append the start of the successor and consumes the admission
behind it. The calls of the store are the only ones that can be answered in more than one way.
-/

open Contracts Execution

/-- A failure of the semantic operation or of the store. -/
inductive WriterFailure where
  | operation (message : Text)
  | store (failure : StoreFailure)
  deriving DecidableEq

/-- The clock at the check of the admission, at the check of the attempt and at the consumption. -/
structure RetryTimes where
  checked : Nat
  projected : Nat
  consumed : Nat
  checked_le : checked ≤ projected
  projected_le : projected ≤ consumed

structure RetryArguments where
  recoveryOperation : BoundSemanticOperation
  successorOperation : BoundSemanticOperation
  workerIdentityDigest : Text
  retryAdmission : Object RecoveredRetryAdmission
  currentPhysicalEpochDigest : Text

section Retry

variable [Sha256]

def durableExecutionJournalIdentity (tokens : RecoveryTokens) (operation : BoundSemanticOperation) :
    Except WriterFailure Text := do
  (assertSemanticOperationProjection tokens operation).mapError .operation
  return operation.plan.value.identity.identityDigest

def projectAttemptStartInput (tokens : RecoveryTokens) (now : Nat) (operation : BoundSemanticOperation)
    (workerIdentityDigest : Text) (retryAdmissionReferenceDigest : Option Text) :
    Except WriterFailure AppendAttemptStartInput := do
  let operationKeyDigest ← durableExecutionJournalIdentity tokens operation
  let attempt := operation.plan.value.attempt
  require (now < attempt.deadlineAtUnixMs) (.store (.store .deadlineExhausted
    "Durable local execution store attempt deadline is exhausted before durable single-flight claim."))
  let worker ← (canonicalDigest workerIdentityDigest "workerIdentityDigest").mapError .store
  return {
    operationKeyDigest
    runIdDigest := attempt.runIdDigest
    resumeEpochDigest := attempt.resumeEpochDigest
    attemptNonceDigest := attempt.attemptNonceDigest
    boundAttemptDigest := operation.boundAttemptDigest
    workerIdentityDigest := worker.val
    authorityGrantReferenceDigest := attempt.authorityGrantDigest
    providerBindingSetReferenceDigest := operation.bindingSetIdentityDigest
    executionPlanReferenceDigest := operation.plan.value.execution.executionPlanDigest
    deadlineAtUnixMs := attempt.deadlineAtUnixMs
    retryAdmissionReferenceDigest }

def recoveredRetryAttemptStartInput (tokens : RecoveryTokens) (times : RetryTimes) (operation : BoundSemanticOperation)
    (workerIdentityDigest : Text) (retryAdmission : Object RecoveredRetryAdmission) (currentPhysicalEpochDigest : Text) :
    Except WriterFailure AppendAttemptStartInput := do
  (assertRecoveredRetryAdmission tokens retryAdmission).mapError .operation
  (assertRecoveredRetryAdmissionForSuccessor tokens times.checked retryAdmission operation
    currentPhysicalEpochDigest).mapError .operation
  projectAttemptStartInput tokens times.projected operation workerIdentityDigest
    (some retryAdmission.value.retryAdmissionDigest)

def retryAdmissionResolutionInput (tokens : RecoveryTokens) (operation : BoundSemanticOperation)
    (admission : Object RecoveredRetryAdmission) : Except WriterFailure AppendAttemptResolutionInput := do
  let operationKeyDigest ← durableExecutionJournalIdentity tokens operation
  (assertRecoveredRetryAdmission tokens admission).mapError .operation
  let attempt := operation.plan.value.attempt
  require (admission.value.operationIdentityDigest = operationKeyDigest ∧
    admission.value.previousExecutionPlanDigest = operation.plan.value.execution.executionPlanDigest ∧
    admission.value.previousBindingSetIdentityDigest = operation.bindingSetIdentityDigest ∧
    admission.value.recoveryBoundAttemptDigest = operation.boundAttemptDigest ∧
    admission.value.recoveryAuthorityGrantDigest = attempt.authorityGrantDigest ∧
    some admission.value.recoveryResumeEpochDigest = attempt.resumeEpochDigest)
    (.store (.store .identityMismatch
      "Durable local execution store retry admission does not bind the exact recovered operation attempt."))
  return {
    operationKeyDigest
    attemptNonceDigest := admission.value.previousAttemptNonceDigest
    resolutionKind := .retryAdmissionReference
    resolutionReferenceDigest := admission.value.retryAdmissionDigest
    domainReadbackReceiptDigest := admission.value.recoveredReadbackReceiptDigest }

/-- What the store is asked to append. -/
def retryInputs (tokens : RecoveryTokens) (times : RetryTimes) (args : RetryArguments) :
    Except WriterFailure (AppendAttemptResolutionInput × AppendAttemptStartInput) := do
  let start ← recoveredRetryAttemptStartInput tokens times args.successorOperation args.workerIdentityDigest
    args.retryAdmission args.currentPhysicalEpochDigest
  let resolution ← retryAdmissionResolutionInput tokens args.recoveryOperation args.retryAdmission
  return (resolution, start)

/-- The admission is consumed behind an answer of the store. -/
def consumeBehind (tokens : RecoveryTokens) (times : RetryTimes) (args : RetryArguments) :
    Except StoreFailure JournalObservation → Except WriterFailure JournalObservation × RecoveryTokens
  | .error e => (.error (.store e), tokens)
  | .ok observation =>
      match consumeRecoveredRetryAdmission tokens times.consumed args.retryAdmission args.successorOperation
        args.currentPhysicalEpochDigest with
      | (.error e, tokens) => (.error (.operation e), tokens)
      | (.ok (), tokens) => (.ok observation, tokens)

/-- A call of the writer's `appendRecoveredRetryAttemptStart`: the answers to its writes, its result and the tokens
that it leaves. No other call of the process comes between. -/
inductive RetryCall (limits : StoreLimits) (tokens : RecoveryTokens) (times : RetryTimes) (args : RetryArguments) :
    List (WriteAnswer StoreFailure) → Except WriterFailure JournalObservation → RecoveryTokens → Prop
  | refused {e} (h : retryInputs tokens times args = .error e) : RetryCall limits tokens times args [] (.error e) tokens
  | stored {resolution start answers outcome} (h : retryInputs tokens times args = .ok (resolution, start))
      (hstore : (appendRecoveredRetryAttemptStart limits resolution start).Ends answers outcome) :
      RetryCall limits tokens times args answers (consumeBehind tokens times args outcome).1
        (consumeBehind tokens times args outcome).2

end Retry

end SecPlatform.DurableExecution
