import SecPlatform.DurableExecution.Contract
import SecPlatform.Execution.SemanticOperation
import SecPlatform.Library.FileProgram

/-!
# The durable execution store

Every operation of the store is a program over the file of one journal: it reads, validates, and writes by
an exclusive creation or by an append that compares the whole text first. A write that loses against another
one reads again and answers with what it finds, if that is what it asked for.
-/

namespace SecPlatform.DurableExecution

open Contracts

/-! ## Failures -/

inductive StoreFailureKind where
  | absent
  | conflict
  | identityMismatch
  | deadlineExhausted
  | resourceExhausted
  deriving DecidableEq, Repr

inductive JournalReadFailureKind where
  | deadlineExhausted
  | maximumBytesExceeded
  deriving DecidableEq, Repr

/-- What a bounded read throws: a read error of its own or any other error. -/
inductive JournalReadFailure where
  | read (kind : JournalReadFailureKind) (message : Text)
  | other
  deriving DecidableEq

inductive StoreFailure where
  | store (kind : StoreFailureKind) (message : Text)
  | contract (failure : ContractFailure)
  | fileSystem (failure : JournalReadFailure)
  deriving DecidableEq

def failStore {α : Type} (kind : StoreFailureKind) (message : Text) : Except StoreFailure α :=
  .error (.store kind (Text.cat ["Durable local execution store ", message]))

/-! ## Limits -/

structure StoreLimits where
  maximumRecords : Nat
  maximumStateBytes : Nat
  maximumAttempts : Nat
  maximumProviderSettlementsPerAttempt : Nat
  deriving DecidableEq, Repr

/-- `LIMIT_CEILINGS`. -/
def limitCeilings : StoreLimits where
  maximumRecords := 4096
  maximumStateBytes := 8 * 1024 * 1024
  maximumAttempts := 128
  maximumProviderSettlementsPerAttempt := 32

def normalizeLimit (key : Text) (minimum value ceiling : Nat) : Except StoreFailure Unit :=
  if value < minimum ∨ ceiling < value then
    failStore .resourceExhausted
      (Text.cat [key, " must be a safe integer within its canonical ceiling ", Text.ofNat ceiling, "."])
  else .ok ()

/-- The limits of a new store whose deadline may have passed. -/
def normalizeLimits (expired : Bool) (input : StoreLimits) : Except StoreFailure StoreLimits :=
  if expired then
    failStore .deadlineExhausted "deadlineAtMonotonicMs must be one unexpired finite absolute monotonic deadline."
  else do
    normalizeLimit "maximumRecords" 1 input.maximumRecords limitCeilings.maximumRecords
    normalizeLimit "maximumStateBytes" 1 input.maximumStateBytes limitCeilings.maximumStateBytes
    normalizeLimit "maximumAttempts" 1 input.maximumAttempts limitCeilings.maximumAttempts
    normalizeLimit "maximumProviderSettlementsPerAttempt" 0 input.maximumProviderSettlementsPerAttempt
      limitCeilings.maximumProviderSettlementsPerAttempt
    return input

/-- The limits a store can have. -/
abbrev WriterLimits := { limits : StoreLimits // normalizeLimits false limits = .ok limits }

def limitsMatchIntent (observation : JournalObservation) (limits : StoreLimits) : Bool :=
  observation.intent.fields.maximumRecords = limits.maximumRecords &&
    observation.intent.fields.maximumStateBytes = limits.maximumStateBytes &&
    observation.intent.fields.maximumAttempts = limits.maximumAttempts &&
    observation.intent.fields.maximumProviderSettlementsPerAttempt = limits.maximumProviderSettlementsPerAttempt

def DurableRecord.isAttemptStart (record : DurableRecord) : Bool :=
  match record.body with
  | .attemptStart _ => true
  | _ => false

def attemptCount (observation : JournalObservation) : Nat :=
  (observation.records.filter DurableRecord.isAttemptStart).length

/-- The records that the active attempt can still need up to its resolution. -/
def reservedClosureRecords (observation : JournalObservation) (limits : StoreLimits) : Except StoreFailure Nat :=
  match observation.activeAttempt with
  | none => .ok 0
  | some active =>
      if active.lostHandle = none ∧
          limits.maximumProviderSettlementsPerAttempt < active.providerSettlements.length then
        failStore .resourceExhausted "active attempt exceeds its provider settlement reservation."
      else
        let remainingProviders := if active.lostHandle = none then
          limits.maximumProviderSettlementsPerAttempt - active.providerSettlements.length else 0
        .ok (remainingProviders + (if active.lostHandle = none then 1 else 0) +
          (if active.domainReadback = none then 1 else 0) + 1)

/-- `assertCumulativeLimits` behind its look at the deadline. -/
def checkCumulativeLimits (observation : JournalObservation) (limits : StoreLimits) (exactStateBytes : Nat)
    (reserveSettlementClosure : Bool) : Except StoreFailure Unit := do
  let reservedRecords ← if reserveSettlementClosure then reservedClosureRecords observation limits else .ok 0
  if limits.maximumRecords < observation.records.length + reservedRecords ∨
      limits.maximumStateBytes < exactStateBytes + reservedRecords * (durableExecutionMaximumRecordBytes + 1) ∨
      limits.maximumAttempts < attemptCount observation then
    failStore .resourceExhausted "journal cannot reserve its complete bounded attempt-settlement closure."
  else return ()

/-! ## Identities -/

def canonicalDigest (value label : Text) : Except StoreFailure Digest :=
  if h : isDigest value then .ok ⟨value, h⟩
  else failStore .identityMismatch (Text.cat [label, " is not canonical."])

def canonicalNullableDigest (value : Option Text) (label : Text) : Except StoreFailure (Option Digest) :=
  match value with
  | none => .ok none
  | some value => (canonicalDigest value label).map some

/-- The operation key that names the file of a journal. -/
def identityPath (operationKeyDigest : Text) : Except StoreFailure Digest :=
  canonicalDigest operationKeyDigest "operationKeyDigest"

def sameIdentity (observation : JournalObservation) (operationKeyDigest : Text) : Bool :=
  observation.intent.base.operationKeyDigest.val = operationKeyDigest

/-- What recovery needs of the attempt that is active in a journal. -/
def durableExecutionPredecessorAttemptReference (observation : JournalObservation) :
    Except StoreFailure Execution.RecoveredPredecessorAttemptReference :=
  match observation.activeAttempt with
  | none => failStore .conflict "predecessor projection requires one unresolved active attempt."
  | some attempt => .ok {
      operationIdentityDigest := observation.intent.base.operationKeyDigest.val
      executionPlanDigest := attempt.start.fields.executionPlanReferenceDigest.val
      bindingSetIdentityDigest := attempt.start.fields.providerBindingSetReferenceDigest.val
      boundAttemptDigest := attempt.start.fields.boundAttemptDigest.val
      attemptNonceDigest := attempt.start.fields.attemptNonceDigest.val
      authorityGrantDigest := attempt.start.fields.authorityGrantReferenceDigest.val
      resumeEpochDigest := attempt.start.fields.resumeEpochDigest.map Subtype.val
      deadlineAtUnixMs := attempt.start.fields.deadlineAtUnixMs }

/-- A record behind the last one of a journal. -/
def commonRecord (observation : JournalObservation) (body : RecordBody) : UnsignedRecord :=
  ⟨⟨observation.records.length, observation.intent.base.operationKeyDigest,
    observation.records.getLast?.map DurableRecord.recordDigest⟩, body⟩

/-! ## Inputs -/

structure CreateIntentInput where
  operationKeyDigest : Text
  intentReferenceDigest : Text
  executionPlanReferenceDigest : Text
  deadlineAtUnixMs : Nat
  deriving DecidableEq

structure AppendAttemptStartInput where
  operationKeyDigest : Text
  runIdDigest : Option Text
  resumeEpochDigest : Option Text
  attemptNonceDigest : Text
  boundAttemptDigest : Text
  workerIdentityDigest : Text
  authorityGrantReferenceDigest : Text
  providerBindingSetReferenceDigest : Text
  executionPlanReferenceDigest : Text
  deadlineAtUnixMs : Nat
  retryAdmissionReferenceDigest : Option Text
  deriving DecidableEq

structure AppendProviderSettlementInput where
  operationKeyDigest : Text
  attemptNonceDigest : Text
  requirementId : Text
  providerBindingDigest : Text
  providerReceiptDigest : Text
  deriving DecidableEq

structure AppendDomainReadbackInput where
  operationKeyDigest : Text
  attemptNonceDigest : Text
  readbackContractDigest : Text
  domainReadbackReceiptDigest : Text
  deriving DecidableEq

structure AppendLostHandleInput where
  operationKeyDigest : Text
  attemptNonceDigest : Text
  lostHandleReferenceDigest : Text
  deriving DecidableEq

structure AppendAttemptResolutionInput where
  operationKeyDigest : Text
  attemptNonceDigest : Text
  resolutionKind : AttemptResolutionKind
  resolutionReferenceDigest : Text
  domainReadbackReceiptDigest : Text
  deriving DecidableEq

/-! ## Records from inputs -/

section Records

variable [Sha256]

def sealRecord (value : UnsignedRecord) : Except StoreFailure DurableRecord :=
  (sealDurableExecutionRecordForInternalWriter value).mapError .contract

def observeJournal (records : List DurableRecord) : Except StoreFailure JournalObservation :=
  (observeDurableExecutionJournal records).mapError .contract

def intentRecord (limits : StoreLimits) (input : CreateIntentInput) : Except StoreFailure DurableRecord := do
  let operationKeyDigest ← canonicalDigest input.operationKeyDigest "operationKeyDigest"
  sealRecord ⟨⟨0, operationKeyDigest, none⟩, .intent {
    intentReferenceDigest := ← canonicalDigest input.intentReferenceDigest "intentReferenceDigest"
    executionPlanReferenceDigest := ←
      canonicalDigest input.executionPlanReferenceDigest "executionPlanReferenceDigest"
    deadlineAtUnixMs := input.deadlineAtUnixMs
    maximumRecords := limits.maximumRecords
    maximumStateBytes := limits.maximumStateBytes
    maximumAttempts := limits.maximumAttempts
    maximumProviderSettlementsPerAttempt := limits.maximumProviderSettlementsPerAttempt }⟩

def attemptStartRecord (input : AppendAttemptStartInput) (retryAdmissionReferenceDigest : Option Text)
    (current : JournalObservation) : Except StoreFailure DurableRecord := do
  sealRecord (commonRecord current (.attemptStart {
    runIdDigest := ← canonicalNullableDigest input.runIdDigest "runIdDigest"
    resumeEpochDigest := ← canonicalNullableDigest input.resumeEpochDigest "resumeEpochDigest"
    attemptNonceDigest := ← canonicalDigest input.attemptNonceDigest "attemptNonceDigest"
    boundAttemptDigest := ← canonicalDigest input.boundAttemptDigest "boundAttemptDigest"
    workerIdentityDigest := ← canonicalDigest input.workerIdentityDigest "workerIdentityDigest"
    authorityGrantReferenceDigest := ←
      canonicalDigest input.authorityGrantReferenceDigest "authorityGrantReferenceDigest"
    providerBindingSetReferenceDigest := ←
      canonicalDigest input.providerBindingSetReferenceDigest "providerBindingSetReferenceDigest"
    executionPlanReferenceDigest := ←
      canonicalDigest input.executionPlanReferenceDigest "executionPlanReferenceDigest"
    deadlineAtUnixMs := input.deadlineAtUnixMs
    retryAdmissionReferenceDigest := ←
      canonicalNullableDigest retryAdmissionReferenceDigest "retryAdmissionReferenceDigest" }))

def providerSettlementRecord (input : AppendProviderSettlementInput) (current : JournalObservation) :
    Except StoreFailure DurableRecord := do
  sealRecord (commonRecord current (.providerSettlement {
    attemptNonceDigest := ← canonicalDigest input.attemptNonceDigest "attemptNonceDigest"
    requirementId := input.requirementId
    providerBindingDigest := ← canonicalDigest input.providerBindingDigest "providerBindingDigest"
    providerReceiptDigest := ← canonicalDigest input.providerReceiptDigest "providerReceiptDigest" }))

def domainReadbackRecord (input : AppendDomainReadbackInput) (current : JournalObservation) :
    Except StoreFailure DurableRecord := do
  sealRecord (commonRecord current (.domainReadback {
    attemptNonceDigest := ← canonicalDigest input.attemptNonceDigest "attemptNonceDigest"
    readbackContractDigest := ← canonicalDigest input.readbackContractDigest "readbackContractDigest"
    domainReadbackReceiptDigest := ←
      canonicalDigest input.domainReadbackReceiptDigest "domainReadbackReceiptDigest" }))

def lostHandleRecord (input : AppendLostHandleInput) (current : JournalObservation) :
    Except StoreFailure DurableRecord := do
  sealRecord (commonRecord current (.lostHandle {
    attemptNonceDigest := ← canonicalDigest input.attemptNonceDigest "attemptNonceDigest"
    lostHandleReferenceDigest := ← canonicalDigest input.lostHandleReferenceDigest "lostHandleReferenceDigest" }))

/-- The resolution of an attempt under a kind that is the input's own or fixed by the caller. -/
def resolutionRecord (input : AppendAttemptResolutionInput) (kind : AttemptResolutionKind)
    (attempt : AttemptObservation) (current : JournalObservation) : Except StoreFailure DurableRecord := do
  sealRecord (commonRecord current (.attemptResolution {
    attemptNonceDigest := ← canonicalDigest input.attemptNonceDigest "attemptNonceDigest"
    resolutionKind := kind
    resolutionReferenceDigest := ← canonicalDigest input.resolutionReferenceDigest "resolutionReferenceDigest"
    providerSettlementRecordDigests := attempt.providerRecordDigests
    domainReadbackRecordDigest := attempt.domainReadback.map Sealed.recordDigest }))

def attemptResolutionRecord (input : AppendAttemptResolutionInput) (current : JournalObservation) :
    Except StoreFailure DurableRecord :=
  match current.activeAttempt with
  | none => failStore .conflict "attempt resolution does not target the active attempt."
  | some attempt =>
      if attempt.start.fields.attemptNonceDigest.val ≠ input.attemptNonceDigest then
        failStore .conflict "attempt resolution does not target the active attempt."
      else if (attempt.domainReadback.map fun readback => readback.fields.domainReadbackReceiptDigest.val) ≠
          some input.domainReadbackReceiptDigest then
        failStore .identityMismatch "attempt resolution does not bind the exact observed domain readback receipt."
      else resolutionRecord input input.resolutionKind attempt current

end Records

/-! ## Equivalent records -/

def sameAttemptStart (record : AttemptStartFields) (input : AppendAttemptStartInput) : Bool :=
  record.attemptNonceDigest.val = input.attemptNonceDigest &&
    record.boundAttemptDigest.val = input.boundAttemptDigest &&
    record.runIdDigest.map Subtype.val = input.runIdDigest &&
    record.resumeEpochDigest.map Subtype.val = input.resumeEpochDigest &&
    record.workerIdentityDigest.val = input.workerIdentityDigest &&
    record.authorityGrantReferenceDigest.val = input.authorityGrantReferenceDigest &&
    record.providerBindingSetReferenceDigest.val = input.providerBindingSetReferenceDigest &&
    record.executionPlanReferenceDigest.val = input.executionPlanReferenceDigest &&
    record.deadlineAtUnixMs = input.deadlineAtUnixMs &&
    record.retryAdmissionReferenceDigest.map Subtype.val = input.retryAdmissionReferenceDigest

def equivalentAttemptStart (input : AppendAttemptStartInput) (record : DurableRecord) : Bool :=
  match record.body with
  | .attemptStart fields => sameAttemptStart fields input
  | _ => false

def equivalentProviderSettlement (input : AppendProviderSettlementInput) (record : DurableRecord) : Bool :=
  match record.body with
  | .providerSettlement fields => fields.attemptNonceDigest.val = input.attemptNonceDigest &&
      fields.requirementId = input.requirementId && fields.providerBindingDigest.val = input.providerBindingDigest &&
      fields.providerReceiptDigest.val = input.providerReceiptDigest
  | _ => false

def equivalentDomainReadback (input : AppendDomainReadbackInput) (record : DurableRecord) : Bool :=
  match record.body with
  | .domainReadback fields => fields.attemptNonceDigest.val = input.attemptNonceDigest &&
      fields.readbackContractDigest.val = input.readbackContractDigest &&
      fields.domainReadbackReceiptDigest.val = input.domainReadbackReceiptDigest
  | _ => false

def equivalentLostHandle (input : AppendLostHandleInput) (record : DurableRecord) : Bool :=
  match record.body with
  | .lostHandle fields => fields.attemptNonceDigest.val = input.attemptNonceDigest &&
      fields.lostHandleReferenceDigest.val = input.lostHandleReferenceDigest
  | _ => false

def equivalentAttemptResolution (input : AppendAttemptResolutionInput) (record : DurableRecord) : Bool :=
  match record.body with
  | .attemptResolution fields => fields.attemptNonceDigest.val = input.attemptNonceDigest &&
      fields.resolutionKind = input.resolutionKind &&
      fields.resolutionReferenceDigest.val = input.resolutionReferenceDigest
  | _ => false

/-! ## Operations of the store -/

abbrev StoreProgram := FileProgram CodeUnit JournalReadFailure StoreFailure

open FileProgram (lift expired readFile createFile appendFile)

def assertDeadline : StoreProgram Unit := do
  if ← expired then lift (failStore .deadlineExhausted "operation deadline is exhausted.")

def assertCumulativeLimits (observation : JournalObservation) (limits : StoreLimits) (exactStateBytes : Nat)
    (reserveSettlementClosure : Bool) : StoreProgram Unit := do
  assertDeadline
  lift (checkCumulativeLimits observation limits exactStateBytes reserveSettlementClosure)

def readFailure (failure : JournalReadFailure) : StoreFailure :=
  match failure with
  | .read .deadlineExhausted message =>
      .store .deadlineExhausted (Text.cat ["Durable local execution store ", message])
  | .read .maximumBytesExceeded message =>
      .store .resourceExhausted (Text.cat ["Durable local execution store ", message])
  | .other => .fileSystem .other

section Store

variable [Sha256] (limits : StoreLimits)

/-- The checks on the text of a journal that was read. -/
def readSource (operationKeyDigest source : Text) : StoreProgram JournalObservation := do
  let observation ← lift ((parseDurableExecutionJournal source).mapError .contract)
  if !sameIdentity observation operationKeyDigest then
    lift (failStore .identityMismatch "journal bytes do not match their OperationKey address.")
  else if !limitsMatchIntent observation limits then
    lift (failStore .identityMismatch "journal limits differ from their immutable operation intent.")
  else do
    assertCumulativeLimits observation limits source.utf8Length true
    return observation

def readState (operationKeyDigest : Text) : StoreProgram (Option (JournalObservation × Text)) := do
  assertDeadline
  let _ ← lift (identityPath operationKeyDigest)
  match ← readFile limits.maximumStateBytes with
  | .error failure => lift (.error (readFailure failure))
  | .ok none => return none
  | .ok (some source) => do
      let observation ← readSource limits operationKeyDigest source
      return some (observation, source)

def read (operationKeyDigest : Text) : StoreProgram (Option JournalObservation) := do
  let state ← readState limits operationKeyDigest
  return state.map Prod.fst

def required (operationKeyDigest : Text) : StoreProgram JournalObservation := do
  match ← readState limits operationKeyDigest with
  | none => lift (failStore .absent "journal intent is absent.")
  | some state => return state.1

/-- One record behind the current ones, unless an equivalent one is there already. -/
def append (operationKeyDigest : Text) (build : JournalObservation → Except StoreFailure DurableRecord)
    (equivalent : DurableRecord → Bool) : StoreProgram JournalObservation := do
  assertDeadline
  match ← readState limits operationKeyDigest with
  | none => lift (failStore .absent "journal intent is absent.")
  | some (current, source) =>
      if current.records.any equivalent then return current
      else do
        let record ← lift (build current)
        let next ← lift (observeJournal (current.records ++ [record]))
        let appended := encodeDurableExecutionRecord record ++ [lineBreak]
        assertCumulativeLimits next limits (source.utf8Length + appended.utf8Length) true
        let _ ← lift (identityPath operationKeyDigest)
        assertDeadline
        if ← appendFile source appended then return next
        else do
          let concurrent ← required limits operationKeyDigest
          if concurrent.records.any equivalent then return concurrent
          else lift (failStore .conflict "journal changed during CAS append.")

def createIntent (input : CreateIntentInput) : StoreProgram JournalObservation := do
  let _ ← lift (identityPath input.operationKeyDigest)
  assertDeadline
  let intent ← lift (intentRecord limits input)
  let source := encodeDurableExecutionRecord intent ++ [lineBreak]
  let prepared ← lift (observeJournal [intent])
  assertCumulativeLimits prepared limits source.utf8Length false
  assertDeadline
  if ← createFile source then lift (observeJournal [intent])
  else do
    let current ← required limits input.operationKeyDigest
    if current.intent.recordDigest = intent.recordDigest then return current
    else lift (failStore .conflict "OperationKey already binds another intent.")

def appendAttemptStart (input : AppendAttemptStartInput) : StoreProgram JournalObservation :=
  append limits input.operationKeyDigest (attemptStartRecord input input.retryAdmissionReferenceDigest)
    (equivalentAttemptStart input)

/-- Whether the journal that won the append of a recovered retry is taken for the answer. -/
def concurrentRetry (resolution : AppendAttemptResolutionInput) (start : AppendAttemptStartInput)
    (concurrent : JournalObservation) : Bool :=
  (concurrent.activeAttempt.map fun active => active.start.fields.attemptNonceDigest.val) =
      some start.attemptNonceDigest &&
    (concurrent.latestResolution.map fun latest => latest.fields.resolutionReferenceDigest.val) =
      some resolution.resolutionReferenceDigest

def appendRecoveredRetryAttemptStart (resolutionInput : AppendAttemptResolutionInput)
    (attemptInput : AppendAttemptStartInput) : StoreProgram JournalObservation := do
  assertDeadline
  match ← readState limits resolutionInput.operationKeyDigest with
  | none => lift (failStore .absent "journal intent is absent.")
  | some (current, source) =>
      match current.activeAttempt with
      | none => lift (failStore .identityMismatch
          "atomic retry transition does not bind the active predecessor and exact readback.")
      | some activeAttempt =>
          if activeAttempt.start.fields.attemptNonceDigest.val ≠ resolutionInput.attemptNonceDigest ∨
              (activeAttempt.domainReadback.map fun readback => readback.fields.domainReadbackReceiptDigest.val) ≠
                some resolutionInput.domainReadbackReceiptDigest ∨
              attemptInput.operationKeyDigest ≠ resolutionInput.operationKeyDigest then
            lift (failStore .identityMismatch
              "atomic retry transition does not bind the active predecessor and exact readback.")
          else do
            let resolution ← lift (resolutionRecord resolutionInput .retryAdmissionReference activeAttempt current)
            let admitted ← lift (observeJournal (current.records ++ [resolution]))
            let start ← lift (attemptStartRecord attemptInput resolutionInput.resolutionReferenceDigest admitted)
            let next ← lift (observeJournal (admitted.records ++ [start]))
            let appended := encodeDurableExecutionRecord resolution ++ [lineBreak] ++
              (encodeDurableExecutionRecord start ++ [lineBreak])
            assertCumulativeLimits next limits (source.utf8Length + appended.utf8Length) true
            let _ ← lift (identityPath resolutionInput.operationKeyDigest)
            assertDeadline
            if ← appendFile source appended then return next
            else do
              let concurrent ← required limits resolutionInput.operationKeyDigest
              if concurrentRetry resolutionInput attemptInput concurrent then return concurrent
              else lift (failStore .conflict "journal changed during atomic retry transition.")

def appendProviderSettlementReference (input : AppendProviderSettlementInput) : StoreProgram JournalObservation :=
  append limits input.operationKeyDigest (providerSettlementRecord input) (equivalentProviderSettlement input)

def appendDomainReadbackReference (input : AppendDomainReadbackInput) : StoreProgram JournalObservation :=
  append limits input.operationKeyDigest (domainReadbackRecord input) (equivalentDomainReadback input)

def appendLostHandleReference (input : AppendLostHandleInput) : StoreProgram JournalObservation :=
  append limits input.operationKeyDigest (lostHandleRecord input) (equivalentLostHandle input)

def appendAttemptResolution (input : AppendAttemptResolutionInput) : StoreProgram JournalObservation :=
  append limits input.operationKeyDigest (attemptResolutionRecord input) (equivalentAttemptResolution input)

end Store

end SecPlatform.DurableExecution
