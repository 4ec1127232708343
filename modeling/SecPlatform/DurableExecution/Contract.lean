import SecPlatform.Contracts.Canonical
import SecPlatform.Contracts.Lemmas.ExactJsonAgreement

/-!
# The records of a durable execution journal

A journal is a text of canonical records, one on each line. Every record carries the digest of its content
and of its predecessor. `observeDurableExecutionJournal` folds the records into what they say about the
operation: durable bytes are observations only.
-/

namespace SecPlatform.DurableExecution

open Contracts

def durableLocalExecutionRecordSchema : Text := "sec-durable-local-execution-record"

def durableExecutionMaximumRecordBytes : Nat := 4096

/-! ## Records -/

structure IntentFields where
  intentReferenceDigest : Digest
  executionPlanReferenceDigest : Digest
  deadlineAtUnixMs : Nat
  maximumRecords : Nat
  maximumStateBytes : Nat
  maximumAttempts : Nat
  maximumProviderSettlementsPerAttempt : Nat
  deriving DecidableEq

structure AttemptStartFields where
  runIdDigest : Option Digest
  resumeEpochDigest : Option Digest
  attemptNonceDigest : Digest
  boundAttemptDigest : Digest
  workerIdentityDigest : Digest
  authorityGrantReferenceDigest : Digest
  providerBindingSetReferenceDigest : Digest
  executionPlanReferenceDigest : Digest
  deadlineAtUnixMs : Nat
  retryAdmissionReferenceDigest : Option Digest
  deriving DecidableEq

structure ProviderSettlementFields where
  attemptNonceDigest : Digest
  requirementId : Text
  providerBindingDigest : Digest
  providerReceiptDigest : Digest
  deriving DecidableEq

structure DomainReadbackFields where
  attemptNonceDigest : Digest
  readbackContractDigest : Digest
  domainReadbackReceiptDigest : Digest
  deriving DecidableEq

structure LostHandleFields where
  attemptNonceDigest : Digest
  lostHandleReferenceDigest : Digest
  deriving DecidableEq

inductive AttemptResolutionKind where
  | ownerTerminalReference
  | retryAdmissionReference
  deriving DecidableEq, Repr

def AttemptResolutionKind.text : AttemptResolutionKind → Text
  | .ownerTerminalReference => "owner-terminal-reference"
  | .retryAdmissionReference => "retry-admission-reference"

structure AttemptResolutionFields where
  attemptNonceDigest : Digest
  resolutionKind : AttemptResolutionKind
  resolutionReferenceDigest : Digest
  providerSettlementRecordDigests : List Digest
  domainReadbackRecordDigest : Option Digest
  deriving DecidableEq

inductive RecordBody where
  | intent (fields : IntentFields)
  | attemptStart (fields : AttemptStartFields)
  | providerSettlement (fields : ProviderSettlementFields)
  | domainReadback (fields : DomainReadbackFields)
  | lostHandle (fields : LostHandleFields)
  | attemptResolution (fields : AttemptResolutionFields)
  deriving DecidableEq

structure RecordBase where
  sequence : Nat
  operationKeyDigest : Digest
  previousRecordDigest : Option Digest
  deriving DecidableEq

structure UnsignedRecord where
  base : RecordBase
  body : RecordBody
  deriving DecidableEq

/-- A record under the digest of its content. -/
structure DurableRecord extends UnsignedRecord where
  recordDigest : Digest
  deriving DecidableEq

/-! ## Records as values -/

def digestValue (d : Digest) : Value := .str d.val

def nullableDigestValue : Option Digest → Value
  | none => .null
  | some d => digestValue d

def natValue (n : Nat) : Value := .num (.ofNat n)

namespace RecordBody

def kind : RecordBody → Text
  | .intent _ => "intent"
  | .attemptStart _ => "attempt-start"
  | .providerSettlement _ => "provider-settlement-reference"
  | .domainReadback _ => "domain-readback-reference"
  | .lostHandle _ => "lost-handle-reference"
  | .attemptResolution _ => "attempt-resolution"

def members : RecordBody → List (Text × Value)
  | .intent f => [
      ("intentReferenceDigest", digestValue f.intentReferenceDigest),
      ("executionPlanReferenceDigest", digestValue f.executionPlanReferenceDigest),
      ("deadlineAtUnixMs", natValue f.deadlineAtUnixMs),
      ("maximumRecords", natValue f.maximumRecords),
      ("maximumStateBytes", natValue f.maximumStateBytes),
      ("maximumAttempts", natValue f.maximumAttempts),
      ("maximumProviderSettlementsPerAttempt", natValue f.maximumProviderSettlementsPerAttempt)]
  | .attemptStart f => [
      ("runIdDigest", nullableDigestValue f.runIdDigest),
      ("resumeEpochDigest", nullableDigestValue f.resumeEpochDigest),
      ("attemptNonceDigest", digestValue f.attemptNonceDigest),
      ("boundAttemptDigest", digestValue f.boundAttemptDigest),
      ("workerIdentityDigest", digestValue f.workerIdentityDigest),
      ("authorityGrantReferenceDigest", digestValue f.authorityGrantReferenceDigest),
      ("providerBindingSetReferenceDigest", digestValue f.providerBindingSetReferenceDigest),
      ("executionPlanReferenceDigest", digestValue f.executionPlanReferenceDigest),
      ("deadlineAtUnixMs", natValue f.deadlineAtUnixMs),
      ("retryAdmissionReferenceDigest", nullableDigestValue f.retryAdmissionReferenceDigest)]
  | .providerSettlement f => [
      ("attemptNonceDigest", digestValue f.attemptNonceDigest),
      ("requirementId", .str f.requirementId),
      ("providerBindingDigest", digestValue f.providerBindingDigest),
      ("providerReceiptDigest", digestValue f.providerReceiptDigest)]
  | .domainReadback f => [
      ("attemptNonceDigest", digestValue f.attemptNonceDigest),
      ("readbackContractDigest", digestValue f.readbackContractDigest),
      ("domainReadbackReceiptDigest", digestValue f.domainReadbackReceiptDigest)]
  | .lostHandle f => [
      ("attemptNonceDigest", digestValue f.attemptNonceDigest),
      ("lostHandleReferenceDigest", digestValue f.lostHandleReferenceDigest)]
  | .attemptResolution f => [
      ("attemptNonceDigest", digestValue f.attemptNonceDigest),
      ("resolutionKind", .str f.resolutionKind.text),
      ("resolutionReferenceDigest", digestValue f.resolutionReferenceDigest),
      ("providerSettlementRecordDigests", .arr (f.providerSettlementRecordDigests.map digestValue)),
      ("domainReadbackRecordDigest", nullableDigestValue f.domainReadbackRecordDigest)]

end RecordBody

def UnsignedRecord.members (record : UnsignedRecord) : List (Text × Value) :=
  ("schema", .str durableLocalExecutionRecordSchema) ::
    ("sequence", natValue record.base.sequence) ::
    ("operationKeyDigest", digestValue record.base.operationKeyDigest) ::
    ("previousRecordDigest", nullableDigestValue record.base.previousRecordDigest) ::
    ("kind", .str record.body.kind) :: record.body.members

def UnsignedRecord.toValue (record : UnsignedRecord) : Value := .obj record.members

def DurableRecord.members (record : DurableRecord) : List (Text × Value) :=
  record.toUnsignedRecord.members ++ [(Text.ofString "recordDigest", digestValue record.recordDigest)]

def DurableRecord.toValue (record : DurableRecord) : Value := .obj record.members

/-! ## Schemas -/

def digestSchema : Value → Option Digest
  | .str t => if h : isDigest t then some ⟨t, h⟩ else none
  | _ => none

def nullableDigestSchema : Value → Option (Option Digest)
  | .null => some none
  | v => (digestSchema v).map some

/-- `z.number().int().safe()` from a least value on. -/
def safeIntegerSchema (least : Nat) : Value → Option Nat
  | .num n => n.toNat?.filter fun k => least ≤ k ∧ k < 2 ^ 53
  | _ => none

def isLowerAlphanumeric (c : CodeUnit) : Bool :=
  (unit 'a' ≤ c && c ≤ unit 'z') || (unit '0' ≤ c && c ≤ unit '9')

/-- The rest of an id: `inside` a segment or behind a separator, with a separator `seen` or not. -/
def isIdRest (inside seen : Bool) : Text → Bool
  | [] => inside && seen
  | c :: cs =>
      if isLowerAlphanumeric c then isIdRest true seen cs
      else (c = unit '.' || c = unit '-') && inside && isIdRest false true cs

/-- `ID_PATTERN`. -/
def isId : Text → Bool
  | c :: cs => unit 'a' ≤ c && c ≤ unit 'z' && isIdRest true false cs
  | [] => false

def requirementIdSchema : Value → Option Text
  | .str t => if isId t ∧ t.length ≤ 128 then some t else none
  | _ => none

def resolutionKindSchema : Value → Option AttemptResolutionKind
  | .str t =>
      if t = AttemptResolutionKind.ownerTerminalReference.text then some .ownerTerminalReference
      else if t = AttemptResolutionKind.retryAdmissionReference.text then some .retryAdmissionReference
      else none
  | _ => none

def digestArraySchema : Value → Option (List Digest)
  | .arr items => items.mapM digestSchema
  | _ => none

def literalSchema (literal : Text) : Value → Option Unit
  | .str t => if t = literal then some () else none
  | _ => none

section Fields

variable (members : List (Text × Value))

def field {α : Type} (key : Text) (schema : Value → Option α) : Option α := (Json.get? key members).bind schema

def baseShape : Option RecordBase := do
  field members "schema" (literalSchema durableLocalExecutionRecordSchema)
  return {
    sequence := ← field members "sequence" (safeIntegerSchema 0)
    operationKeyDigest := ← field members "operationKeyDigest" digestSchema
    previousRecordDigest := ← field members "previousRecordDigest" nullableDigestSchema }

def intentShape : Option IntentFields := do
  return {
    intentReferenceDigest := ← field members "intentReferenceDigest" digestSchema
    executionPlanReferenceDigest := ← field members "executionPlanReferenceDigest" digestSchema
    deadlineAtUnixMs := ← field members "deadlineAtUnixMs" (safeIntegerSchema 1)
    maximumRecords := ← field members "maximumRecords" (safeIntegerSchema 1)
    maximumStateBytes := ← field members "maximumStateBytes" (safeIntegerSchema 1)
    maximumAttempts := ← field members "maximumAttempts" (safeIntegerSchema 1)
    maximumProviderSettlementsPerAttempt := ←
      field members "maximumProviderSettlementsPerAttempt" (safeIntegerSchema 0) }

def attemptStartShape : Option AttemptStartFields := do
  return {
    runIdDigest := ← field members "runIdDigest" nullableDigestSchema
    resumeEpochDigest := ← field members "resumeEpochDigest" nullableDigestSchema
    attemptNonceDigest := ← field members "attemptNonceDigest" digestSchema
    boundAttemptDigest := ← field members "boundAttemptDigest" digestSchema
    workerIdentityDigest := ← field members "workerIdentityDigest" digestSchema
    authorityGrantReferenceDigest := ← field members "authorityGrantReferenceDigest" digestSchema
    providerBindingSetReferenceDigest := ← field members "providerBindingSetReferenceDigest" digestSchema
    executionPlanReferenceDigest := ← field members "executionPlanReferenceDigest" digestSchema
    deadlineAtUnixMs := ← field members "deadlineAtUnixMs" (safeIntegerSchema 1)
    retryAdmissionReferenceDigest := ← field members "retryAdmissionReferenceDigest" nullableDigestSchema }

def providerSettlementShape : Option ProviderSettlementFields := do
  return {
    attemptNonceDigest := ← field members "attemptNonceDigest" digestSchema
    requirementId := ← field members "requirementId" requirementIdSchema
    providerBindingDigest := ← field members "providerBindingDigest" digestSchema
    providerReceiptDigest := ← field members "providerReceiptDigest" digestSchema }

def domainReadbackShape : Option DomainReadbackFields := do
  return {
    attemptNonceDigest := ← field members "attemptNonceDigest" digestSchema
    readbackContractDigest := ← field members "readbackContractDigest" digestSchema
    domainReadbackReceiptDigest := ← field members "domainReadbackReceiptDigest" digestSchema }

def lostHandleShape : Option LostHandleFields := do
  return {
    attemptNonceDigest := ← field members "attemptNonceDigest" digestSchema
    lostHandleReferenceDigest := ← field members "lostHandleReferenceDigest" digestSchema }

def attemptResolutionShape : Option AttemptResolutionFields := do
  return {
    attemptNonceDigest := ← field members "attemptNonceDigest" digestSchema
    resolutionKind := ← field members "resolutionKind" resolutionKindSchema
    resolutionReferenceDigest := ← field members "resolutionReferenceDigest" digestSchema
    providerSettlementRecordDigests := ← field members "providerSettlementRecordDigests" digestArraySchema
    domainReadbackRecordDigest := ← field members "domainReadbackRecordDigest" nullableDigestSchema }

/-- The union over `kind`. -/
def bodyShape : Option RecordBody :=
  match Json.get? "kind" members with
  | some (.str kind) =>
      if kind = "intent" then (intentShape members).map .intent
      else if kind = "attempt-start" then (attemptStartShape members).map .attemptStart
      else if kind = "provider-settlement-reference" then (providerSettlementShape members).map .providerSettlement
      else if kind = "domain-readback-reference" then (domainReadbackShape members).map .domainReadback
      else if kind = "lost-handle-reference" then (lostHandleShape members).map .lostHandle
      else if kind = "attempt-resolution" then (attemptResolutionShape members).map .attemptResolution
      else none
  | _ => none

end Fields

/-- A strict object schema: the fields of the record and nothing besides `extra`. -/
def recordShape (extra : List Text) (members : List (Text × Value)) : Option UnsignedRecord := do
  let base ← baseShape members
  let body ← bodyShape members
  let record : UnsignedRecord := ⟨base, body⟩
  if members.all fun m => m.1 ∈ record.members.map Prod.fst ++ extra then some record else none

def durableExecutionUnsignedRecordSchema : Value → Option UnsignedRecord
  | .obj members => recordShape [] members
  | _ => none

def durableExecutionRecordSchema : Value → Option DurableRecord
  | .obj members => do
      let unsigned ← recordShape ["recordDigest"] members
      let recordDigest ← field members "recordDigest" digestSchema
      return ⟨unsigned, recordDigest⟩
  | _ => none

/-! ## Failures -/

inductive ContractFailureKind where
  | invalidRecord
  | noncanonicalRecord
  | digestMismatch
  | invalidTransition
  deriving DecidableEq, Repr

/-- What reading and writing records throws. -/
inductive ContractFailure where
  | exactJson (failure : ExactJsonFailure)
  | contract (kind : ContractFailureKind) (message : Text)
  deriving DecidableEq

def failContract {α : Type} (kind : ContractFailureKind) (message : Text) : Except ContractFailure α :=
  .error (.contract kind (Text.cat ["Durable local execution ", message]))

/-! ## Sealing, writing and reading one record -/

section Records

variable [Sha256]

/-- `sha256` of an unsigned record; its numbers are finite, so that it has a canonical value. -/
def recordDigestOf (record : UnsignedRecord) : Digest := Sha256.rawSha256 (canonicalEncoding record.toValue)

def encodeDurableExecutionRecord (record : DurableRecord) : Text := canonicalEncoding record.toValue

def sealDurableExecutionRecordForInternalWriter (value : UnsignedRecord) : Except ContractFailure DurableRecord :=
  match durableExecutionUnsignedRecordSchema value.toValue with
  | none => failContract .invalidRecord "unsigned record violates its strict schema"
  | some canonical =>
      let record : DurableRecord := ⟨canonical, recordDigestOf canonical⟩
      if durableExecutionMaximumRecordBytes < (encodeDurableExecutionRecord record).utf8Length then
        failContract .invalidRecord "record exceeds its canonical byte ceiling."
      else .ok record

/-- `parseExactJson` as a total function: the scanner ends. -/
def readExactJson (source label : Text) : Except ContractFailure Value :=
  ((parseExactJson source label none none).get (parseExactJson_plain_isSome source label)).mapError .exactJson

def parseDurableExecutionRecord (source : Text) : Except ContractFailure DurableRecord := do
  let parsed ← readExactJson source "Durable local execution record"
  match durableExecutionRecordSchema parsed with
  | none => failContract .invalidRecord "record violates its strict schema"
  | some record =>
      if durableExecutionMaximumRecordBytes < source.utf8Length then
        failContract .invalidRecord "record exceeds its canonical byte ceiling."
      else if record.recordDigest ≠ recordDigestOf record.toUnsignedRecord then
        failContract .digestMismatch "record digest does not match its exact content."
      else if encodeDurableExecutionRecord record ≠ source then
        failContract .noncanonicalRecord "record bytes are not canonical."
      else .ok record

end Records

/-! ## Observations -/

/-- A record of one kind. -/
structure Sealed (φ : Type) where
  base : RecordBase
  fields : φ
  recordDigest : Digest
  deriving DecidableEq

def DurableRecord.as {φ : Type} (record : DurableRecord) (fields : φ) : Sealed φ :=
  ⟨record.base, fields, record.recordDigest⟩

structure AttemptObservation where
  start : Sealed AttemptStartFields
  providerSettlements : List (Sealed ProviderSettlementFields)
  domainReadback : Option (Sealed DomainReadbackFields)
  lostHandle : Option (Sealed LostHandleFields)
  deriving DecidableEq

inductive JournalState where
  | prepared
  | running
  | lostHandle
  | observed
  | retryAdmitted
  | settled
  deriving DecidableEq, Repr

structure JournalObservation where
  intent : Sealed IntentFields
  records : List DurableRecord
  activeAttempt : Option AttemptObservation
  latestResolution : Option (Sealed AttemptResolutionFields)
  state : JournalState
  journalDigest : Digest
  deriving DecidableEq

/-- The variables of the observing loop. -/
structure Observing where
  previous : Option DurableRecord
  active : Option AttemptObservation
  latestResolution : Option (Sealed AttemptResolutionFields)
  previousAttemptStart : Option (Sealed AttemptStartFields)
  attemptNonces : List Digest
  deriving DecidableEq

def Observing.initial : Observing := ⟨none, none, none, none, []⟩

/-- `latestResolution?.resolutionKind`. -/
def Observing.resolutionKind (st : Observing) : Option AttemptResolutionKind :=
  st.latestResolution.map fun resolution => resolution.fields.resolutionKind

/-- `attempt.providerSettlements.map(({ recordDigest }) => recordDigest).sort()`. -/
def AttemptObservation.providerRecordDigests (attempt : AttemptObservation) : List Digest :=
  sortBy Subtype.val (attempt.providerSettlements.map Sealed.recordDigest)

/-- The text `JSON.stringify` writes for a list of digests. -/
def digestListText (digests : List Digest) : Text := Json.render (.arr (digests.map digestValue) : Value)

def assertAttemptResolution (resolution : AttemptResolutionFields) (attempt : AttemptObservation) :
    Except ContractFailure Unit :=
  if digestListText resolution.providerSettlementRecordDigests ≠ digestListText attempt.providerRecordDigests ∨
      resolution.domainReadbackRecordDigest ≠ attempt.domainReadback.map Sealed.recordDigest then
    failContract .invalidTransition "attempt resolution references do not match the current observations."
  else if attempt.domainReadback = none then
    failContract .invalidTransition
      (Text.cat [resolution.resolutionKind.text, " requires an owner-issued domain readback reference."])
  else .ok ()

/-- The case of an attempt start in the observing loop. -/
def observeAttemptStart (intent : Sealed IntentFields) (st : Observing) (record : DurableRecord)
    (start : AttemptStartFields) : Except ContractFailure Observing :=
  if st.active ≠ none ∨ st.resolutionKind = some .ownerTerminalReference then
    failContract .invalidTransition "attempt start conflicts with active or owner-terminal execution."
  else if st.latestResolution = none ∧ start.retryAdmissionReferenceDigest ≠ none then
    failContract .invalidTransition "initial attempt cannot claim retry admission."
  else if st.resolutionKind = some .retryAdmissionReference ∧ start.retryAdmissionReferenceDigest ≠
      st.latestResolution.map fun resolution => resolution.fields.resolutionReferenceDigest then
    failContract .invalidTransition "successor attempt does not bind the exact retry admission reference."
  else if start.executionPlanReferenceDigest ≠ intent.fields.executionPlanReferenceDigest then
    failContract .invalidTransition "attempt execution plan differs from the immutable intent plan."
  else if intent.fields.deadlineAtUnixMs < start.deadlineAtUnixMs ∨
      (st.previousAttemptStart.any fun previous => previous.fields.deadlineAtUnixMs < start.deadlineAtUnixMs) then
    failContract .invalidTransition "attempt deadline reopens the immutable operation deadline."
  else if start.attemptNonceDigest ∈ st.attemptNonces then
    failContract .invalidTransition "attempt nonce was already consumed by this run."
  else .ok { st with
    previous := some record
    active := some ⟨record.as start, [], none, none⟩
    previousAttemptStart := some (record.as start)
    attemptNonces := start.attemptNonceDigest :: st.attemptNonces }

def observeProviderSettlement (st : Observing) (record : DurableRecord) (settlement : ProviderSettlementFields) :
    Except ContractFailure Observing :=
  match st.active with
  | some active =>
      if settlement.attemptNonceDigest ≠ active.start.fields.attemptNonceDigest ∨ active.lostHandle ≠ none ∨
          active.domainReadback ≠ none ∨
          (active.providerSettlements.any fun other => other.fields.requirementId = settlement.requirementId) then
        failContract .invalidTransition "provider settlement does not target one unique active requirement."
      else .ok { st with
        previous := some record
        active := some { active with
          providerSettlements := active.providerSettlements ++ [record.as settlement] } }
  | none => failContract .invalidTransition "provider settlement does not target one unique active requirement."

def observeDomainReadback (st : Observing) (record : DurableRecord) (readback : DomainReadbackFields) :
    Except ContractFailure Observing :=
  match st.active with
  | some active =>
      if readback.attemptNonceDigest ≠ active.start.fields.attemptNonceDigest ∨ active.domainReadback ≠ none then
        failContract .invalidTransition "domain readback does not target the one unread active attempt."
      else .ok { st with
        previous := some record
        active := some { active with domainReadback := some (record.as readback) } }
  | none => failContract .invalidTransition "domain readback does not target the one unread active attempt."

def observeLostHandle (st : Observing) (record : DurableRecord) (lostHandle : LostHandleFields) :
    Except ContractFailure Observing :=
  match st.active with
  | some active =>
      if lostHandle.attemptNonceDigest ≠ active.start.fields.attemptNonceDigest ∨ active.lostHandle ≠ none ∨
          active.domainReadback ≠ none then
        failContract .invalidTransition "lost handle does not target one unresolved active attempt."
      else .ok { st with
        previous := some record
        active := some { active with lostHandle := some (record.as lostHandle) } }
  | none => failContract .invalidTransition "lost handle does not target one unresolved active attempt."

def observeAttemptResolution (st : Observing) (record : DurableRecord) (resolution : AttemptResolutionFields) :
    Except ContractFailure Observing :=
  match st.active with
  | some active =>
      if resolution.attemptNonceDigest ≠ active.start.fields.attemptNonceDigest then
        failContract .invalidTransition "attempt resolution does not target the one active attempt."
      else do
        assertAttemptResolution resolution active
        return { st with
          previous := some record
          active := none
          latestResolution := some (record.as resolution) }
  | none => failContract .invalidTransition "attempt resolution does not target the one active attempt."

/-- One turn of the observing loop. -/
def observeRecord (intent : Sealed IntentFields) (index : Nat) (st : Observing) (record : DurableRecord) :
    Except ContractFailure Observing :=
  if record.base.sequence ≠ index ∨
      record.base.previousRecordDigest ≠ st.previous.map DurableRecord.recordDigest then
    failContract .invalidTransition "record sequence or predecessor chain is noncanonical."
  else if record.base.operationKeyDigest ≠ intent.base.operationKeyDigest then
    failContract .invalidTransition "record OperationKey differs from the journal intent."
  else if index = 0 then .ok { st with previous := some record }
  else match record.body with
    | .intent _ => failContract .invalidTransition "journal contains a second intent."
    | .attemptStart start => observeAttemptStart intent st record start
    | .providerSettlement settlement => observeProviderSettlement st record settlement
    | .domainReadback readback => observeDomainReadback st record readback
    | .lostHandle lostHandle => observeLostHandle st record lostHandle
    | .attemptResolution resolution => observeAttemptResolution st record resolution

/-- The observing loop from an index on. -/
def observeFrom (intent : Sealed IntentFields) (index : Nat) (st : Observing) :
    List DurableRecord → Except ContractFailure Observing
  | [] => .ok st
  | record :: records => do
      let st ← observeRecord intent index st record
      observeFrom intent (index + 1) st records

def Observing.state (st : Observing) : JournalState :=
  match st.active with
  | none =>
      match st.resolutionKind with
      | some .ownerTerminalReference => .settled
      | some .retryAdmissionReference => .retryAdmitted
      | none => .prepared
  | some active =>
      if active.domainReadback ≠ none then .observed
      else if active.lostHandle ≠ none then .lostHandle
      else .running

section Journals

variable [Sha256]

def observeDurableExecutionJournal (records : List DurableRecord) : Except ContractFailure JournalObservation :=
  match records with
  | [] => failContract .invalidTransition "journal must begin with exactly one intent record."
  | first :: _ =>
      match first.body with
      | .intent fields => do
          let st ← observeFrom (first.as fields) 0 .initial records
          return {
            intent := first.as fields
            records := records
            activeAttempt := st.active
            latestResolution := st.latestResolution
            state := st.state
            journalDigest := Sha256.rawSha256 (canonicalEncoding
              (.arr (records.map fun record => digestValue record.recordDigest))) }
      | _ => failContract .invalidTransition "journal must begin with exactly one intent record."

def lineBreak : CodeUnit := unit '\n'

def parseDurableExecutionJournal (source : Text) : Except ContractFailure JournalObservation :=
  if source.getLast? ≠ some lineBreak then
    failContract .noncanonicalRecord "journal must contain newline-terminated canonical records."
  else
    let lines := Text.splitAt lineBreak source.dropLast
    if [] ∈ lines then failContract .noncanonicalRecord "journal contains an empty record."
    else do
      let records ← lines.mapM parseDurableExecutionRecord
      observeDurableExecutionJournal records

end Journals

end SecPlatform.DurableExecution
