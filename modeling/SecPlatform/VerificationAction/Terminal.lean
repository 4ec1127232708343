import SecPlatform.VerificationAction.Action

/-!
# The terminal of an Action

What an execution ended with, bound by digests to the attempt that ended and to the diagnostic objects it left
behind. A terminal is admitted only with all of these in agreement.
-/

namespace SecPlatform.VerificationAction

open Contracts Assurance

/-! ## Diagnostic objects -/

inductive BoundedProcessDiagnosticStream where
  | combinedTail
  | stderr
  | stdout
  deriving DecidableEq, Repr

def BoundedProcessDiagnosticStream.toText : BoundedProcessDiagnosticStream → Text
  | .combinedTail => "combined-tail"
  | .stderr => "stderr"
  | .stdout => "stdout"

def boundedProcessDiagnosticObjectSchema : Text := "sec-bounded-process-diagnostic-object"

def boundedProcessDiagnosticMaximumStreamBytes : Nat := 16 * 1024 * 1024

def boundedProcessDiagnosticMetadataMaximumBytes : Nat := 4096

/-- A natural number that is a safe integer. -/
abbrev SafeNat : Type := { n : Nat // n < 2 ^ 53 }

def safeNat? : Value → Option SafeNat
  | .num n =>
      match n.toNat? with
      | some m => if h : m < 2 ^ 53 then some ⟨m, h⟩ else none
      | none => none
  | _ => none

def natValue (n : Nat) : Value := .num (.ofNat n)

structure UnsignedReceipt where
  operationIdentityDigest : Digest
  executionPlanDigest : Digest
  boundAttemptDigest : Digest
  subjectDigest : Digest
  settlementDigest : Digest
  stream : BoundedProcessDiagnosticStream
  byteLength : SafeNat
  contentDigest : Digest
  retainedUntilUnixMs : SafeNat
  deriving DecidableEq

def UnsignedReceipt.toValue (receipt : UnsignedReceipt) : Value := .obj [
  ("boundAttemptDigest", digestValue receipt.boundAttemptDigest),
  ("byteLength", natValue receipt.byteLength),
  ("contentDigest", digestValue receipt.contentDigest),
  ("executionPlanDigest", digestValue receipt.executionPlanDigest),
  ("operationIdentityDigest", digestValue receipt.operationIdentityDigest),
  ("retainedUntilUnixMs", natValue receipt.retainedUntilUnixMs),
  ("schema", .str boundedProcessDiagnosticObjectSchema),
  ("settlementDigest", digestValue receipt.settlementDigest),
  ("stream", .str receipt.stream.toText),
  ("subjectDigest", digestValue receipt.subjectDigest)]

def receiptKeys : List Text :=
  ["boundAttemptDigest", "byteLength", "contentDigest", "executionPlanDigest", "objectDigest", "operationIdentityDigest",
    "retainedUntilUnixMs", "schema", "settlementDigest", "stream", "subjectDigest"]

def diagnosticFailure {α : Type} (kind : BoundedProcessDiagnosticFailureKind) (message : Text) : Except ActionFailure α :=
  .error (.diagnostic kind message)

def exactDigest (value : Value) (label : Text) : Except ActionFailure Digest :=
  checkedText value (.diagnostic .corruptObject (Text.cat [label, " is not a canonical SHA-256 digest"]))

def exactSafeInteger (value : Value) (label : Text) : Except ActionFailure SafeNat :=
  match safeNat? value with
  | some n => .ok n
  | none => diagnosticFailure .corruptObject (Text.cat [label, " is not a nonnegative safe integer"])

def receiptStream (value : Value) : Except ActionFailure BoundedProcessDiagnosticStream :=
  match [BoundedProcessDiagnosticStream.combinedTail, .stdout, .stderr].find? fun stream => value = .str stream.toText with
  | some stream => .ok stream
  | none => diagnosticFailure .corruptObject "Diagnostic receipt stream is invalid"

section Receipts

variable [Sha256]

/-- `sha256` of the fields but the digest; their numbers are finite. -/
def UnsignedReceipt.digest (receipt : UnsignedReceipt) : Digest := Sha256.rawSha256 (canonicalEncoding receipt.toValue)

structure BoundedProcessDiagnosticObjectReceipt extends UnsignedReceipt where
  objectDigest : Digest
  bounded : byteLength.val ≤ boundedProcessDiagnosticMaximumStreamBytes
  binds : objectDigest = toUnsignedReceipt.digest
  deriving DecidableEq

def BoundedProcessDiagnosticObjectReceipt.members (receipt : BoundedProcessDiagnosticObjectReceipt) :
    List (Text × Value) := [
  ("boundAttemptDigest", digestValue receipt.boundAttemptDigest),
  ("byteLength", natValue receipt.byteLength),
  ("contentDigest", digestValue receipt.contentDigest),
  ("executionPlanDigest", digestValue receipt.executionPlanDigest),
  ("objectDigest", digestValue receipt.objectDigest),
  ("operationIdentityDigest", digestValue receipt.operationIdentityDigest),
  ("retainedUntilUnixMs", natValue receipt.retainedUntilUnixMs),
  ("schema", .str boundedProcessDiagnosticObjectSchema),
  ("settlementDigest", digestValue receipt.settlementDigest),
  ("stream", .str receipt.stream.toText),
  ("subjectDigest", digestValue receipt.subjectDigest)]

def BoundedProcessDiagnosticObjectReceipt.toValue (receipt : BoundedProcessDiagnosticObjectReceipt) : Value :=
  .obj receipt.members

def unsignedReceipt (value : List (Text × Value)) (stream : BoundedProcessDiagnosticStream) :
    Except ActionFailure UnsignedReceipt := do
  return {
    operationIdentityDigest := ← exactDigest (member value "operationIdentityDigest") "Diagnostic operation identity"
    executionPlanDigest := ← exactDigest (member value "executionPlanDigest") "Diagnostic execution plan"
    boundAttemptDigest := ← exactDigest (member value "boundAttemptDigest") "Diagnostic bound attempt"
    subjectDigest := ← exactDigest (member value "subjectDigest") "Diagnostic subject"
    settlementDigest := ← exactDigest (member value "settlementDigest") "Diagnostic process settlement"
    stream := stream
    byteLength := ← exactSafeInteger (member value "byteLength") "Diagnostic byte length"
    contentDigest := ← exactDigest (member value "contentDigest") "Diagnostic content"
    retainedUntilUnixMs := ← exactSafeInteger (member value "retainedUntilUnixMs") "Diagnostic retention deadline" }

/-- The end of `parseReceiptValue`: the bound and the digest. -/
def signedReceipt (value : List (Text × Value)) (unsigned : UnsignedReceipt) :
    Except ActionFailure BoundedProcessDiagnosticObjectReceipt :=
  if h : unsigned.byteLength.val ≤ boundedProcessDiagnosticMaximumStreamBytes then do
    let objectDigest ← exactDigest (member value "objectDigest") "Diagnostic object"
    if hdigest : objectDigest = unsigned.digest then return ⟨unsigned, objectDigest, h, hdigest⟩
    else diagnosticFailure .corruptObject "Diagnostic object digest does not bind its receipt"
  else diagnosticFailure .resourceExhausted "Diagnostic receipt exceeds the stream byte ceiling"

def parseReceiptMembers (value : List (Text × Value)) : Except ActionFailure BoundedProcessDiagnosticObjectReceipt := do
  require (sortBy id (value.map Prod.fst) = sortBy id receiptKeys)
    (.diagnostic .corruptObject "Diagnostic receipt fields are not canonical")
  require (member value "schema" = .str boundedProcessDiagnosticObjectSchema)
    (.diagnostic .corruptObject "Diagnostic receipt schema is unsupported")
  let stream ← receiptStream (member value "stream")
  let unsigned ← unsignedReceipt value stream
  signedReceipt value unsigned

def parseReceiptValue (value : Value) : Except ActionFailure BoundedProcessDiagnosticObjectReceipt :=
  match value with
  | .obj members => parseReceiptMembers members
  | _ => diagnosticFailure .corruptObject "Diagnostic receipt must be one plain object"

/-- A receipt whose text fits the metadata bound. -/
abbrev StoredReceipt : Type := { receipt : BoundedProcessDiagnosticObjectReceipt //
  (canonicalEncoding receipt.toValue).utf8Length ≤ boundedProcessDiagnosticMetadataMaximumBytes }

def parseBoundedProcessDiagnosticObjectReceipt (source : Text) : Except ActionFailure StoredReceipt :=
  if hsize : source.utf8Length ≤ boundedProcessDiagnosticMetadataMaximumBytes then do
    let value ← exactDocument source "Bounded process diagnostic receipt" receiptKeys
    let receipt ← parseReceiptValue value
    if h : source = canonicalEncoding receipt.toValue then return ⟨receipt, h ▸ hsize⟩
    else diagnosticFailure .corruptObject "Diagnostic receipt bytes are not canonical"
  else diagnosticFailure .resourceExhausted "Diagnostic receipt exceeds its metadata byte ceiling"

end Receipts

/-! ## Published objects -/

structure UnsignedReadback where
  objectDigest : Digest
  physicalIdentityDigest : Digest
  contentDigest : Digest
  byteLength : SafeNat
  deriving DecidableEq

def UnsignedReadback.toValue (readback : UnsignedReadback) : Value := .obj [
  ("byteLength", natValue readback.byteLength),
  ("contentDigest", digestValue readback.contentDigest),
  ("disposition", .str (Text.ofString "current")),
  ("objectDigest", digestValue readback.objectDigest),
  ("physicalIdentityDigest", digestValue readback.physicalIdentityDigest)]

structure BoundedProcessDiagnosticObjectReadbackReceipt extends UnsignedReadback where
  readbackDigest : Digest
  deriving DecidableEq

def BoundedProcessDiagnosticObjectReadbackReceipt.members (readback : BoundedProcessDiagnosticObjectReadbackReceipt) :
    List (Text × Value) := [
  ("byteLength", natValue readback.byteLength),
  ("contentDigest", digestValue readback.contentDigest),
  ("disposition", .str (Text.ofString "current")),
  ("objectDigest", digestValue readback.objectDigest),
  ("physicalIdentityDigest", digestValue readback.physicalIdentityDigest),
  ("readbackDigest", digestValue readback.readbackDigest)]

def BoundedProcessDiagnosticObjectReadbackReceipt.toValue (readback : BoundedProcessDiagnosticObjectReadbackReceipt) :
    Value := .obj readback.members

/-- `readback.byteLength`, of a readback that is current. -/
def readbackByteLength (readback : List (Text × Value)) (label : Text) : Except ActionFailure SafeNat :=
  match safeNat? (member readback "byteLength") with
  | some n =>
      if member readback "disposition" = .str (Text.ofString "current") then .ok n
      else refuse label "has invalid disposition or byte length."
  | none => refuse label "has invalid disposition or byte length."

def canonicalReadback (readback : List (Text × Value)) (byteLength : SafeNat) (label : Text) :
    Except ActionFailure BoundedProcessDiagnosticObjectReadbackReceipt := do
  return {
    objectDigest := ← digest (member readback "objectDigest") (Text.cat [label, ".objectDigest"])
    physicalIdentityDigest :=
      ← digest (member readback "physicalIdentityDigest") (Text.cat [label, ".physicalIdentityDigest"])
    contentDigest := ← digest (member readback "contentDigest") (Text.cat [label, ".contentDigest"])
    byteLength := byteLength
    readbackDigest := ← digest (member readback "readbackDigest") (Text.cat [label, ".readbackDigest"]) }

section Objects

variable [Sha256]

def UnsignedReadback.digest (readback : UnsignedReadback) : Digest :=
  Sha256.rawSha256 (canonicalEncoding readback.toValue)

/-- The readback is one of the exact object. -/
def BindsObject (receipt : StoredReceipt) (readback : BoundedProcessDiagnosticObjectReadbackReceipt) : Prop :=
  readback.objectDigest = receipt.val.objectDigest ∧ readback.contentDigest = receipt.val.contentDigest ∧
    readback.byteLength = receipt.val.byteLength ∧ readback.readbackDigest = readback.toUnsignedReadback.digest

instance (receipt : StoredReceipt) (readback : BoundedProcessDiagnosticObjectReadbackReceipt) :
    Decidable (BindsObject receipt readback) := inferInstanceAs (Decidable (_ ∧ _))

structure BoundedProcessDiagnosticPublishedObject where
  receipt : StoredReceipt
  readback : BoundedProcessDiagnosticObjectReadbackReceipt
  binds : BindsObject receipt readback
  deriving DecidableEq

def BoundedProcessDiagnosticPublishedObject.members (object : BoundedProcessDiagnosticPublishedObject) :
    List (Text × Value) :=
  [("readback", object.readback.toValue), ("receipt", object.receipt.val.toValue)]

def BoundedProcessDiagnosticPublishedObject.toValue (object : BoundedProcessDiagnosticPublishedObject) : Value :=
  .obj object.members

def boundObject (receipt : StoredReceipt) (readback : BoundedProcessDiagnosticObjectReadbackReceipt) (label : Text) :
    Except ActionFailure BoundedProcessDiagnosticPublishedObject :=
  if h : BindsObject receipt readback then .ok ⟨receipt, readback, h⟩
  else refuse label "does not bind the exact diagnostic object."

def canonicalDiagnosticObject (input : Value) (label : Text) :
    Except ActionFailure BoundedProcessDiagnosticPublishedObject := do
  let value ← ordinaryRecord input label
  exactKeys value ["receipt", "readback"] label
  let receipt ← parseBoundedProcessDiagnosticObjectReceipt (encodeCanonical (member value "receipt"))
  let readbackLabel := Text.cat [label, ".readback"]
  let readback ← ordinaryRecord (member value "readback") readbackLabel
  exactKeys readback
    ["disposition", "objectDigest", "physicalIdentityDigest", "contentDigest", "byteLength", "readbackDigest"] readbackLabel
  let byteLength ← readbackByteLength readback readbackLabel
  let canonicalReadback ← canonicalReadback readback byteLength readbackLabel
  boundObject receipt canonicalReadback readbackLabel

end Objects

/-! ## Status and reason -/

/-- `assertStringSet`, with the entry of the set that the text names. -/
def assertStringSet {α : Type} (toText : α → Text) (allowed : List α) (value : Value) (label : Text) : Except Text α :=
  match value with
  | .str t =>
      if isPlainText t then
        match allowed.find? fun a => toText a = t with
        | some a => .ok a
        | none => .error (Text.cat [label, " must be one of: ", Text.joinWith ", " (allowed.map toText), "; received: ", t,
            "."])
      else .error (Text.cat [label, " must be a non-empty control-character-free string."])
  | _ => .error (Text.cat [label, " must be a non-empty control-character-free string."])

def resultStatuses : List VerificationResultStatus := [.passed, .failed, .notRun, .unsupported, .invalidated]

/-- `REASON_CODES`. -/
def reasonCodes : List VerificationReasonCode :=
  [.executedSuccess, .executedFailure, .notApplicable, .failFastPrerequisiteFailed, .currentRunnerNotOwningEnvironment,
    .notDispatched, .requiredArtifactMissing, .capabilityUnsupported, .platformUnsupported, .selectionUnresolved,
    .inputInvalidated, .evidenceStale, .supersededRevision, .cancelled, .timeout, .cleanupFailed, .processSettlementFailed]

/-- A status with one of its reasons. -/
abbrev StatusReason : Type :=
  { pair : VerificationResultStatus × VerificationReasonCode // pair.2 ∈ statusReasons pair.1 }

def codexDevelopmentAssertVerificationStatusReason (statusValue reasonCodeValue : Value) (label : Text) :
    Except Text StatusReason := do
  let status ← assertStringSet VerificationResultStatus.toText resultStatuses statusValue (Text.cat [label, ".status"])
  let reasonCode ←
    assertStringSet VerificationReasonCode.toText reasonCodes reasonCodeValue (Text.cat [label, ".reasonCode"])
  if h : reasonCode ∈ statusReasons status then return ⟨(status, reasonCode), h⟩
  else .error (Text.cat [label, statusReasonMessage status])

def terminalLabel : Text := "VerificationAction terminal"

def assertCanonicalStatusReason (status reasonCode : Value) : Except ActionFailure StatusReason :=
  (codexDevelopmentAssertVerificationStatusReason status reasonCode terminalLabel).mapError fun message =>
    .error (Text.cat ["VerificationAction terminal status/reason is not canonical: ", message])

/-! ## Terminals -/

inductive VerificationActionExecutionKind where
  | process
  | nonProcess
  deriving DecidableEq, Repr

def VerificationActionExecutionKind.toText : VerificationActionExecutionKind → Text
  | .process => "process"
  | .nonProcess => "non-process"

def terminalExecutionKind (value : Value) : Except ActionFailure VerificationActionExecutionKind :=
  match [VerificationActionExecutionKind.process, .nonProcess].find? fun kind => value = .str kind.toText with
  | some kind => .ok kind
  | none => refuse (Text.cat [terminalLabel, ".executionKind"]) "must be process or non-process."

def diagnosticObjectsLabel : Text := "VerificationAction terminal.diagnosticObjects"

section Terminals

variable [Sha256]

def BoundedProcessDiagnosticPublishedObject.stream (object : BoundedProcessDiagnosticPublishedObject) : Text :=
  object.receipt.val.stream.toText

/-- What the checks of the diagnostic objects throw. -/
def diagnosticObjectsFailure? (executionKind : VerificationActionExecutionKind) (boundAttemptDigest : Digest)
    (diagnosticObjects : List BoundedProcessDiagnosticPublishedObject) : Option ActionFailure :=
  if executionKind = .process ∧ diagnosticObjects = [] then
    some (refusal diagnosticObjectsLabel
      "must contain owner-issued diagnostic evidence for a process terminal.")
  else if executionKind = .nonProcess ∧ diagnosticObjects ≠ [] then
    some (refusal diagnosticObjectsLabel "must be empty for an explicitly non-process terminal.")
  else if (diagnosticObjects.map BoundedProcessDiagnosticPublishedObject.stream).dedup.length ≠ diagnosticObjects.length then
    some (refusal diagnosticObjectsLabel "contains duplicate stream objects.")
  else if diagnosticObjects.any fun object => object.receipt.val.boundAttemptDigest ≠ boundAttemptDigest then
    some (refusal diagnosticObjectsLabel "contains a diagnostic object from a different operation attempt.")
  else if 1 < (diagnosticObjects.map fun object => object.receipt.val.subjectDigest).dedup.length ∨
      1 < (diagnosticObjects.map fun object => object.receipt.val.settlementDigest).dedup.length then
    some (refusal diagnosticObjectsLabel "does not bind one subject and one process settlement.")
  else none

structure TerminalFields where
  actionKey : VerificationActionKeyDigest
  executionKind : VerificationActionExecutionKind
  statusReason : StatusReason
  boundAttemptDigest : Digest
  ownerTerminalReceiptDigest : Digest
  diagnosticObjects : BoundedList BoundedProcessDiagnosticPublishedObject
  deriving DecidableEq

/-- The digest that binds the fields to the attempt and its diagnostics. -/
def TerminalFields.resultDigest (fields : TerminalFields) : Digest :=
  Sha256.rawSha256 (canonicalEncoding (.obj [
    ("actionKey", digestValue fields.actionKey),
    ("executionKind", .str fields.executionKind.toText),
    ("status", .str fields.statusReason.val.1.toText),
    ("reasonCode", .str fields.statusReason.val.2.toText),
    ("boundAttemptDigest", digestValue fields.boundAttemptDigest),
    ("ownerTerminalReceiptDigest", digestValue fields.ownerTerminalReceiptDigest),
    ("diagnosticObjects", .arr (fields.diagnosticObjects.val.map fun object => .obj [
      ("objectDigest", digestValue object.receipt.val.objectDigest),
      ("readbackDigest", digestValue object.readback.readbackDigest)]))]))

structure VerificationActionTerminal extends TerminalFields where
  resultDigest : Digest
  inOrder : sortBy BoundedProcessDiagnosticPublishedObject.stream diagnosticObjects.val = diagnosticObjects.val
  admitted : diagnosticObjectsFailure? executionKind boundAttemptDigest diagnosticObjects.val = none
  binds : resultDigest = toTerminalFields.resultDigest
  deriving DecidableEq

def VerificationActionTerminal.members (terminal : VerificationActionTerminal) : List (Text × Value) := [
  ("actionKey", digestValue terminal.actionKey),
  ("boundAttemptDigest", digestValue terminal.boundAttemptDigest),
  ("diagnosticObjects",
    .arr (terminal.diagnosticObjects.val.map BoundedProcessDiagnosticPublishedObject.toValue)),
  ("executionKind", .str terminal.executionKind.toText),
  ("ownerTerminalReceiptDigest", digestValue terminal.ownerTerminalReceiptDigest),
  ("reasonCode", .str terminal.statusReason.val.2.toText),
  ("resultDigest", digestValue terminal.resultDigest),
  ("status", .str terminal.statusReason.val.1.toText)]

def VerificationActionTerminal.toValue (terminal : VerificationActionTerminal) : Value := .obj terminal.members

/-- `.sort((left, right) => left.receipt.stream.localeCompare(right.receipt.stream))`: the three streams compare as their
code units do. -/
def sortedByStream (objects : BoundedList BoundedProcessDiagnosticPublishedObject) :
    BoundedList BoundedProcessDiagnosticPublishedObject :=
  ⟨sortBy BoundedProcessDiagnosticPublishedObject.stream objects.val, (length_sortBy objects.val).le.trans objects.2⟩

/-- The end of `createVerificationActionTerminal`: the checks of the diagnostic objects and of the result digest. -/
def boundTerminal (value : List (Text × Value)) (fields : TerminalFields)
    (inOrder : sortBy BoundedProcessDiagnosticPublishedObject.stream fields.diagnosticObjects.val =
      fields.diagnosticObjects.val) : Except ActionFailure VerificationActionTerminal :=
  match h : diagnosticObjectsFailure? fields.executionKind fields.boundAttemptDigest fields.diagnosticObjects.val with
  | some failure => .error failure
  | none => do
      let resultDigest ← digest (member value "resultDigest") (Text.cat [terminalLabel, ".resultDigest"])
      if hdigest : resultDigest = fields.resultDigest then return ⟨fields, resultDigest, inOrder, h, hdigest⟩
      else refuse (Text.cat [terminalLabel, ".resultDigest"]) "does not bind the terminal attempt and diagnostics."

def terminalKeys : List Text :=
  ["actionKey", "executionKind", "status", "reasonCode", "boundAttemptDigest", "ownerTerminalReceiptDigest",
    "diagnosticObjects", "resultDigest"]

def createVerificationActionTerminal (input : Value) : Except ActionFailure VerificationActionTerminal := do
  let value ← ordinaryRecord input terminalLabel
  exactKeys value terminalKeys terminalLabel
  let statusReason ← assertCanonicalStatusReason (member value "status") (member value "reasonCode")
  let actionKey ← digest (member value "actionKey") (Text.cat [terminalLabel, ".actionKey"])
  let boundAttemptDigest ← digest (member value "boundAttemptDigest") (Text.cat [terminalLabel, ".boundAttemptDigest"])
  let ownerTerminalReceiptDigest ←
    digest (member value "ownerTerminalReceiptDigest") (Text.cat [terminalLabel, ".ownerTerminalReceiptDigest"])
  let items ← ordinaryArray (member value "diagnosticObjects") diagnosticObjectsLabel
  let objects ← items.mapIndexed fun index candidate =>
    canonicalDiagnosticObject candidate (indexed diagnosticObjectsLabel index)
  let executionKind ← terminalExecutionKind (member value "executionKind")
  boundTerminal value
    ⟨actionKey, executionKind, statusReason, boundAttemptDigest, ownerTerminalReceiptDigest, sortedByStream objects⟩
    (sortBy_sortBy objects.val)

end Terminals

end SecPlatform.VerificationAction
