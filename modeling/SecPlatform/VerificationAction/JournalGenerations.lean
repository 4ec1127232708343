import SecPlatform.VerificationAction.JournalRecords

/-!
# One generation of a journal

Beside the journal may stand what an earlier layout has left: the journal of that layout, the intent of its
migration, and a receipt that puts the Action in quarantine. One reading looks at all of them; what it says and
the text an append must extend come from the same reading.
-/

namespace SecPlatform.VerificationAction

open Contracts

/-! ## Retained texts -/

structure PhysicalIdentity where
  device : Text
  inode : Text
  deriving DecidableEq

structure RuntimeStateJournalRetainedText where
  text : Text
  physical : PhysicalIdentity
  deriving DecidableEq

def RuntimeStateJournalRetainedText.byteLength (retained : RuntimeStateJournalRetainedText) : Nat :=
  retained.text.utf8Length

/-- The files of an earlier layout; evidence is found under its logical path. -/
structure RetainedEvidence where
  quarantine : Option RuntimeStateJournalRetainedText
  intent : Option RuntimeStateJournalRetainedText
  legacy : Option RuntimeStateJournalRetainedText
  file : Text → Option RuntimeStateJournalRetainedText

/-- `observeJournalSource`: a read within the bytes; the deadline is with the file operations. -/
def observeJournalSource (file : Option RuntimeStateJournalRetainedText) :
    Except ActionFailure (Option RuntimeStateJournalRetainedText) := do
  require (file.all fun retained => retained.byteLength ≤ maximumBytes) (.read .maximumBytesExceeded)
  return file

def recoveryRequired (message : Text) : ActionFailure := journalFailure .recoveryRequired message

/-- `exactKeys` of the journal. -/
def exactRecordKeys (members : List (Text × Value)) (expected : List Text) : Except ActionFailure Unit :=
  let wanted := sortBy id expected
  require (sortBy id (members.map Prod.fst) = wanted)
    (corrupt (Text.cat ["event must contain exactly: ", Text.joinWith ", " wanted, "."]))

def recordMembers (value : Value) (failure : ActionFailure) : Except ActionFailure (List (Text × Value)) :=
  match value with
  | .obj members => .ok members
  | _ => .error failure

def stringMember (members : List (Text × Value)) (key : Text) (failure : ActionFailure) : Except ActionFailure Text :=
  match member members key with
  | .str t => .ok t
  | _ => .error failure

def nonnegativeSafeInteger (value : Value) (failure : ActionFailure) : Except ActionFailure SafeNat :=
  match safeNat? value with
  | some n => .ok n
  | none => .error failure

/-! ## Quarantine -/

/-- `String.prototype.localeCompare`. -/
class LocaleText where
  localeCompare : Text → Text → Ordering

structure VerificationActionLegacyQuarantineEvidence where
  path : Text
  physical : PhysicalIdentity
  ledgerDigest : Option VerificationActionKeyDigest
  byteLength : SafeNat
  deriving DecidableEq

def PhysicalIdentity.toValue (physical : PhysicalIdentity) : Value :=
  .obj [("device", .str physical.device), ("inode", .str physical.inode)]

def VerificationActionLegacyQuarantineEvidence.toValue (evidence : VerificationActionLegacyQuarantineEvidence) : Value :=
  .obj [
    ("path", .str evidence.path),
    ("physical", evidence.physical.toValue),
    ("ledgerDigest", nullable digestValue evidence.ledgerDigest),
    ("byteLength", natValue evidence.byteLength)]

def legacyQuarantineKeys : List Text :=
  ["schema", "actionKey", "action", "classification", "sourceEvidence", "reuseDisposition", "executionDisposition",
    "legacyEvidenceDisposition", "receiptDigest"]

def legacyTerminalMissing : Text := "legacy-terminal-missing-bound-attempt-and-owner-terminal-receipt"

def legacyContractRetired : Text := "legacy-action-contract-retired-unusable"

def assertCanonicalEvidenceEntry (previous : Option VerificationActionLegacyQuarantineEvidence)
    (entry : VerificationActionLegacyQuarantineEvidence) : Except ActionFailure Unit := do
  let normalized := entry.path.map fun c => if c = unit '\\' then unit '/' else c
  require (entry.path = normalized ∧ ¬posixIsAbsolute normalized ∧ normalized ≠ [] ∧
      ∀ segment ∈ Text.splitAt (unit '/') normalized,
        segment ≠ [] ∧ segment ≠ Text.ofString "." ∧ segment ≠ Text.ofString "..")
    (corrupt "legacy quarantine evidence path is noncanonical.")
  require (previous.all fun previous => previous.path ≠ entry.path)
    (corrupt "legacy quarantine evidence paths are not unique.")
  require (entry.physical.device ≠ [] ∧ entry.physical.inode ≠ [])
    (corrupt "legacy quarantine evidence physical identity is invalid.")

/-- The loop over the sorted evidence, each entry with the one before it. -/
def assertCanonicalEvidence (previous : Option VerificationActionLegacyQuarantineEvidence) :
    List VerificationActionLegacyQuarantineEvidence → Except ActionFailure Unit
  | [] => .ok ()
  | entry :: rest => do
      assertCanonicalEvidenceEntry previous entry
      assertCanonicalEvidence (some entry) rest

def canonicalQuarantineEvidence [LocaleText] (evidence : List VerificationActionLegacyQuarantineEvidence) :
    Except ActionFailure (List VerificationActionLegacyQuarantineEvidence) := do
  let sorted := evidence.mergeSort fun left right => LocaleText.localeCompare left.path right.path ≠ .gt
  require (sorted ≠ []) (corrupt "legacy quarantine requires source evidence.")
  assertCanonicalEvidence none sorted
  return sorted

def parseQuarantineEvidence (candidate : Value) : Except ActionFailure VerificationActionLegacyQuarantineEvidence := do
  let record ← recordMembers candidate (corrupt "legacy quarantine evidence must be an object.")
  exactRecordKeys record ["path", "physical", "ledgerDigest", "byteLength"]
  let path ← stringMember record "path" (corrupt "legacy quarantine evidence path is invalid.")
  let invalid := corrupt "legacy quarantine evidence physical identity is invalid."
  let physical ← recordMembers (member record "physical") invalid
  exactRecordKeys physical ["device", "inode"]
  let device ← stringMember physical "device" invalid
  let inode ← stringMember physical "inode" invalid
  let ledgerDigest ← assertDigest (member record "ledgerDigest") "legacy quarantine evidence ledgerDigest"
  let byteLength ← nonnegativeSafeInteger (member record "byteLength")
    (corrupt "legacy quarantine evidence byteLength is invalid.")
  return ⟨path, ⟨device, inode⟩, ledgerDigest, byteLength⟩

def evidenceItems (value : Value) : Except ActionFailure (List Value) :=
  match value with
  | .arr items => .ok items
  | _ => failJournal "legacy quarantine sourceEvidence is invalid."

section Generations

variable [Sha256] [LocaleText]

structure VerificationActionLegacyQuarantineReceipt where
  action : Option VerificationActionKey
  classification : Text
  sourceEvidence : List VerificationActionLegacyQuarantineEvidence

/-- The receipt without its digest. -/
def VerificationActionLegacyQuarantineReceipt.members (receipt : VerificationActionLegacyQuarantineReceipt)
    (actionKey : VerificationActionKeyDigest) : List (Text × Value) := [
  ("schema", .str (Text.ofString "sec-verification-action-legacy-terminal-quarantine")),
  ("actionKey", digestValue actionKey),
  ("action", nullable VerificationActionKey.toValue receipt.action),
  ("classification", .str receipt.classification),
  ("sourceEvidence", .arr (receipt.sourceEvidence.map VerificationActionLegacyQuarantineEvidence.toValue)),
  ("reuseDisposition", .str (Text.ofString "forbidden")),
  ("executionDisposition", .str (Text.ofString "same-action-key-forbidden")),
  ("legacyEvidenceDisposition", .str (Text.ofString "retained-until-owner-authorized-retirement"))]

/-- `value.action === null ? null : parseVerificationActionKey(encodeVerificationActionData(value.action))`. -/
def nullableAction (value : Value) : Except ActionFailure (Option VerificationActionKey) :=
  match value with
  | .null => .ok none
  | value => (reparseAction value).map some

def quarantineClassification (value : Value) : Except ActionFailure Text :=
  if value = .str legacyTerminalMissing then .ok legacyTerminalMissing
  else if value = .str legacyContractRetired then .ok legacyContractRetired
  else failJournal "legacy quarantine receipt classification is invalid."

def parseLegacyQuarantineReceipt (source : Text) (expectedActionKey : VerificationActionKeyDigest) :
    Except ActionFailure VerificationActionLegacyQuarantineReceipt := do
  let parsed ←
    parseCanonicalJournalDocument source "VerificationAction legacy quarantine receipt" legacyQuarantineKeys
  let value ← recordMembers parsed (corrupt "legacy quarantine receipt must be an object.")
  let classification ← quarantineClassification (member value "classification")
  require (member value "schema" = .str (Text.ofString "sec-verification-action-legacy-terminal-quarantine") ∧
      member value "actionKey" = digestValue expectedActionKey ∧
      member value "reuseDisposition" = .str (Text.ofString "forbidden") ∧
      member value "executionDisposition" = .str (Text.ofString "same-action-key-forbidden") ∧
      member value "legacyEvidenceDisposition" = .str (Text.ofString "retained-until-owner-authorized-retirement"))
    (corrupt "legacy quarantine receipt identity is invalid.")
  let action ← nullableAction (member value "action")
  require (classification = legacyContractRetired ↔ action = none)
    (corrupt "legacy quarantine classification does not match its action projection.")
  require (action.all fun action => action.actionKey = expectedActionKey)
    (corrupt "legacy quarantine action identity mismatch.")
  let items ← evidenceItems (member value "sourceEvidence")
  let parsedEvidence ← items.mapM parseQuarantineEvidence
  let sourceEvidence ← canonicalQuarantineEvidence parsedEvidence
  require (sourceEvidence.map (fun entry => entry.path) = parsedEvidence.map fun entry => entry.path)
    (corrupt "legacy quarantine evidence order is noncanonical.")
  let receipt : VerificationActionLegacyQuarantineReceipt := ⟨action, classification, sourceEvidence⟩
  let receiptDigest ← assertDigest (member value "receiptDigest") "legacy quarantine receiptDigest"
  require (receiptDigest = some (Sha256.rawSha256 (encodeCanonical (.obj (receipt.members expectedActionKey)))))
    (corrupt "legacy quarantine receipt digest mismatch.")
  return receipt

/-- The logical path of the journal of an Action. -/
def machinePath (actionKey : VerificationActionKeyDigest) : Text :=
  Text.cat ["verification-actions/terminal-bound/", actionKey.val.drop 7, ".jsonl"]

variable (evidence : RetainedEvidence) (actionKey : VerificationActionKeyDigest)

/-- The entry says of a file what is there. -/
def EvidenceHolds (entry : VerificationActionLegacyQuarantineEvidence) (file : Option RuntimeStateJournalRetainedText) :
    Prop :=
  ∃ retained ∈ file, retained.physical = entry.physical ∧ retained.byteLength = entry.byteLength.val ∧
    entry.ledgerDigest = some (Sha256.rawSha256 retained.text)

instance (entry : VerificationActionLegacyQuarantineEvidence) (file : Option RuntimeStateJournalRetainedText) :
    Decidable (EvidenceHolds entry file) := by
  unfold EvidenceHolds
  cases file <;> simp only [Option.mem_def, reduceCtorEq, Option.some.injEq, false_and, exists_false, exists_eq_left'] <;>
    infer_instance

/-- The file at a logical path; the journal itself is one of them. -/
def evidenceFile (source : Option RuntimeStateJournalRetainedText) (path : Text) :
    Option RuntimeStateJournalRetainedText :=
  if path = machinePath actionKey then source else evidence.file path

def verifyLegacyQuarantineEvidence (source : Option RuntimeStateJournalRetainedText)
    (receipt : VerificationActionLegacyQuarantineReceipt) : Except ActionFailure Unit :=
  receipt.sourceEvidence.forM fun entry => do
    let observed ← observeJournalSource (evidenceFile evidence actionKey source entry.path)
    require (EvidenceHolds entry observed)
      (recoveryRequired "legacy quarantine source evidence changed before owner-authorized retirement.")

def assertQuarantineDominatesRetainedJournal (receipt : VerificationActionLegacyQuarantineReceipt)
    (retained : RuntimeStateJournalRetainedText) : Except ActionFailure Unit := do
  require ((receipt.sourceEvidence.find? fun entry => entry.path = machinePath actionKey).any fun entry =>
      EvidenceHolds entry (some retained))
    (recoveryRequired "legacy quarantine does not bind the retained machine journal.")
  let readback ← parseJournalSource actionKey (some retained.text)
  require (readback.action.isSome ∧
      readback.action.map (fun action => action.actionKey) = receipt.action.map fun action => action.actionKey)
    (recoveryRequired "retained machine journal is not exact Action evidence for the quarantine.")

/-! ## Cutover -/

structure VerificationActionJournalCutoverIntent where
  phase : Value
  actionKey : Option VerificationActionKeyDigest
  sourcePhysical : PhysicalIdentity
  sourceLedgerDigest : Option VerificationActionKeyDigest
  sourceByteLength : SafeNat
  targetPhysical : Option PhysicalIdentity
  targetLedgerDigest : Option VerificationActionKeyDigest
  targetByteLength : SafeNat
  eventCount : SafeNat

def cutoverIntentSchema : Text := "sec-verification-action-journal-cutover-intent"

def cutoverIntentKeys : List Text :=
  ["schema", "phase", "actionKey", "sourcePhysical", "sourceLedgerDigest", "sourceByteLength", "targetPhysical",
    "targetLedgerDigest", "targetByteLength", "eventCount", "intentDigest"]

def VerificationActionJournalCutoverIntent.members (intent : VerificationActionJournalCutoverIntent) :
    List (Text × Value) := [
  ("schema", .str cutoverIntentSchema),
  ("phase", intent.phase),
  ("actionKey", nullable digestValue intent.actionKey),
  ("sourcePhysical", intent.sourcePhysical.toValue),
  ("sourceLedgerDigest", nullable digestValue intent.sourceLedgerDigest),
  ("sourceByteLength", natValue intent.sourceByteLength),
  ("targetPhysical", nullable PhysicalIdentity.toValue intent.targetPhysical),
  ("targetLedgerDigest", nullable digestValue intent.targetLedgerDigest),
  ("targetByteLength", natValue intent.targetByteLength),
  ("eventCount", natValue intent.eventCount)]

def cutoverPhysical (value : Value) (label : Text) : Except ActionFailure PhysicalIdentity := do
  let invalid := corrupt (Text.cat [label, " is invalid."])
  let record ← recordMembers value invalid
  exactRecordKeys record ["device", "inode"]
  let device ← stringMember record "device" invalid
  let inode ← stringMember record "inode" invalid
  require (device ≠ [] ∧ inode ≠ []) invalid
  return ⟨device, inode⟩

def nullablePhysical (value : Value) (label : Text) : Except ActionFailure (Option PhysicalIdentity) :=
  match value with
  | .null => .ok none
  | value => (cutoverPhysical value label).map some

def cutoverCount (value : List (Text × Value)) (label : Text) : Except ActionFailure SafeNat :=
  nonnegativeSafeInteger (member value label) (corrupt (Text.cat ["cutover ", label, " is invalid."]))

def parseCutoverIntent (source : Text) : Except ActionFailure VerificationActionJournalCutoverIntent := do
  let candidate ← parseCanonicalJournalDocument source "VerificationAction journal cutover intent" cutoverIntentKeys
  let value ← recordMembers candidate (corrupt "cutover intent must be an object.")
  let phase := member value "phase"
  require (member value "schema" = .str cutoverIntentSchema ∧
      (jsString phase = Text.ofString "prepared" ∨ jsString phase = Text.ofString "complete"))
    (corrupt "cutover intent identity is invalid.")
  let actionKey ← assertDigest (member value "actionKey") "cutover actionKey"
  let sourcePhysical ← cutoverPhysical (member value "sourcePhysical") "cutover sourcePhysical"
  let sourceLedgerDigest ← assertDigest (member value "sourceLedgerDigest") "cutover sourceLedgerDigest"
  let targetPhysical ← nullablePhysical (member value "targetPhysical") "cutover targetPhysical"
  let targetLedgerDigest ← assertDigest (member value "targetLedgerDigest") "cutover targetLedgerDigest"
  let sourceByteLength ← cutoverCount value "sourceByteLength"
  let targetByteLength ← cutoverCount value "targetByteLength"
  let eventCount ← cutoverCount value "eventCount"
  require (phase = .str (Text.ofString "prepared") ↔ targetPhysical = none)
    (corrupt "cutover phase and target physical identity disagree.")
  let intent : VerificationActionJournalCutoverIntent := ⟨phase, actionKey, sourcePhysical, sourceLedgerDigest,
    sourceByteLength, targetPhysical, targetLedgerDigest, targetByteLength, eventCount⟩
  let intentDigest ← assertDigest (member value "intentDigest") "cutover intentDigest"
  let expected := Sha256.rawSha256 (encodeCanonical (.obj intent.members))
  require (intentDigest = some expected) (corrupt (Text.cat ["cutover intent digest mismatch (",
    (intentDigest.map Subtype.val).getD "null", " != ", expected.val, ")."]))
  return intent

def exactLegacyObservation (input : RuntimeStateJournalRetainedText) (intent : VerificationActionJournalCutoverIntent) :
    Except ActionFailure Unit :=
  require (input.physical = intent.sourcePhysical ∧ input.byteLength = intent.sourceByteLength.val ∧
      intent.sourceLedgerDigest = some (Sha256.rawSha256 input.text))
    (corrupt "legacy source changed after cutover admission.")

def exactTargetObservation (input : RuntimeStateJournalRetainedText) (intent : VerificationActionJournalCutoverIntent) :
    Except ActionFailure Unit :=
  require (intent.targetPhysical = some input.physical ∧ input.byteLength = intent.targetByteLength.val ∧
      intent.targetLedgerDigest = some (Sha256.rawSha256 input.text))
    (corrupt "cutover target changed after publication.")

/-- What an intent and a journal of the earlier layout demand of the journal. -/
def assertCutover (intentSource : Option RuntimeStateJournalRetainedText) (source : RuntimeStateJournalRetainedText) :
    Except ActionFailure Unit := do
  match intentSource with
  | some intentSource =>
      let intent ← parseCutoverIntent intentSource.text
      require (intent.phase = .str (Text.ofString "complete") ∧ intent.actionKey = some actionKey)
        (corrupt "cutover is incomplete.")
      let legacySource ← observeJournalSource evidence.legacy
      match legacySource with
      | some legacySource =>
          exactLegacyObservation legacySource intent
          exactTargetObservation source intent
      | none =>
          failJournal "cutover source evidence is absent; canonical target is preserved but not authoritative."
  | none =>
      let legacySource ← observeJournalSource evidence.legacy
      require (legacySource = none)
        (recoveryRequired "canonical target conflicts with unmigrated legacy Action evidence.")

/-! ## Reading -/

/-- What is read, and the text an append must extend. -/
structure JournalGeneration where
  readback : VerificationActionJournalReadback
  source : Option Text
  deriving DecidableEq

def quarantinedGeneration (quarantine : RuntimeStateJournalRetainedText)
    (source : Option RuntimeStateJournalRetainedText) : Except ActionFailure JournalGeneration := do
  let receipt ← parseLegacyQuarantineReceipt quarantine.text actionKey
  verifyLegacyQuarantineEvidence evidence actionKey source receipt
  match source with
  | some retained => assertQuarantineDominatesRetainedJournal actionKey receipt retained
  | none => .ok ()
  return ⟨⟨receipt.action, [], none, none, some (.obj (receipt.members actionKey))⟩, none⟩

def absentGeneration (intentSource : Option RuntimeStateJournalRetainedText) :
    Except ActionFailure JournalGeneration := do
  require (intentSource = none) (corrupt "cutover intent exists without a canonical target.")
  let legacySource ← observeJournalSource evidence.legacy
  require (legacySource = none)
    (recoveryRequired "legacy Action evidence requires explicit recovery before admission.")
  return ⟨emptyReadback, none⟩

def presentGeneration (intentSource : Option RuntimeStateJournalRetainedText) (source : RuntimeStateJournalRetainedText) :
    Except ActionFailure JournalGeneration := do
  assertCutover evidence actionKey intentSource source
  let readback ← parseJournalSource actionKey (some source.text)
  return ⟨readback, some source.text⟩

/-- `readVerificationActionJournalGeneration` of the files as they are. -/
def readVerificationActionJournalGeneration (file : Option RuntimeStateJournalRetainedText) :
    Except ActionFailure JournalGeneration := do
  let quarantineSource ← observeJournalSource evidence.quarantine
  let source ← observeJournalSource file
  match quarantineSource with
  | some quarantine => quarantinedGeneration evidence actionKey quarantine source
  | none => do
      let intentSource ← observeJournalSource evidence.intent
      match source with
      | none => absentGeneration evidence intentSource
      | some source => presentGeneration evidence actionKey intentSource source

end Generations

end SecPlatform.VerificationAction
