import SecPlatform.Contracts.Canonical
import SecPlatform.Library.Except
import SecPlatform.Library.IsoDate

/-!
# The journal of the pipeline

One file holds the transactions of a workspace. `validateJournal` decides which values are a journal; the
operations of the API read the stored journal, change it, drop the oldest transactions and publish it again.
-/

namespace SecPlatform.Compilation

open Contracts

def MAX_RETAINED_TRANSACTIONS : Nat := 50
def PIPELINE_JOURNAL_FORMAT_VERSION : Text := "2"
def LEGACY_PIPELINE_JOURNAL_FORMAT_VERSION : Text := "1"
def PIPELINE_ADAPT_RETIREMENT_SCHEMA : Text := "sec-pipeline-adapt-retirement-v1"
def RETIRED_ADAPT_STAGE : Text := "adapt"
def PIPELINE_RETIREMENT_EVIDENCE_FILE_PREFIX : Text := "pipeline-journal-adapt-retirement-"
def REFERENCE_PIPELINE_TRANSACTION_ID : Text := "tx:reference-workspace"

/-! ## Names -/

inductive PassId where
  | parse | align | resolve | buildIr | compose | verify | repair | lock | emit
  deriving DecidableEq, Repr

def PassId.toText : PassId → Text
  | .parse => "parse"
  | .align => "align"
  | .resolve => "resolve"
  | .buildIr => "build-ir"
  | .compose => "compose"
  | .verify => "verify"
  | .repair => "repair"
  | .lock => "lock"
  | .emit => "emit"

inductive PipelineStageId where
  | resolve | semantic | compose | verify | lock | emit
  deriving DecidableEq, Repr

def PipelineStageId.toText : PipelineStageId → Text
  | .resolve => "resolve"
  | .semantic => "semantic"
  | .compose => "compose"
  | .verify => "verify"
  | .lock => "lock"
  | .emit => "emit"

inductive PipelineSource where
  | api | cli | reference | upgrade | repair | ci
  deriving DecidableEq, Repr

def PipelineSource.toText : PipelineSource → Text
  | .api => "api"
  | .cli => "cli"
  | .reference => "reference"
  | .upgrade => "upgrade"
  | .repair => "repair"
  | .ci => "ci"

inductive PipelineTransactionStatus where
  | running | succeeded | failed
  deriving DecidableEq, Repr

def PipelineTransactionStatus.toText : PipelineTransactionStatus → Text
  | .running => "running"
  | .succeeded => "succeeded"
  | .failed => "failed"

inductive PipelinePassStatus where
  | running | succeeded | failed | blocked | skipped
  deriving DecidableEq, Repr

def PipelinePassStatus.toText : PipelinePassStatus → Text
  | .running => "running"
  | .succeeded => "succeeded"
  | .failed => "failed"
  | .blocked => "blocked"
  | .skipped => "skipped"

def PIPELINE_PASSES : List PassId :=
  [.parse, .align, .resolve, .buildIr, .compose, .verify, .repair, .lock, .emit]
def PIPELINE_STAGES : List PipelineStageId := [.resolve, .semantic, .compose, .verify, .lock, .emit]
def PIPELINE_SOURCES : List PipelineSource := [.api, .cli, .reference, .upgrade, .repair, .ci]
def PIPELINE_TRANSACTION_STATUSES : List PipelineTransactionStatus := [.running, .succeeded, .failed]
def PIPELINE_PASS_STATUSES : List PipelinePassStatus := [.running, .succeeded, .failed, .blocked, .skipped]

def JOURNAL_KEYS : List Text :=
  ["formatVersion", "activeTransactionId", "lastCommittedTransactionId", "transactions", "retirements"]
def TRANSACTION_KEYS : List Text :=
  ["id", "source", "requestedStages", "status", "startedAt", "completedAt", "passRecords", "errorCode", "message"]
def PASS_RECORD_KEYS : List Text := ["passId", "status", "startedAt", "completedAt", "errorCode", "message"]
def RETIREMENT_KEYS : List Text := ["schema", "retiredStage", "legacyJournalBytesDigest", "evidenceFile"]

/-- The member of a set of names that a value is. -/
def named? {α : Type} (names : List α) (toText : α → Text) : Value → Option α
  | .str t => names.find? fun name => toText name = t
  | _ => none

/-! ## Records -/

/-- What a pass and a transaction both say of their time. -/
structure Lifetime where
  startedAt : Text
  completedAt : Option Text
  errorCode : Option Text
  message : Option Text
  deriving DecidableEq

structure PipelinePassRecord extends Lifetime where
  passId : PassId
  status : PipelinePassStatus
  deriving DecidableEq

structure PipelineTransactionRecord extends Lifetime where
  id : Text
  source : PipelineSource
  requestedStages : List PipelineStageId
  status : PipelineTransactionStatus
  passRecords : List PipelinePassRecord
  deriving DecidableEq

structure PipelineAdaptRetirementRecord where
  legacyJournalBytesDigest : Digest
  deriving DecidableEq

def PipelineAdaptRetirementRecord.evidenceFile (record : PipelineAdaptRetirementRecord) : Text :=
  Text.cat [PIPELINE_RETIREMENT_EVIDENCE_FILE_PREFIX, record.legacyJournalBytesDigest.val.drop 7, ".json"]

structure PipelineJournal where
  activeTransactionId : Option Text
  lastCommittedTransactionId : Option Text
  transactions : List PipelineTransactionRecord
  retirements : Option (List PipelineAdaptRetirementRecord)
  deriving DecidableEq

def emptyJournal : PipelineJournal := ⟨none, none, [], none⟩

/-! ### Records as values -/

/-- The members of an object whose optional fields are absent when they have no value. -/
def present (fields : List (Text × Option Value)) : List (Text × Value) :=
  fields.filterMap fun (key, value) => value.map fun v => (key, v)

def PipelinePassRecord.fields (r : PipelinePassRecord) : List (Text × Option Value) := [
  ("passId", some (.str r.passId.toText)),
  ("status", some (.str r.status.toText)),
  ("startedAt", some (.str r.startedAt)),
  ("completedAt", r.completedAt.map .str),
  ("errorCode", r.errorCode.map .str),
  ("message", r.message.map .str)]

def PipelinePassRecord.toValue (r : PipelinePassRecord) : Value := .obj (present r.fields)

def PipelineTransactionRecord.fields (r : PipelineTransactionRecord) : List (Text × Option Value) := [
  ("id", some (.str r.id)),
  ("source", some (.str r.source.toText)),
  ("requestedStages", some (.arr (r.requestedStages.map fun stage => .str stage.toText))),
  ("status", some (.str r.status.toText)),
  ("startedAt", some (.str r.startedAt)),
  ("completedAt", r.completedAt.map .str),
  ("passRecords", some (.arr (r.passRecords.map PipelinePassRecord.toValue))),
  ("errorCode", r.errorCode.map .str),
  ("message", r.message.map .str)]

def PipelineTransactionRecord.toValue (r : PipelineTransactionRecord) : Value := .obj (present r.fields)

def PipelineAdaptRetirementRecord.fields (r : PipelineAdaptRetirementRecord) : List (Text × Option Value) := [
  ("schema", some (.str PIPELINE_ADAPT_RETIREMENT_SCHEMA)),
  ("retiredStage", some (.str RETIRED_ADAPT_STAGE)),
  ("legacyJournalBytesDigest", some (.str r.legacyJournalBytesDigest.val)),
  ("evidenceFile", some (.str r.evidenceFile))]

def PipelineAdaptRetirementRecord.toValue (r : PipelineAdaptRetirementRecord) : Value := .obj (present r.fields)

def PipelineJournal.fields (journal : PipelineJournal) : List (Text × Option Value) := [
  ("formatVersion", some (.str PIPELINE_JOURNAL_FORMAT_VERSION)),
  ("activeTransactionId", journal.activeTransactionId.map .str),
  ("lastCommittedTransactionId", journal.lastCommittedTransactionId.map .str),
  ("transactions", some (.arr (journal.transactions.map PipelineTransactionRecord.toValue))),
  ("retirements", journal.retirements.map fun rs => .arr (rs.map PipelineAdaptRetirementRecord.toValue))]

def PipelineJournal.toValue (journal : PipelineJournal) : Value := .obj (present journal.fields)

/-! ## Validation -/

def orThrow {α : Type} (message : Text) : Option α → Except Text α
  | some a => .ok a
  | none => .error message

def membersOf? : Value → Option (List (Text × Value))
  | .obj members => some members
  | _ => none

def itemsOf? : Value → Option (List Value)
  | .arr items => some items
  | _ => none

def exactKeys (value : List (Text × Value)) (allowed : List Text) (label : Text) : Except Text Unit :=
  value.forM fun (key, _) =>
    require (key ∈ allowed) (Text.cat [label, " contains unsupported field \"", key, "\""])

/-- A text that is not empty, not longer than a bound and without a NUL. -/
def isBounded (maximum : Nat) (value : Text) : Bool := value ≠ [] && value.length ≤ maximum && (0 : CodeUnit) ∉ value

def boundedText? : Value → Option Text
  | .str t => if isBounded 4096 t then some t else none
  | _ => none

/-- A canonical timestamp of a year of four digits. -/
def isCanonicalTimestamp (value : Text) : Bool :=
  (IsoDate.takeDigits 4 value).isSome && (IsoDate.isoTime value).isSome

def canonicalTimestamp (value : Option Value) (label : Text) : Except Text Text :=
  match value with
  | some (.str t) =>
      if isCanonicalTimestamp t then .ok t else .error (label ++ " must be one canonical UTC timestamp")
  | _ => .error (label ++ " must be one canonical UTC timestamp")

def optionalTimestamp (value : Option Value) (label : Text) : Except Text (Option Text) :=
  match value with
  | none => .ok none
  | some value => (canonicalTimestamp (some value) label).map some

def optionalBoundedText (value : Option Value) (label : Text) (maximum : Nat) : Except Text (Option Text) :=
  match value with
  | none => .ok none
  | some (.str t) => if isBounded maximum t then .ok (some t) else .error (label ++ " is invalid")
  | some _ => .error (label ++ " is invalid")

/-- The lifetime of a record; `sep` stands between its label and the name of a field. -/
def readLifetime (members : List (Text × Value)) (label sep : Text) (running : Bool) : Except Text Lifetime := do
  let startedAt ← canonicalTimestamp (Json.get? "startedAt" members) (Text.cat [label, sep, "startedAt"])
  let completedAt ← optionalTimestamp (Json.get? "completedAt" members) (Text.cat [label, sep, "completedAt"])
  let errorCode ← optionalBoundedText (Json.get? "errorCode" members) (Text.cat [label, sep, "errorCode"]) 4096
  let message ← optionalBoundedText (Json.get? "message" members) (Text.cat [label, sep, "message"]) 16384
  require (¬(running ∧ (completedAt ≠ none ∨ errorCode ≠ none ∨ message ≠ none)))
    (label ++ " running state cannot contain terminal fields")
  require (¬(¬running ∧ completedAt = none)) (label ++ " terminal state requires completedAt")
  return ⟨startedAt, completedAt, errorCode, message⟩

def validatePassRecord (transactionId : Text) (value : Value) : Except Text PipelinePassRecord := do
  let label := Text.cat ["Pipeline journal transaction \"", transactionId, "\" pass record"]
  let members ← orThrow (label ++ " is malformed") (membersOf? value)
  exactKeys members PASS_RECORD_KEYS label
  let passId ← orThrow (label ++ " has an invalid pass identity")
    ((Json.get? "passId" members).bind (named? PIPELINE_PASSES PassId.toText))
  let status ← orThrow (label ++ " has an invalid status")
    ((Json.get? "status" members).bind (named? PIPELINE_PASS_STATUSES PipelinePassStatus.toText))
  let lifetime ← readLifetime members label "." (status = .running)
  return ⟨lifetime, passId, status⟩

/-- The checks of a transaction before its texts can be named. -/
def transactionHead (members : List (Text × Value)) :
    Option (Text × PipelineSource × PipelineTransactionStatus × List Value × List Value) := do
  let id ← (Json.get? "id" members).bind boundedText?
  let source ← (Json.get? "source" members).bind (named? PIPELINE_SOURCES PipelineSource.toText)
  let status ← (Json.get? "status" members).bind
    (named? PIPELINE_TRANSACTION_STATUSES PipelineTransactionStatus.toText)
  let requestedStages ← (Json.get? "requestedStages" members).bind itemsOf?
  let passRecords ← (Json.get? "passRecords" members).bind itemsOf?
  return (id, source, status, requestedStages, passRecords)

def validateTransaction (value : Value) : Except Text PipelineTransactionRecord := do
  let members ← orThrow "Pipeline journal contains a malformed transaction record" (membersOf? value)
  exactKeys members TRANSACTION_KEYS "Pipeline journal transaction"
  let (id, source, status, stages, passes) ← orThrow "Pipeline journal contains a malformed transaction record"
    (transactionHead members)
  let label := Text.cat ["Pipeline journal transaction \"", id, "\""]
  let requestedStages ← orThrow (label ++ " has invalid requested stages")
    (stages.mapM (named? PIPELINE_STAGES PipelineStageId.toText))
  require requestedStages.Nodup (label ++ " has invalid requested stages")
  let lifetime ← readLifetime members label " " (status = .running)
  require (passes.length ≤ 128) (label ++ " exceeds the pass-record bound")
  let passRecords ← passes.mapM (validatePassRecord id)
  return ⟨lifetime, id, source, requestedStages, status, passRecords⟩

def canonicalDigest (value : Option Value) (label : Text) : Except Text Digest :=
  match value with
  | some (.str t) =>
      if h : isDigest t then .ok ⟨t, h⟩ else .error (label ++ " must be one canonical SHA-256 digest")
  | _ => .error (label ++ " must be one canonical SHA-256 digest")

def validateRetirementRecord (value : Value) : Except Text PipelineAdaptRetirementRecord := do
  let members ← orThrow "Pipeline journal retirement record is malformed" (membersOf? value)
  exactKeys members RETIREMENT_KEYS "Pipeline journal retirement record"
  let digest ← canonicalDigest (Json.get? "legacyJournalBytesDigest" members)
    "Pipeline journal retirement legacyJournalBytesDigest"
  let record : PipelineAdaptRetirementRecord := ⟨digest⟩
  require (Json.get? "schema" members = some (.str PIPELINE_ADAPT_RETIREMENT_SCHEMA) ∧
      Json.get? "retiredStage" members = some (.str RETIRED_ADAPT_STAGE) ∧
      Json.get? "evidenceFile" members = some (.str record.evidenceFile))
    "Pipeline journal retirement record is not canonical"
  return record

/-- The latest transaction that succeeded. -/
def latestSucceeded (transactions : List PipelineTransactionRecord) : Option PipelineTransactionRecord :=
  transactions.reverse.find? fun transaction => transaction.status = .succeeded

/-- No id stands twice. -/
def checkUniqueIds (journalPath : Text) (transactions : List PipelineTransactionRecord) : Except Text Unit :=
  forUnique PipelineTransactionRecord.id (fun _ _ => .ok ())
    (fun transaction => Text.cat ["Pipeline journal repeats transaction id \"", transaction.id, "\" at ", journalPath])
    [] transactions

/-- An optional id of a transaction. -/
def optionalId (message : Text) : Option Value → Except Text (Option Text)
  | none => .ok none
  | some value => orThrow message ((boundedText? value).map some)

def validateRetirements (journalPath : Text) :
    Option Value → Except Text (Option (List PipelineAdaptRetirementRecord))
  | none => .ok none
  | some value => do
      let malformed := Text.cat ["Pipeline journal retirements are malformed at ", journalPath]
      let items ← orThrow malformed (itemsOf? value)
      require (items.length ≤ MAX_RETAINED_TRANSACTIONS) malformed
      let retirements ← items.mapM validateRetirementRecord
      require (retirements.map PipelineAdaptRetirementRecord.legacyJournalBytesDigest).Nodup
        (Text.cat ["Pipeline journal repeats a retirement source digest at ", journalPath])
      return some retirements

def validateJournal (journalPath : Text) (value : Value) : Except Text PipelineJournal := do
  let stale := Text.cat
    ["Pipeline journal is stale or malformed at ", journalPath, "; explicit recovery is required"]
  let members ← orThrow stale (membersOf? value)
  exactKeys members JOURNAL_KEYS "Pipeline journal"
  require (Json.get? "formatVersion" members = some (.str PIPELINE_JOURNAL_FORMAT_VERSION)) stale
  let items ← orThrow stale ((Json.get? "transactions" members).bind itemsOf?)
  require (items.length ≤ MAX_RETAINED_TRANSACTIONS) stale
  let transactions ← items.mapM validateTransaction
  checkUniqueIds journalPath transactions
  let activeTransactionId ← optionalId
    (Text.cat ["Pipeline journal active transaction id is invalid at ", journalPath])
    (Json.get? "activeTransactionId" members)
  -- at most one transaction is running, and it is the active one
  require (((transactions.filter fun transaction => transaction.status = .running).map
      PipelineTransactionRecord.id) = activeTransactionId.toList)
    (Text.cat ["Pipeline journal active transaction is inconsistent at ", journalPath])
  let lastCommittedTransactionId ← optionalId
    (Text.cat ["Pipeline journal last committed transaction id is invalid at ", journalPath])
    (Json.get? "lastCommittedTransactionId" members)
  require (lastCommittedTransactionId = (latestSucceeded transactions).map PipelineTransactionRecord.id)
    (Text.cat ["Pipeline journal last committed transaction is inconsistent at ", journalPath])
  let retirements ← validateRetirements journalPath (Json.get? "retirements" members)
  return ⟨activeTransactionId, lastCommittedTransactionId, transactions, retirements⟩

/-! ## Changes of a journal -/

/-- Changes the first element with a property. -/
def updateFirst {α : Type} (p : α → Bool) (f : α → α) : List α → List α
  | [] => []
  | x :: xs => if p x then f x :: xs else x :: updateFirst p f xs

def rebindLastCommittedTransaction (journal : PipelineJournal) : PipelineJournal :=
  { journal with lastCommittedTransactionId := (latestSucceeded journal.transactions).map PipelineTransactionRecord.id }

def retainJournalTransactions (journal : PipelineJournal) : PipelineJournal :=
  let transactions := journal.transactions
  if transactions.length ≤ MAX_RETAINED_TRANSACTIONS then journal
  else
    let committed := (journal.lastCommittedTransactionId.filter (· ≠ [])).bind fun id =>
      transactions.find? fun transaction => transaction.id = id
    let tail := transactions.drop (transactions.length - MAX_RETAINED_TRANSACTIONS)
    match committed with
    | none => { journal with transactions := tail }
    | some committed =>
        if tail.any fun transaction => transaction.id = committed.id then { journal with transactions := tail }
        else { journal with
          transactions := committed :: transactions.drop (transactions.length - (MAX_RETAINED_TRANSACTIONS - 1)) }

def missingTransaction (transactionId : Text) : Text :=
  Text.cat ["Pipeline transaction \"", transactionId, "\" is missing from the local journal"]

/-- `findTransaction`, and what the caller does to the transaction it found. -/
def updateTransaction (journal : PipelineJournal) (transactionId : Text)
    (change : PipelineTransactionRecord → Except Text PipelineTransactionRecord) : Except Text PipelineJournal := do
  let transaction ← orThrow (missingTransaction transactionId)
    (journal.transactions.find? fun entry => entry.id = transactionId)
  let changed ← change transaction
  return { journal with
    transactions := updateFirst (fun entry => entry.id = transactionId) (fun _ => changed) journal.transactions }

/-- `findRunningPass`, and what the caller does to the pass it found: the latest running one of its id. -/
def updateRunningPass (transaction : PipelineTransactionRecord) (passId : PassId)
    (change : PipelinePassRecord → PipelinePassRecord) : Except Text PipelineTransactionRecord := do
  let isRunning : PipelinePassRecord → Bool := fun entry => entry.passId = passId && entry.status = .running
  require (transaction.passRecords.any isRunning)
    (Text.cat ["Pipeline pass \"", passId.toText, "\" has no running record in transaction \"", transaction.id, "\""])
  return { transaction with passRecords := (updateFirst isRunning change transaction.passRecords.reverse).reverse }

def interruptedPass (completedAt : Text) (pass : PipelinePassRecord) : PipelinePassRecord :=
  if pass.status = .running then
    { pass with
      status := .failed
      completedAt := some completedAt
      errorCode := some "PIPELINE-INTERRUPTED-001"
      message := some "Pass execution was interrupted before completion" }
  else pass

def interruptedTransaction (completedAt : Text) (active : PipelineTransactionRecord) : PipelineTransactionRecord :=
  { active with
    status := .failed
    completedAt := some completedAt
    errorCode := some "PIPELINE-INTERRUPTED-001"
    message := some "Previous pipeline transaction did not complete before a new transaction started"
    passRecords := active.passRecords.map (interruptedPass completedAt) }

def interruptActiveTransaction (journal : PipelineJournal) (completedAt : Text) : PipelineJournal :=
  match journal.activeTransactionId.filter (· ≠ []) with
  | none => journal
  | some activeTransactionId =>
      match journal.transactions.find? fun entry => entry.id = activeTransactionId with
      | some active =>
          if active.status = .running then
            { journal with
              activeTransactionId := none
              transactions := updateFirst (fun entry => entry.id = activeTransactionId)
                (interruptedTransaction completedAt) journal.transactions }
          else { journal with activeTransactionId := none }
      | none => { journal with activeTransactionId := none }

/-! ## The operations -/

/-- A timestamp of `Date.prototype.toISOString`. -/
abbrev Timestamp := { value : Text // isCanonicalTimestamp value }

/-- A call of the API with what it takes from the clock and from the generator of ids. -/
inductive JournalCall where
  | start (source : PipelineSource) (requestedStages : List PipelineStageId) (uuid : Text) (now : Timestamp)
  | passStart (transactionId : Text) (passId : PassId) (now : Timestamp)
  | passBlocked (transactionId : Text) (passId : PassId) (errorCode message : Text) (now : Timestamp)
  | passSuccess (transactionId : Text) (passId : PassId) (now : Timestamp)
  | passFailure (transactionId : Text) (passId : PassId) (errorCode message : Text) (now : Timestamp)
  | commit (transactionId : Text) (now : Timestamp)
  | fail (transactionId : Text) (errorCode message : Text) (now : Timestamp)

def startedTransactionId (source : PipelineSource) (uuid : Text) : Text :=
  if source = .reference then REFERENCE_PIPELINE_TRANSACTION_ID else Text.ofString "tx:" ++ uuid

def startPipelineTransaction (source : PipelineSource) (requestedStages : List PipelineStageId) (uuid startedAt : Text)
    (journal : PipelineJournal) : PipelineJournal :=
  let transactionId := startedTransactionId source uuid
  let interrupted := interruptActiveTransaction journal startedAt
  let replaced :=
    if source = .reference then
      rebindLastCommittedTransaction { interrupted with
        transactions := interrupted.transactions.filter fun entry => entry.id ≠ transactionId }
    else interrupted
  { replaced with
    transactions := replaced.transactions ++
      [⟨⟨startedAt, none, none, none⟩, transactionId, source, requestedStages, .running, []⟩]
    activeTransactionId := some transactionId }

def recordPipelinePassStart (transactionId : Text) (passId : PassId) (startedAt : Text) (journal : PipelineJournal) :
    Except Text PipelineJournal :=
  updateTransaction journal transactionId fun transaction => .ok { transaction with
    passRecords := transaction.passRecords ++ [⟨⟨startedAt, none, none, none⟩, passId, .running⟩] }

def recordPipelinePassBlocked (transactionId : Text) (passId : PassId) (errorCode message timestamp : Text)
    (journal : PipelineJournal) : Except Text PipelineJournal :=
  updateTransaction journal transactionId fun transaction => .ok { transaction with
    passRecords := transaction.passRecords ++
      [⟨⟨timestamp, some timestamp, some errorCode, some message⟩, passId, .blocked⟩] }

def recordPipelinePassSuccess (transactionId : Text) (passId : PassId) (completedAt : Text)
    (journal : PipelineJournal) : Except Text PipelineJournal :=
  updateTransaction journal transactionId fun transaction =>
    updateRunningPass transaction passId fun record =>
      { record with status := .succeeded, completedAt := some completedAt }

def recordPipelinePassFailure (transactionId : Text) (passId : PassId) (errorCode message completedAt : Text)
    (journal : PipelineJournal) : Except Text PipelineJournal :=
  updateTransaction journal transactionId fun transaction =>
    updateRunningPass transaction passId fun record =>
      { record with
        status := .failed, completedAt := some completedAt, errorCode := some errorCode, message := some message }

/-- `if (journal.activeTransactionId === transactionId) delete journal.activeTransactionId`. -/
def releaseActive (transactionId : Text) (journal : PipelineJournal) : PipelineJournal :=
  if journal.activeTransactionId = some transactionId then { journal with activeTransactionId := none } else journal

def commitPipelineTransaction (transactionId completedAt : Text) (journal : PipelineJournal) :
    Except Text PipelineJournal := do
  let journal ← updateTransaction journal transactionId fun transaction =>
    .ok { transaction with status := .succeeded, completedAt := some completedAt }
  return releaseActive transactionId { journal with lastCommittedTransactionId := some transactionId }

def failPipelineTransaction (transactionId errorCode message completedAt : Text) (journal : PipelineJournal) :
    Except Text PipelineJournal := do
  let journal ← updateTransaction journal transactionId fun transaction =>
    .ok { transaction with
      status := .failed, completedAt := some completedAt, errorCode := some errorCode, message := some message }
  return releaseActive transactionId journal

/-- What a call does to the journal it has read. -/
def JournalCall.mutate : JournalCall → PipelineJournal → Except Text PipelineJournal
  | .start source requestedStages uuid now, journal =>
      .ok (startPipelineTransaction source requestedStages uuid now journal)
  | .passStart transactionId passId now, journal => recordPipelinePassStart transactionId passId now journal
  | .passBlocked transactionId passId errorCode message now, journal =>
      recordPipelinePassBlocked transactionId passId errorCode message now journal
  | .passSuccess transactionId passId now, journal => recordPipelinePassSuccess transactionId passId now journal
  | .passFailure transactionId passId errorCode message now, journal =>
      recordPipelinePassFailure transactionId passId errorCode message now journal
  | .commit transactionId now, journal => commitPipelineTransaction transactionId now journal
  | .fail transactionId errorCode message now, journal =>
      failPipelineTransaction transactionId errorCode message now journal

/-! ## The stored journal -/

/-- The path of the journal, and whether the evidence of a retirement is there and matches it. -/
structure JournalFiles where
  journalPath : Text
  retirementEvidence : PipelineAdaptRetirementRecord → Except Text Unit

section Files

variable (files : JournalFiles)

def validateRetirementEvidence (journal : PipelineJournal) : Except Text Unit :=
  (journal.retirements.getD []).forM files.retirementEvidence

def isLegacy : Value → Bool
  | .obj members => Json.get? "formatVersion" members = some (.str LEGACY_PIPELINE_JOURNAL_FORMAT_VERSION)
  | _ => false

def readJournal : Option Value → Except Text PipelineJournal
  | none => .ok emptyJournal
  | some raw => do
      require (¬isLegacy raw) (Text.cat
        ["Pipeline journal at ", files.journalPath, " requires owner-issued Adapt retirement migration"])
      let journal ← validateJournal files.journalPath raw
      validateRetirementEvidence files journal
      return journal

/-- What a call publishes: the journal it has read, changed, with its oldest transactions dropped, and validated. -/
def mutateJournal (call : JournalCall) (stored : Option Value) : Except Text Value := do
  let journal ← readJournal files stored
  let mutated ← call.mutate journal
  let validated ← validateJournal files.journalPath (retainJournalTransactions mutated).toValue
  return validated.toValue

/-- A call stores what it publishes, or it stops before and stores nothing. -/
inductive JournalStep : Option Value → JournalCall → Option Value → Prop
  | published {stored : Option Value} {call : JournalCall} {value : Value}
      (h : mutateJournal files call stored = .ok value) : JournalStep stored call (some value)
  | stopped {stored : Option Value} {call : JournalCall} : JournalStep stored call stored

end Files

end SecPlatform.Compilation
