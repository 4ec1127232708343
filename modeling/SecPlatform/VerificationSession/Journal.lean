import SecPlatform.Contracts.Canonical
import SecPlatform.Library.Except
import SecPlatform.Library.Interleaving
import SecPlatform.Library.IsoDate

/-!
# The journal of a verification session

One text, one event on each line. Every event names its place, its predecessor's digest and the stage it is
about; `readVerificationSessionJournal` accepts the text only as a whole. An append reads and validates the
journal, looks at the file a second time and extends the text it then sees.
-/

namespace SecPlatform.VerificationSession

open Contracts

def verificationSessionJournalEventSchema : Text := "sec-verification-session-journal-event-v1"

/-! ## Stages -/

inductive VerificationSessionStage where
  | frozen
  | actionsTerminal
  | preGateReviewClear
  | hostedVerificationTerminal
  | preMergeReviewClear
  | authorized
  | mergeAttempted
  | mergeReadback
  | treeParity
  | closeoutTerminal
  deriving DecidableEq, Repr

def VerificationSessionStage.text : VerificationSessionStage → Text
  | .frozen => "frozen"
  | .actionsTerminal => "actions-terminal"
  | .preGateReviewClear => "pre-gate-review-clear"
  | .hostedVerificationTerminal => "hosted-verification-terminal"
  | .preMergeReviewClear => "pre-merge-review-clear"
  | .authorized => "authorized"
  | .mergeAttempted => "merge-attempted"
  | .mergeReadback => "merge-readback"
  | .treeParity => "tree-parity"
  | .closeoutTerminal => "closeout-terminal"

/-- `VERIFICATION_SESSION_STAGES`. -/
def verificationSessionStages : List VerificationSessionStage :=
  [.frozen, .actionsTerminal, .preGateReviewClear, .hostedVerificationTerminal, .preMergeReviewClear, .authorized,
    .mergeAttempted, .mergeReadback, .treeParity, .closeoutTerminal]

/-- `VERIFICATION_SESSION_STAGES.indexOf(stage)`. -/
def VerificationSessionStage.index (stage : VerificationSessionStage) : Int := verificationSessionStages.idxOf stage

inductive VerificationSessionJournalEventKind where
  | completed
  | waiting
  | failed
  | observation
  deriving DecidableEq, Repr

def VerificationSessionJournalEventKind.text : VerificationSessionJournalEventKind → Text
  | .completed => "completed"
  | .waiting => "waiting"
  | .failed => "failed"
  | .observation => "observation"

/-! ## Events -/

structure UnsignedEvent where
  sequence : Nat
  sessionRevision : Digest
  targetStage : VerificationSessionStage
  kind : VerificationSessionJournalEventKind
  operationId : Option Digest
  receiptDigest : Option Digest
  recordedAt : Text
  note : Option Text
  previousDigest : Option Digest
  deriving DecidableEq

structure VerificationSessionJournalEvent extends UnsignedEvent where
  eventDigest : Digest
  deriving DecidableEq

def nullableText : Option Text → Value
  | none => .null
  | some t => .str t

def nullableDigest : Option Digest → Value
  | none => .null
  | some d => .str d.val

/-- The members in the order in which the record is written down. -/
def UnsignedEvent.members (event : UnsignedEvent) : List (Text × Value) := [
  ("schema", .str verificationSessionJournalEventSchema),
  ("sequence", .num (.ofNat event.sequence)),
  ("sessionRevision", .str event.sessionRevision.val),
  ("targetStage", .str event.targetStage.text),
  ("kind", .str event.kind.text),
  ("operationId", nullableDigest event.operationId),
  ("receiptDigest", nullableDigest event.receiptDigest),
  ("recordedAt", .str event.recordedAt),
  ("note", nullableText event.note),
  ("previousDigest", nullableDigest event.previousDigest)]

def VerificationSessionJournalEvent.toValue (event : VerificationSessionJournalEvent) : Value :=
  .obj (event.toUnsignedEvent.members ++ [(Text.ofString "eventDigest", .str event.eventDigest.val)])

/-! ## Checks -/

/-- What reading and appending throw: an error of the journal, or one of the file system. -/
inductive SessionJournalFailure where
  | error (message : Text)
  | fileSystem
  deriving DecidableEq

def error {α : Type} (message : List Text) : Except SessionJournalFailure α := .error (.error (Text.cat message))

def assertDigest (value : Option Value) (label : Text) : Except SessionJournalFailure (Option Digest) :=
  match value with
  | some .null => .ok none
  | some (.str t) =>
      if h : isDigest t then .ok (some ⟨t, h⟩) else error [label, " must be null or a SHA-256 digest."]
  | _ => error [label, " must be null or a SHA-256 digest."]

def assertIso (value : Option Value) (label : Text) : Except SessionJournalFailure Text :=
  match value with
  | some (.str t) =>
      if IsoDate.isTimestampText t then .ok t else error [label, " must be an ISO-8601 UTC timestamp."]
  | _ => error [label, " must be an ISO-8601 UTC timestamp."]

/-- `/[\u0000-\u0008\u000b\u000c\u000e-\u001f]/u`. -/
def isNoteControl (c : CodeUnit) : Bool := c ≤ 0x8 || c = 0xB || c = 0xC || (0xE ≤ c && c ≤ 0x1F)

def assertNote (value : Option Value) : Except SessionJournalFailure (Option Text) :=
  match value with
  | some .null => .ok none
  | some (.str t) =>
      if 2048 < t.length || t.any isNoteControl then
        error ["Session journal note must be null or bounded text."]
      else .ok (some t)
  | _ => error ["Session journal note must be null or bounded text."]

def assertStage (value : Option Value) : Except SessionJournalFailure VerificationSessionStage :=
  match verificationSessionStages.find? fun stage => value = some (.str stage.text) with
  | some stage => .ok stage
  | none => error ["Session journal targetStage is invalid."]

def assertKind (value : Option Value) : Except SessionJournalFailure VerificationSessionJournalEventKind :=
  match [VerificationSessionJournalEventKind.completed, .waiting, .failed, .observation].find? fun kind =>
    value = some (.str kind.text) with
  | some kind => .ok kind
  | none => error ["Session journal event kind is invalid."]

def exactKeys (members : List (Text × Value)) (expected : List Text) (label : Text) :
    Except SessionJournalFailure Unit :=
  let wanted := sortBy id expected
  if sortBy id (members.map Prod.fst) = wanted then .ok ()
  else error [label, " must contain exactly: ", Text.joinWith ", " wanted, "."]

/-- `Session journal event ${sequence}`. -/
def eventLabel (sequence : Nat) : Text := Text.cat ["Session journal event ", Text.ofNat sequence]

def eventKeys : List Text :=
  ["schema", "sequence", "sessionRevision", "targetStage", "kind", "operationId", "receiptDigest", "recordedAt", "note",
    "previousDigest", "eventDigest"]

/-- The position of the target stage against the last completed one. -/
def assertTarget (sequence : Nat) (targetStage : VerificationSessionStage) (kind : VerificationSessionJournalEventKind)
    (completedStageIndex : Int) : Except SessionJournalFailure Unit :=
  if completedStageIndex + 1 < targetStage.index then error [eventLabel sequence, " skips a required stage."]
  else if kind = .completed ∧ targetStage.index ≠ completedStageIndex + 1 then
    error [eventLabel sequence, " cannot complete an old or non-adjacent stage."]
  else if kind ≠ .completed ∧ targetStage.index < max 0 completedStageIndex then
    error [eventLabel sequence, " targets a superseded stage."]
  else .ok ()

section Events

variable [Sha256]

/-- `digest`: the hash of the text of a record as it was written down. -/
def UnsignedEvent.digest (event : UnsignedEvent) : Digest := Sha256.rawSha256 (Json.render (.obj event.members : Value))

/-- `assertDigest` of a field of an event. -/
def digestField (members : List (Text × Value)) (sequence : Nat) (key : Text) :
    Except SessionJournalFailure (Option Digest) :=
  assertDigest (Json.get? key members) (Text.cat ["event ", Text.ofNat sequence, " ", key])

/-- `parseEvent` behind the check that the candidate is an object. -/
def parseEventMembers (members : List (Text × Value)) (sessionRevision : Digest) (sequence : Nat)
    (previous : Option VerificationSessionJournalEvent) (completedStageIndex : Int) :
    Except SessionJournalFailure VerificationSessionJournalEvent := do
  let label := eventLabel sequence
  exactKeys members eventKeys label
  require (Json.get? "schema" members = some (.str verificationSessionJournalEventSchema))
    (.error (Text.cat [label, " schema mismatch."]))
  require (Json.get? "sequence" members = some (.num (.ofNat sequence)))
    (.error (Text.cat [label, " sequence mismatch."]))
  require (Json.get? "sessionRevision" members = some (.str sessionRevision.val))
    (.error (Text.cat [label, " session mismatch."]))
  let targetStage ← assertStage (Json.get? "targetStage" members)
  let kind ← assertKind (Json.get? "kind" members)
  assertTarget sequence targetStage kind completedStageIndex
  let previousDigest ← digestField members sequence "previousDigest"
  require (previousDigest = previous.map VerificationSessionJournalEvent.eventDigest)
    (.error (Text.cat [label, " previousDigest mismatch."]))
  let operationId ← digestField members sequence "operationId"
  let receiptDigest ← digestField members sequence "receiptDigest"
  let recordedAt ← assertIso (Json.get? "recordedAt" members) (Text.cat ["event ", Text.ofNat sequence, " recordedAt"])
  let note ← assertNote (Json.get? "note" members)
  let withoutDigest : UnsignedEvent :=
    ⟨sequence, sessionRevision, targetStage, kind, operationId, receiptDigest, recordedAt, note, previousDigest⟩
  require (Json.get? "eventDigest" members = some (.str withoutDigest.digest.val))
    (.error (Text.cat [label, " digest mismatch."]))
  return ⟨withoutDigest, withoutDigest.digest⟩

def parseEvent (candidate : Value) (sessionRevision : Digest) (sequence : Nat)
    (previous : Option VerificationSessionJournalEvent) (completedStageIndex : Int) :
    Except SessionJournalFailure VerificationSessionJournalEvent :=
  match candidate with
  | .obj members => parseEventMembers members sessionRevision sequence previous completedStageIndex
  | _ => error [eventLabel sequence, " must be an object."]

end Events

/-! ## Reading -/

/-- The variables of the reading loop. -/
structure Reading where
  events : List VerificationSessionJournalEvent
  previous : Option VerificationSessionJournalEvent
  completedStageIndex : Int
  deriving DecidableEq

def Reading.initial : Reading := ⟨[], none, -1⟩

/-- `VerificationSessionJournalReadback`. -/
structure VerificationSessionJournalReadback where
  events : List VerificationSessionJournalEvent
  completedStage : Option VerificationSessionStage
  completedStageIndex : Int
  latestEvent : Option VerificationSessionJournalEvent
  deriving DecidableEq

def Reading.readback (reading : Reading) : VerificationSessionJournalReadback := {
  events := reading.events
  completedStage :=
    if reading.completedStageIndex < 0 then none else verificationSessionStages[reading.completedStageIndex.toNat]?
  completedStageIndex := reading.completedStageIndex
  latestEvent := reading.previous }

def lineBreak : CodeUnit := unit '\n'

/-- `JSON.parse` of a line. -/
def parseLine (line : Text) (sequence : Nat) : Except SessionJournalFailure Value :=
  match Json.parse line with
  | some candidate => .ok candidate
  | none => error ["VerificationSession journal event ", Text.ofNat sequence, " is invalid JSON."]

section Journals

variable [Sha256] (sessionRevision : Digest)

/-- One turn of the reading loop; the index of a line is the number of events before it. -/
def readLine (reading : Reading) (line : Text) : Except SessionJournalFailure Reading := do
  let candidate ← parseLine line (reading.events.length + 1)
  let event ← parseEvent candidate sessionRevision (reading.events.length + 1) reading.previous reading.completedStageIndex
  return {
    events := reading.events ++ [event]
    previous := some event
    completedStageIndex :=
      if event.kind = .completed then reading.completedStageIndex + 1 else reading.completedStageIndex }

def readText (source : Text) : Except SessionJournalFailure Reading :=
  if source.getLast? ≠ some lineBreak then
    error ["VerificationSession journal has a missing or partial final line."]
  else (Text.splitAt lineBreak source.dropLast).foldlM (readLine sessionRevision) .initial

/-- What `readVerificationSessionJournal` says of a file that is there or not. -/
def readFile (file : Option Text) : Except SessionJournalFailure VerificationSessionJournalReadback :=
  match file with
  | none => .ok Reading.initial.readback
  | some source => (readText sessionRevision source).map Reading.readback

end Journals

/-! ## Reading and appending, operation by operation -/

/-- The operations on the journal file, and a look at the clock. -/
inductive FileRequest where
  | exists
  | readText
  | ensureDirectory
  | appendFsyncCas (expectedText text : Text)
  | now

/-- A read answers nothing when the file is absent: the file system throws. -/
def FileAnswer : FileRequest → Type
  | .exists => Bool
  | .readText => Option Text
  | .ensureDirectory => Unit
  | .appendFsyncCas _ _ => Bool
  | .now => Text

abbrev SessionProcedure (α : Type) : Type := Procedure FileRequest FileAnswer SessionJournalFailure α

open Procedure (ask result)

def exists? : SessionProcedure Bool := ask FileRequest.exists

/-- `fs.readText(filePath)`. -/
def readTextOrThrow : SessionProcedure Text := do
  let answer ← (ask FileRequest.readText : SessionProcedure (Option Text))
  match answer with
  | some text => return text
  | none => throw .fileSystem

def appendFsyncCas (expectedText text : Text) : SessionProcedure Bool :=
  ask (FileRequest.appendFsyncCas expectedText text)

/-- `fs.exists(filePath) ? fs.readText(filePath) : ''`. -/
def readTextIfPresent : SessionProcedure (Option Text) := do
  let present ← exists?
  if present then
    let text ← readTextOrThrow
    return some text
  else return none

structure AppendInput where
  targetStage : VerificationSessionStage
  kind : VerificationSessionJournalEventKind
  operationId : Option Text
  receiptDigest : Option Text
  recordedAt : Option Text
  note : Option Text

section Programs

variable [Sha256] (sessionRevision : Digest)

def readVerificationSessionJournal : SessionProcedure VerificationSessionJournalReadback := do
  let file ← readTextIfPresent
  result (readFile sessionRevision file)

/-- `input.recordedAt ?? new Date().toISOString()`. -/
def recordedAtOrNow (input : AppendInput) : SessionProcedure Text :=
  match input.recordedAt with
  | some recordedAt => pure recordedAt
  | none => ask FileRequest.now

/-- The event of an append behind the events read. -/
def newEvent (input : AppendInput) (current : VerificationSessionJournalReadback) (recordedAt : Text)
    (operationId receiptDigest : Option Digest) (note : Option Text) : UnsignedEvent := {
  sequence := current.events.length + 1
  sessionRevision := sessionRevision
  targetStage := input.targetStage
  kind := input.kind
  operationId := operationId
  receiptDigest := receiptDigest
  recordedAt := recordedAt
  note := note
  previousDigest := current.latestEvent.map VerificationSessionJournalEvent.eventDigest }

/-- The line of an event in the journal. -/
def eventLine (event : VerificationSessionJournalEvent) : Text := Json.render event.toValue ++ [lineBreak]

/-- `readback.events.at(-1)`, when it has the digest of the event. -/
def persistedEvent (event : VerificationSessionJournalEvent) (readback : VerificationSessionJournalReadback) :
    Except SessionJournalFailure VerificationSessionJournalEvent :=
  match readback.events.getLast? with
  | some persisted =>
      if persisted.eventDigest = event.eventDigest then .ok persisted
      else error ["VerificationSession journal append readback mismatch."]
  | none => error ["VerificationSession journal append readback mismatch."]

def appendVerificationSessionJournalEvent (input : AppendInput) : SessionProcedure VerificationSessionJournalEvent := do
  let current ← readVerificationSessionJournal sessionRevision
  let operationId ← result (assertDigest (some (nullableText input.operationId)) "operationId")
  let receiptDigest ← result (assertDigest (some (nullableText input.receiptDigest)) "receiptDigest")
  let recordedAt ← recordedAtOrNow input
  let recordedAt ← result (assertIso (some (.str recordedAt)) "recordedAt")
  let note ← result (assertNote (some (nullableText input.note)))
  let withoutDigest := newEvent sessionRevision input current recordedAt operationId receiptDigest note
  let event : VerificationSessionJournalEvent := ⟨withoutDigest, withoutDigest.digest⟩
  let _ ← result (parseEvent event.toValue sessionRevision event.sequence current.latestEvent
    current.completedStageIndex)
  let _ ← ask FileRequest.ensureDirectory
  let existing ← readTextIfPresent
  let appended ← appendFsyncCas (existing.getD []) (eventLine event)
  if appended then
    let readback ← readVerificationSessionJournal sessionRevision
    result (persistedEvent event readback)
  else throw (.error (Text.ofString "VerificationSession journal changed concurrently; resume from fresh readback."))

end Programs

/-! ## Any number of appends on one file -/

/-- What an operation does to the file: a read takes a snapshot, an append extends the text it was told or is refused,
and nothing is promised of the clock. -/
def performFile (_ : Nat) (file : Option Text) : (k : FileRequest) → FileAnswer k → Option Text → Prop
  | .exists, answer, file' => answer = file.isSome ∧ file' = file
  | .readText, answer, file' => answer = file ∧ file' = file
  | .ensureDirectory, _, file' => file' = file
  | .appendFsyncCas expectedText text, answer, file' =>
      (answer = true ∧ file.getD [] = expectedText ∧ file' = some (expectedText ++ text)) ∨
        (answer = false ∧ file' = file)
  | .now, _, file' => file' = file

/-- The program of an append to the journal of one session. -/
def appendProgram [Sha256] (sessionRevision : Digest) (input : AppendInput) :
    Calls FileRequest FileAnswer (Except SessionJournalFailure VerificationSessionJournalEvent) :=
  (appendVerificationSessionJournalEvent sessionRevision input).run

end SecPlatform.VerificationSession
