import SecPlatform.VerificationAction.Terminal

/-!
# Records of the journal of an Action

One text, one event on each line. An event names its place, the Action, a state that may follow the state
before it and the digest of the event before it; `parseJournalSource` accepts the text only as a whole. The
claim of an Action is a document of its own.
-/

namespace SecPlatform.VerificationAction

open Contracts

def journalFailure (kind : VerificationActionJournalFailureKind) (message : Text) : ActionFailure :=
  .journal kind (Text.cat ["VerificationAction journal ", message])

/-- `fail(message)` of the journal. -/
def corrupt (message : Text) : ActionFailure := journalFailure .corruptJournal message

def failJournal {α : Type} (message : Text) : Except ActionFailure α := .error (corrupt message)

def verificationActionJournalEventSchema : Text := "sec-verification-action-terminal-bound-journal-event"

def verificationActionClaimSchema : Text := "sec-verification-action-terminal-bound-claim"

def lineBreak : CodeUnit := unit '\n'

def maximumBytes : Nat := 16 * 1024 * 1024

def maximumEvents : Nat := 4096

def journalEventKeys : List Text :=
  ["schema", "sequence", "actionKey", "action", "state", "recordedAt", "terminal", "note", "previousDigest", "eventDigest"]

def claimKeys : List Text := ["schema", "actionKey", "ownerToken", "acquiredAt", "expiresAt"]

/-! ## States -/

inductive VerificationActionJournalState where
  | queued
  | running
  | terminal
  | reused
  | invalidated
  | cancelled
  deriving DecidableEq, Repr

namespace VerificationActionJournalState

def toText : VerificationActionJournalState → Text
  | .queued => "queued"
  | .running => "running"
  | .terminal => "terminal"
  | .reused => "reused"
  | .invalidated => "invalidated"
  | .cancelled => "cancelled"

def all : List VerificationActionJournalState := [.queued, .running, .terminal, .reused, .invalidated, .cancelled]

/-- The table of `assertTransition`. -/
def allowed : VerificationActionJournalState → List VerificationActionJournalState
  | .queued => [.running, .invalidated, .cancelled]
  | .running => [.running, .terminal, .invalidated, .cancelled]
  | .terminal => [.reused, .invalidated, .cancelled]
  | .reused => [.reused, .invalidated, .cancelled]
  | .invalidated => []
  | .cancelled => []

/-- The states whose events carry a terminal. -/
def carriesTerminal (state : VerificationActionJournalState) : Bool := state = .terminal || state = .reused

end VerificationActionJournalState

mutual
/-- `String(value)` of plain data. -/
def jsString : Value → Text
  | .null => "null"
  | .bool true => "true"
  | .bool false => "false"
  | .num n => if n.isFinite then Json.renderNumber n else if n.isNegative then "-Infinity" else "Infinity"
  | .str t => t
  | .arr items => jsJoin items
  | .obj _ => "[object Object]"

/-- `Array.prototype.join`. -/
def jsJoin : List Value → Text
  | [] => []
  | [.null] => []
  | [v] => jsString v
  | .null :: w :: vs => unit ',' :: jsJoin (w :: vs)
  | v :: w :: vs => jsString v ++ unit ',' :: jsJoin (w :: vs)
end

/-- `assertState`: a value passes whose text is a state. -/
def assertState (value : Value) : Except ActionFailure Value := do
  require (jsString value ∈ VerificationActionJournalState.all.map VerificationActionJournalState.toText)
    (corrupt "state is invalid.")
  return value

/-- The state that a text in a table is; a value that is no text is in no table. -/
def findState (states : List VerificationActionJournalState) (value : Value) : Option VerificationActionJournalState :=
  states.find? fun state => value = .str state.toText

/-- `assertTransition`, with the state that has been admitted. -/
def assertTransition (previous : Option VerificationActionJournalState) (next : Value) :
    Except ActionFailure VerificationActionJournalState :=
  match previous with
  | none =>
      match findState [.queued] next with
      | some state => .ok state
      | none => failJournal "must begin with queued."
  | some previous =>
      match findState previous.allowed next with
      | some state => .ok state
      | none => failJournal (Text.cat ["contains illegal transition ", previous.toText, " -> ", jsString next, "."])

/-! ## Single values -/

abbrev IsoText : Type := { value : Text // IsoDate.isTimestampText value }

def assertIsoDate (value : Value) : Except ActionFailure IsoText :=
  checkedText value (corrupt "recordedAt must be an ISO-8601 UTC timestamp.")

def isNote (value : Text) : Bool :=
  decide (value.length ≤ 1024) && decide (value.utf8Length ≤ 1024) && value.all isNoControl

abbrev Note : Type := { value : Text // isNote value }

def assertNote (value : Value) : Except ActionFailure (Option Note) :=
  match value with
  | .null => .ok none
  | value => (checkedText value (corrupt "note must be null or bounded text.")).map some

def assertDigest (value : Value) (label : Text) : Except ActionFailure (Option Digest) :=
  match value with
  | .null => .ok none
  | value => (checkedText value (corrupt (Text.cat [label, " must be null or a SHA-256 digest."]))).map some

def isOwnerToken (value : Text) : Bool := decide (value ≠ []) && decide (value.length ≤ 256) && value.all isNoControl

abbrev OwnerToken : Type := { value : Text // isOwnerToken value }

def ownerToken (value : Value) : Except ActionFailure OwnerToken :=
  checkedText value (corrupt "claim ownerToken must be bounded text.")

def nullable {α : Type} (toValue : α → Value) : Option α → Value
  | none => .null
  | some a => toValue a

/-! ## Events -/

section Events

variable [Sha256]

structure UnsignedEvent where
  sequence : Nat
  actionKey : VerificationActionKeyDigest
  action : VerificationActionKey
  state : VerificationActionJournalState
  recordedAt : IsoText
  terminal : Option VerificationActionTerminal
  note : Option Note
  previousDigest : Option VerificationActionKeyDigest
  deriving DecidableEq

/-- The event without its digest. -/
def UnsignedEvent.toValue (event : UnsignedEvent) : Value := .obj [
  ("action", event.action.toValue),
  ("actionKey", digestValue event.actionKey),
  ("note", nullable (fun note : Note => .str note.val) event.note),
  ("previousDigest", nullable digestValue event.previousDigest),
  ("recordedAt", .str event.recordedAt.val),
  ("schema", .str verificationActionJournalEventSchema),
  ("sequence", natValue event.sequence),
  ("state", .str event.state.toText),
  ("terminal", nullable VerificationActionTerminal.toValue event.terminal)]

def eventDigest (event : UnsignedEvent) : VerificationActionKeyDigest := Sha256.rawSha256 (encodeCanonical event.toValue)

structure VerificationActionJournalEvent extends UnsignedEvent where
  eventDigest : VerificationActionKeyDigest
  binds : eventDigest = VerificationAction.eventDigest toUnsignedEvent
  deriving DecidableEq

/-- The event with its digest. -/
def UnsignedEvent.signed (event : UnsignedEvent) : VerificationActionJournalEvent := ⟨event, eventDigest event, rfl⟩

def VerificationActionJournalEvent.members (event : VerificationActionJournalEvent) : List (Text × Value) := [
  ("action", event.action.toValue),
  ("actionKey", digestValue event.actionKey),
  ("eventDigest", digestValue event.eventDigest),
  ("note", nullable (fun note : Note => .str note.val) event.note),
  ("previousDigest", nullable digestValue event.previousDigest),
  ("recordedAt", .str event.recordedAt.val),
  ("schema", .str verificationActionJournalEventSchema),
  ("sequence", natValue event.sequence),
  ("state", .str event.state.toText),
  ("terminal", nullable VerificationActionTerminal.toValue event.terminal)]

def VerificationActionJournalEvent.toValue (event : VerificationActionJournalEvent) : Value := .obj event.members

def assertTerminalBindsAction (terminal : Option VerificationActionTerminal) (actionKey : VerificationActionKeyDigest)
    (label : Text) : Except ActionFailure Unit := do
  require (terminal.all fun terminal => terminal.actionKey = actionKey)
    (corrupt (Text.cat [label, " terminal does not bind its ActionKey."]))
  require (terminal.all fun terminal => terminal.diagnosticObjects.val.all fun object =>
      object.receipt.val.subjectDigest = actionKey ∧
        object.receipt.val.boundAttemptDigest = terminal.boundAttemptDigest)
    (corrupt (Text.cat [label, " terminal diagnostics do not bind its ActionKey and attempt."]))

/-- The line of an event in the journal. -/
def eventLine (event : VerificationActionJournalEvent) : Text := encodeCanonical event.toValue ++ [lineBreak]

/-- `value === null ? null : createVerificationActionTerminal(value)`. -/
def nullableTerminal (value : Value) : Except ActionFailure (Option VerificationActionTerminal) :=
  match value with
  | .null => .ok none
  | value => (createVerificationActionTerminal value).map some

/-- `parseVerificationActionKey(encodeVerificationActionData(value))`. -/
def reparseAction (value : Value) : Except ActionFailure VerificationActionKey := do
  let source ← encodeVerificationActionData value
  parseVerificationActionKey source

/-- The state has a terminal exactly when it must; the label of an event of the file stands in front of the message. -/
def assertStateTerminal (state : VerificationActionJournalState) (terminal : Option VerificationActionTerminal)
    (label : Text) : Except ActionFailure Unit := do
  require (state.carriesTerminal → terminal.isSome)
    (corrupt (Text.cat [label, state.toText, " state requires a terminal result."]))
  require (¬state.carriesTerminal → terminal.isNone)
    (corrupt (Text.cat [label, state.toText, " state cannot carry a terminal result."]))

def eventLabel (sequence : Nat) : Text := Text.cat ["event ", Text.ofNat sequence]

/-- `validateEvent` behind the check that the candidate is an object. -/
def validateEventMembers (value : List (Text × Value)) (expectedActionKey : VerificationActionKeyDigest)
    (previous : Option VerificationActionJournalEvent) (sequence : Nat) :
    Except ActionFailure VerificationActionJournalEvent := do
  let label := eventLabel sequence
  require (member value "schema" = .str verificationActionJournalEventSchema)
    (corrupt (Text.cat [label, " schema mismatch; non-current records are not reusable."]))
  require (member value "sequence" = natValue sequence) (corrupt (Text.cat [label, " has a non-contiguous sequence."]))
  require (member value "actionKey" = digestValue expectedActionKey) (corrupt (Text.cat [label, " action key mismatch."]))
  let action ← reparseAction (member value "action")
  require (action.actionKey = expectedActionKey) (corrupt (Text.cat [label, " embedded action mismatch."]))
  let stateValue ← assertState (member value "state")
  let state ← assertTransition (previous.map fun event => event.state) stateValue
  let previousDigest ← assertDigest (member value "previousDigest") (Text.cat [label, " previousDigest"])
  require (previous.map (fun event => event.eventDigest) = previousDigest)
    (corrupt (Text.cat [label, " previousDigest does not match the chain."]))
  let terminal ← nullableTerminal (member value "terminal")
  assertTerminalBindsAction terminal expectedActionKey label
  assertStateTerminal state terminal (Text.cat [label, " "])
  let recordedAt ← assertIsoDate (member value "recordedAt")
  let note ← assertNote (member value "note")
  let withoutDigest : UnsignedEvent :=
    ⟨sequence, expectedActionKey, action, state, recordedAt, terminal, note, previousDigest⟩
  require (member value "eventDigest" = digestValue (eventDigest withoutDigest))
    (corrupt (Text.cat [label, " digest mismatch."]))
  return withoutDigest.signed

def validateEvent (candidate : Value) (expectedActionKey : VerificationActionKeyDigest)
    (previous : Option VerificationActionJournalEvent) (sequence : Nat) :
    Except ActionFailure VerificationActionJournalEvent :=
  match candidate with
  | .obj value => validateEventMembers value expectedActionKey previous sequence
  | _ => failJournal (Text.cat [eventLabel sequence, " must be an object."])

/-! ## Journals -/

structure VerificationActionJournalReadback where
  action : Option VerificationActionKey
  events : List VerificationActionJournalEvent
  latestState : Option VerificationActionJournalState
  terminal : Option VerificationActionTerminal
  recoveryDisposition : Option Value
  deriving DecidableEq

def emptyReadback : VerificationActionJournalReadback := ⟨none, [], none, none, none⟩

/-- What a journal of these events says. -/
def readbackOf (events : List VerificationActionJournalEvent) : VerificationActionJournalReadback := {
  action := events.head?.map fun event => event.action
  events := events
  latestState := events.getLast?.map fun event => event.state
  terminal := (events.getLast?.filter fun event => event.state.carriesTerminal).bind fun event => event.terminal
  recoveryDisposition := none }

/-- One turn of the reading loop; the index of a line is the number of events before it. -/
def readLine (actionKey : VerificationActionKeyDigest) (events : List VerificationActionJournalEvent) (line : Text) :
    Except ActionFailure (List VerificationActionJournalEvent) := do
  let sequence := events.length + 1
  let parsed ← exactDocument line (Text.cat ["VerificationAction journal event ", Text.ofNat sequence]) journalEventKeys
  let event ← validateEvent parsed actionKey events.getLast? sequence
  require (line = encodeCanonical event.toValue) (corrupt (Text.cat [eventLabel sequence, " bytes are not canonical."]))
  return events ++ [event]

def parseJournalLines (actionKey : VerificationActionKeyDigest) (source : Text) :
    Except ActionFailure (List VerificationActionJournalEvent) := do
  require (source.getLast? = some lineBreak) (corrupt "has a missing or partial final line.")
  let lines := Text.splitAt lineBreak source.dropLast
  require (lines.length ≤ maximumEvents) (corrupt "exceeds the event ceiling.")
  lines.foldlM (readLine actionKey) []

def parseJournalSource (actionKey : VerificationActionKeyDigest) (source : Option Text) :
    Except ActionFailure VerificationActionJournalReadback :=
  match source with
  | none => .ok emptyReadback
  | some source => (parseJournalLines actionKey source).map readbackOf

end Events

/-! ## Claims -/

/-- `new Date(Date.parse(timestamp) + milliseconds).toISOString()` of a text in the shape of a timestamp; there is no result
when the language throws a `RangeError`. What `Date.parse` makes of a day that the calendar does not have is left open. -/
class DateArithmetic where
  later : IsoText → Nat → Option Text

structure VerificationActionClaim where
  actionKey : VerificationActionKeyDigest
  ownerToken : OwnerToken
  acquiredAt : IsoText
  expiresAt : Text
  deriving DecidableEq

def VerificationActionClaim.members (claim : VerificationActionClaim) : List (Text × Value) := [
  ("acquiredAt", .str claim.acquiredAt.val),
  ("actionKey", digestValue claim.actionKey),
  ("expiresAt", .str claim.expiresAt),
  ("ownerToken", .str claim.ownerToken.val),
  ("schema", .str verificationActionClaimSchema)]

def VerificationActionClaim.toValue (claim : VerificationActionClaim) : Value := .obj claim.members

/-- `${encodeVerificationActionData(claim)}\n`. -/
def VerificationActionClaim.source (claim : VerificationActionClaim) : Text := encodeCanonical claim.toValue ++ [lineBreak]

def parseCanonicalJournalDocument (source label : Text) (rootObjectKeys : List Text) : Except ActionFailure Value := do
  require (source.getLast? = some lineBreak ∧ source.dropLast.getLast? ≠ some lineBreak)
    (corrupt (Text.cat [label, " bytes must contain one newline-terminated JSON document."]))
  let value ← exactDocument source.dropLast label rootObjectKeys
  let encoded ← encodeVerificationActionData value
  require (encoded ++ [lineBreak] = source) (corrupt (Text.cat [label, " bytes are not canonical."]))
  return value

/-- `parseClaim` behind the check that the claim is an object. -/
def parseClaimMembers (claim : List (Text × Value)) (expectedActionKey : VerificationActionKeyDigest) :
    Except ActionFailure VerificationActionClaim := do
  require (member claim "schema" = .str verificationActionClaimSchema ∧
      member claim "actionKey" = digestValue expectedActionKey) (corrupt "claim identity mismatch.")
  let acquiredAt ← assertIsoDate (member claim "acquiredAt")
  let expiresAt ← assertIsoDate (member claim "expiresAt")
  require (acquiredAt.val < expiresAt.val) (corrupt "claim expiry must be after acquisition.")
  let ownerToken ← ownerToken (member claim "ownerToken")
  return ⟨expectedActionKey, ownerToken, acquiredAt, expiresAt.val⟩

def parseClaim (source : Text) (expectedActionKey : VerificationActionKeyDigest) :
    Except ActionFailure VerificationActionClaim := do
  let value ← parseCanonicalJournalDocument source "VerificationAction claim" claimKeys
  match value with
  | .obj claim => parseClaimMembers claim expectedActionKey
  | _ => failJournal "claim must be an object."

/-- `expiresAt` of a new claim. -/
def expiry [DateArithmetic] (acquiredAt : IsoText) (leaseDurationMs : Nat) : Except ActionFailure Text :=
  match DateArithmetic.later acquiredAt leaseDurationMs with
  | some expiresAt => .ok expiresAt
  | none => .error .rangeError

def leaseDuration (leaseDurationMs : JsNumber) : Except ActionFailure Nat :=
  match leaseDurationMs.toNat?.filter fun duration => 1000 ≤ duration ∧ duration ≤ 86400000 with
  | some duration => .ok duration
  | none => failJournal "leaseDurationMs must be between one second and one day."

def newClaim [DateArithmetic] (actionKey : VerificationActionKeyDigest) (token now : Text) (leaseDurationMs : JsNumber) :
    Except ActionFailure VerificationActionClaim := do
  let acquiredAt ← assertIsoDate (.str now)
  let duration ← leaseDuration leaseDurationMs
  let ownerToken ← ownerToken (.str token)
  let expiresAt ← expiry acquiredAt duration
  return ⟨actionKey, ownerToken, acquiredAt, expiresAt⟩

end SecPlatform.VerificationAction
