import SecPlatform.VerificationAction.JournalGenerations

/-!
# The journal of an earlier layout

A journal of the earlier layout is read under the checks of that layout: its events may carry an Action or a terminal of
a retired contract, and may bind an execution. The events that carry neither are written anew as events of the journal.
-/

namespace SecPlatform.VerificationAction

open Contracts

def legacyVerificationActionJournalEventSchema : Text := "sec-verification-action-journal-event-v2"

def retiredLegacyJournalEventKeys : List Text := journalEventKeys ++ [Text.ofString "executionBindingDigest"]

def retiredLegacyActionKeys : List Text :=
  ["actionKey", "actionKind", "environment", "inputClosure", "operation", "producer", "requiredCheapPreflightActionKeys",
    "resultSchemaRevision", "schema", "upstreamActionKeys"]

def retiredLegacyActionWithStaticProofKeys : List Text := retiredLegacyActionKeys ++ [Text.ofString "staticProofRequirement"]

/-- `Object.hasOwn`. -/
def hasOwn (members : List (Text × Value)) (key : Text) : Bool := (Json.get? key members).isSome

section Legacy

variable [Sha256]

structure LegacyVerificationActionJournalEvent where
  sequence : Nat
  actionKey : VerificationActionKeyDigest
  action : Option VerificationActionKey
  actionSource : Text
  state : VerificationActionJournalState
  recordedAt : IsoText
  terminal : Option VerificationActionTerminal
  terminalMigratable : Bool
  note : Option Note
  previousDigest : Option VerificationActionKeyDigest
  eventDigest : VerificationActionKeyDigest
  deriving DecidableEq

/-! ## Actions -/

structure LegacyActionProjection where
  action : Option VerificationActionKey
  canonicalForDigest : Value
  source : Text

/-- The part of `legacyActionProjection` inside of `try`. -/
def currentActionProjection (input : Value) (expectedActionKey : VerificationActionKeyDigest) :
    Except ActionFailure LegacyActionProjection := do
  let action ← reparseAction input
  require (action.actionKey = expectedActionKey) (corrupt "legacy embedded action mismatch.")
  return ⟨some action, action.toValue, encodeCanonical action.toValue⟩

/-- The part inside of `catch`: the members of an Action that the current contract refuses. -/
def retiredActionProjection (value : List (Text × Value)) (expectedActionKey : VerificationActionKeyDigest)
    (error : ActionFailure) : Except ActionFailure LegacyActionProjection := do
  let proves := hasOwn value "staticProofRequirement"
  exactRecordKeys value (if proves then retiredLegacyActionWithStaticProofKeys else retiredLegacyActionKeys)
  require (member value "schema" = .str verificationActionKeySchema ∧
    member value "actionKey" = digestValue expectedActionKey) error
  require (proves → member value "staticProofRequirement" = .str (Text.ofString "bounded-action-admission")) error
  let source ← encodeVerificationActionData (.obj value)
  return ⟨none, .obj value, source⟩

def legacyActionProjection (input : Value) (expectedActionKey : VerificationActionKeyDigest) :
    Except ActionFailure LegacyActionProjection :=
  match currentActionProjection input expectedActionKey with
  | .ok projection => .ok projection
  | .error error =>
      match input with
      | .obj value => retiredActionProjection value expectedActionKey error
      | _ => .error error

/-! ## Terminals -/

structure LegacyTerminal where
  terminal : Option VerificationActionTerminal
  canonicalForDigest : Value
  migratable : Bool

def retiredTerminalKeys : List Text := ["status", "reasonCode", "resultDigest"]

def retiredOwnerJoinKeys : List Text :=
  ["boundAttemptDigest", "diagnosticObjects", "ownerTerminalJoinReceiptDigest", "reasonCode", "resultDigest", "status"]

def retiredExecutionKindKeys : List Text :=
  ["boundAttemptDigest", "diagnosticObjects", "executionKind", "ownerTerminalJoinReceiptDigest", "reasonCode", "resultDigest",
    "status"]

def isArray : Value → Bool
  | .arr _ => true
  | _ => false

/-- The evidence of the retired join that a terminal must carry. -/
def assertRetiredOwnerJoin (value : List (Text × Value)) (hasRetiredExecutionKind : Bool) (reasonCode : Text) :
    Except ActionFailure Unit := do
  let boundAttemptDigest ← assertDigest (member value "boundAttemptDigest") "legacy terminal boundAttemptDigest"
  require (boundAttemptDigest ≠ none) (corrupt "retired legacy terminal owner join evidence is invalid.")
  let receiptDigest ←
    assertDigest (member value "ownerTerminalJoinReceiptDigest") "legacy terminal ownerTerminalJoinReceiptDigest"
  require (receiptDigest ≠ none ∧ isArray (member value "diagnosticObjects"))
    (corrupt "retired legacy terminal owner join evidence is invalid.")
  require (hasRetiredExecutionKind → member value "executionKind" = .str (Text.ofString "process") ∧
      member value "status" = .str (Text.ofString "passed") ∧ reasonCode = Text.ofString "executed-success")
    (corrupt "retired legacy terminal execution binding is invalid.")

/-- The members of a retired terminal under its digest. -/
def retiredTerminalMembers (value : List (Text × Value)) (hasRetiredOwnerJoin hasRetiredExecutionKind : Bool)
    (reasonCode : Text) (resultDigest : Option Digest) : List (Text × Value) :=
  let common : List (Text × Value) :=
    [("reasonCode", .str reasonCode), ("resultDigest", nullable digestValue resultDigest),
      ("status", member value "status")]
  let join : List (Text × Value) := [("boundAttemptDigest", member value "boundAttemptDigest"),
    ("diagnosticObjects", member value "diagnosticObjects"),
    ("ownerTerminalJoinReceiptDigest", member value "ownerTerminalJoinReceiptDigest")]
  let kind : List (Text × Value) := [("executionKind", member value "executionKind")]
  (if hasRetiredOwnerJoin then join ++ (if hasRetiredExecutionKind then kind else []) else []) ++ common

/-- The part of `legacyTerminal` inside of `catch`. -/
def retiredTerminal (value : List (Text × Value)) : Except ActionFailure LegacyTerminal := do
  let hasRetiredOwnerJoin := hasOwn value "ownerTerminalJoinReceiptDigest"
  let hasRetiredExecutionKind := hasOwn value "executionKind"
  require (hasRetiredExecutionKind → hasRetiredOwnerJoin)
    (corrupt "legacy terminal executionKind is not bound to retired owner join evidence.")
  exactRecordKeys value (if hasRetiredOwnerJoin then
    (if hasRetiredExecutionKind then retiredExecutionKindKeys else retiredOwnerJoinKeys) else retiredTerminalKeys)
  let isRetiredInvalidation := member value "status" = .str (Text.ofString "invalidated") ∧
    member value "reasonCode" = .str (Text.ofString "input-invalidated")
  require (jsString (member value "status") ∈
      [Text.ofString "passed", Text.ofString "failed", Text.ofString "not-run"] ∨ isRetiredInvalidation)
    (corrupt "legacy terminal status is invalid.")
  let reasonCode := jsString (member value "reasonCode")
  require (reasonCode ≠ [] ∧ reasonCode.length ≤ 128 ∧ reasonCode.all isNoControl)
    (corrupt "legacy terminal reasonCode is invalid.")
  let resultDigest ← assertDigest (member value "resultDigest") "legacy terminal resultDigest"
  require (isRetiredInvalidation → resultDigest ≠ none) (corrupt "retired legacy invalidation resultDigest is missing.")
  if hasRetiredOwnerJoin then assertRetiredOwnerJoin value hasRetiredExecutionKind reasonCode
  return ⟨none,
    .obj (retiredTerminalMembers value hasRetiredOwnerJoin hasRetiredExecutionKind reasonCode resultDigest), false⟩

def legacyTerminal (input : Value) : Except ActionFailure LegacyTerminal :=
  match input with
  | .null => .ok ⟨none, .null, true⟩
  | input =>
      match createVerificationActionTerminal input with
      | .ok terminal => .ok ⟨some terminal, terminal.toValue, true⟩
      | .error _ =>
          match input with
          | .obj value => retiredTerminal value
          | _ => failJournal "legacy terminal is not an object."

/-! ## Events -/

def legacyLabel (sequence : Nat) : Text := Text.cat ["legacy event ", Text.ofNat sequence]

/-- `executionBindingDigest` of an event that has one. -/
def executionBinding (value : List (Text × Value)) (label : Text) : Except ActionFailure (Option Digest) :=
  if hasOwn value "executionBindingDigest" then do
    let executionBindingDigest ←
      assertDigest (member value "executionBindingDigest") (Text.cat [label, " executionBindingDigest"])
    require (executionBindingDigest ≠ none) (corrupt (Text.cat [label, " executionBindingDigest is required."]))
    return executionBindingDigest
  else return none

/-- `validateLegacyEvent` behind the check that the candidate is an object. -/
def validateLegacyEventMembers (value : List (Text × Value)) (expectedActionKey : VerificationActionKeyDigest)
    (previous : Option LegacyVerificationActionJournalEvent) (sequence : Nat) :
    Except ActionFailure LegacyVerificationActionJournalEvent := do
  let label := legacyLabel sequence
  exactRecordKeys value
    (if hasOwn value "executionBindingDigest" then retiredLegacyJournalEventKeys else journalEventKeys)
  require (member value "schema" = .str legacyVerificationActionJournalEventSchema)
    (corrupt (Text.cat [label, " schema mismatch."]))
  require (member value "sequence" = natValue sequence ∧ member value "actionKey" = digestValue expectedActionKey)
    (corrupt (Text.cat [label, " identity mismatch."]))
  let actionProjection ← legacyActionProjection (member value "action") expectedActionKey
  require (previous.all fun previous => previous.actionSource = actionProjection.source)
    (corrupt (Text.cat [label, " embedded action changed within the chain."]))
  let stateValue ← assertState (member value "state")
  let state ← assertTransition (previous.map fun event => event.state) stateValue
  let previousDigest ← assertDigest (member value "previousDigest") (Text.cat [label, " previousDigest"])
  require (previous.map (fun event => event.eventDigest) = previousDigest)
    (corrupt (Text.cat [label, " previousDigest does not match the chain."]))
  let parsedTerminal ← legacyTerminal (member value "terminal")
  assertTerminalBindsAction parsedTerminal.terminal expectedActionKey label
  require (state.carriesTerminal → member value "terminal" ≠ .null)
    (corrupt (Text.cat [label, " ", state.toText, " state requires a terminal result."]))
  require (¬state.carriesTerminal → member value "terminal" = .null)
    (corrupt (Text.cat [label, " ", state.toText, " state cannot carry a terminal result."]))
  let recordedAt ← assertIsoDate (member value "recordedAt")
  let note ← assertNote (member value "note")
  let executionBindingDigest ← executionBinding value label
  let members : List (Text × Value) := [
    ("schema", .str legacyVerificationActionJournalEventSchema),
    ("sequence", natValue sequence),
    ("actionKey", digestValue expectedActionKey),
    ("action", actionProjection.canonicalForDigest),
    ("state", .str state.toText),
    ("recordedAt", .str recordedAt.val),
    ("terminal", parsedTerminal.canonicalForDigest),
    ("note", nullable (fun note : Note => .str note.val) note),
    ("previousDigest", nullable digestValue previousDigest)]
  let binding := executionBindingDigest.map fun d => (Text.ofString "executionBindingDigest", digestValue d)
  let canonicalForDigest : Value := .obj (members ++ binding.toList)
  let encoded ← encodeVerificationActionData canonicalForDigest
  let eventDigest := Sha256.rawSha256 encoded
  require (member value "eventDigest" = digestValue eventDigest) (corrupt (Text.cat [label, " digest mismatch."]))
  return {
    sequence, actionKey := expectedActionKey, action := actionProjection.action, actionSource := actionProjection.source
    state, recordedAt, terminal := parsedTerminal.terminal, terminalMigratable := parsedTerminal.migratable, note
    previousDigest, eventDigest }

def validateLegacyEvent (candidate : Value) (expectedActionKey : VerificationActionKeyDigest)
    (previous : Option LegacyVerificationActionJournalEvent) (sequence : Nat) :
    Except ActionFailure LegacyVerificationActionJournalEvent :=
  match candidate with
  | .obj value => validateLegacyEventMembers value expectedActionKey previous sequence
  | _ => failJournal (Text.cat [legacyLabel sequence, " must be an object."])

/-! ## Journals -/

/-- `parseExactJson` without a contract, as a total function: the scanner ends. -/
def exactValue (source label : Text) : Except ActionFailure Value :=
  ((parseExactJson source label none none).get (parseExactJson_plain_isSome source label)).mapError .exactJson

/-- One turn of the reading loop; the index of a line is the number of events before it. -/
def readLegacyLine (actionKey : VerificationActionKeyDigest) (events : List LegacyVerificationActionJournalEvent)
    (line : Text) : Except ActionFailure (List LegacyVerificationActionJournalEvent) := do
  let sequence := events.length + 1
  let candidate ← exactValue line (Text.cat ["VerificationAction legacy journal event ", Text.ofNat sequence])
  let event ← validateLegacyEvent candidate actionKey events.getLast? sequence
  let encoded ← encodeVerificationActionData candidate
  require (line = encoded) (corrupt (Text.cat [legacyLabel sequence, " bytes are not canonical."]))
  return events ++ [event]

def parseLegacyJournalSource (actionKey : VerificationActionKeyDigest) (source : Text) :
    Except ActionFailure (List LegacyVerificationActionJournalEvent) := do
  require (source.getLast? = some lineBreak) (corrupt "legacy evidence has a missing or partial final line.")
  let lines := Text.splitAt lineBreak source.dropLast
  require (lines.length ≤ maximumEvents) (corrupt "legacy evidence exceeds the event ceiling.")
  lines.foldlM (readLegacyLine actionKey) []

/-! ## Migration -/

def migratableAction (action : Option VerificationActionKey) : Except ActionFailure VerificationActionKey :=
  match action with
  | some action => .ok action
  | none => failJournal "retired legacy Action contract cannot migrate into the current journal."

/-- One turn of the loop: the lines so far and the digest of the last of them. -/
def migrateEvent (migrated : List Text × Option VerificationActionKeyDigest)
    (legacy : LegacyVerificationActionJournalEvent) :
    Except ActionFailure (List Text × Option VerificationActionKeyDigest) := do
  require legacy.terminalMigratable (corrupt "legacy terminal has no bound attempt and diagnostics.")
  let action ← migratableAction legacy.action
  let withoutDigest : UnsignedEvent := {
    sequence := legacy.sequence, actionKey := legacy.actionKey, action, state := legacy.state
    recordedAt := legacy.recordedAt, terminal := legacy.terminal, note := legacy.note, previousDigest := migrated.2 }
  let line ← encodeVerificationActionData withoutDigest.signed.toValue
  return (migrated.1 ++ [line], some (eventDigest withoutDigest))

def migratedJournalSource (events : List LegacyVerificationActionJournalEvent) : Except ActionFailure Text := do
  let (lines, _) ← events.foldlM migrateEvent ([], none)
  return Text.joinWith [lineBreak] lines ++ [lineBreak]

end Legacy

end SecPlatform.VerificationAction
