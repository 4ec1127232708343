import SecPlatform.Library.Interleaving
import SecPlatform.VerificationAction.JournalGenerations

/-!
# Claims and appends, operation by operation

The files of one Action are its journal, its claim and the recovery lock. Each operation on a file is atomic;
between two operations of one call any other call may work on the same files. An operation that throws may have
had its effect.
-/

namespace SecPlatform.VerificationAction

open Contracts
open Procedure (ask result)

/-! ## Operations on the files -/

inductive FileRequest where
  | observeJournal
  | claimExists
  | readClaim
  | createClaim (text : Text)
  | replaceClaim (text : Text)
  | deleteClaim
  | createLock
  | deleteLock
  | appendJournal (expectedText text : Text)
  | ensureDirectory
  | now

abbrev FileValue : FileRequest → Type
  | .observeJournal => Option RuntimeStateJournalRetainedText
  | .claimExists => Bool
  | .readClaim => Text
  | .createClaim _ => Bool
  | .replaceClaim _ => Unit
  | .deleteClaim => Bool
  | .createLock => Bool
  | .deleteLock => Bool
  | .appendJournal _ _ => Bool
  | .ensureDirectory => Unit
  | .now => Text

/-- A value, or what the operation throws. -/
abbrev FileAnswer (k : FileRequest) : Type := Except ActionFailure (FileValue k)

abbrev ActionProcedure (α : Type) : Type := Procedure FileRequest FileAnswer ActionFailure α

def attempt (k : FileRequest) : ActionProcedure (FileValue k) := do
  let answer ← ask k
  result answer

/-- The files of one Action. The lock is the token of the call that created it; the call whose append created the journal is
kept beside the files, where no operation looks at it. -/
structure ActionFiles where
  journal : Option RuntimeStateJournalRetainedText
  claim : Option Text
  lock : Option Nat
  creator : Option Nat

def ActionFiles.journalText (files : ActionFiles) : Option Text := files.journal.map fun retained => retained.text

/-- What an operation does that returns a value. A creation and an append may be refused at any time. -/
def effect (i : Nat) (files : ActionFiles) : (k : FileRequest) → FileValue k → ActionFiles → Prop
  | .observeJournal, value, files' => value = files.journal ∧ files' = files
  | .claimExists, value, files' => value = files.claim.isSome ∧ files' = files
  | .readClaim, value, files' => files.claim = some value ∧ files' = files
  | .createClaim text, value, files' =>
      (value = true ∧ files.claim = none ∧ files' = { files with claim := some text }) ∨ (value = false ∧ files' = files)
  | .replaceClaim text, _, files' => files' = { files with claim := some text }
  | .deleteClaim, value, files' => value = files.claim.isSome ∧ files' = { files with claim := none }
  | .createLock, value, files' =>
      (value = true ∧ files.lock = none ∧ files' = { files with lock := some i }) ∨ (value = false ∧ files' = files)
  | .deleteLock, value, files' => value = files.lock.isSome ∧ files' = { files with lock := none }
  | .appendJournal expectedText text, value, files' =>
      (value = true ∧ files.journalText.getD [] = expectedText ∧ ∃ physical, files' = { files with
        journal := some ⟨expectedText ++ text, physical⟩
        creator := if files.journal = none then some i else files.creator }) ∨ (value = false ∧ files' = files)
  | .ensureDirectory, _, files' => files' = files
  | .now, _, files' => files' = files

/-- What an operation of the call at a place does. -/
def performFile (i : Nat) (files : ActionFiles) (k : FileRequest) (answer : FileAnswer k) (files' : ActionFiles) : Prop :=
  match answer with
  | .ok value => effect i files k value files'
  | .error _ => files' = files ∨ ∃ value, effect i files k value files'

/-- An Action under a key. -/
abbrev ActionOf [Sha256] (actionKey : VerificationActionKeyDigest) : Type :=
  { action : VerificationActionKey // action.actionKey = actionKey }

/-! ## Appending -/

section Journal

variable [Sha256] [LocaleText] (evidence : RetainedEvidence) {actionKey : VerificationActionKeyDigest}

def readGeneration (actionKey : VerificationActionKeyDigest) : ActionProcedure JournalGeneration := do
  let file ← attempt .observeJournal
  result (readVerificationActionJournalGeneration evidence actionKey file)

def readVerificationActionJournal (actionKey : VerificationActionKeyDigest) :
    ActionProcedure VerificationActionJournalReadback := do
  let generation ← readGeneration evidence actionKey
  return generation.readback

structure AppendInput (actionKey : VerificationActionKeyDigest) where
  action : ActionOf actionKey
  state : VerificationActionJournalState
  recordedAt : Option Text
  terminal : Value
  note : Option Text

/-- What an append admits behind a readback: the state and the terminal of the new event. -/
def admitEvent (actionKey : VerificationActionKeyDigest) (current : VerificationActionJournalReadback)
    (input : AppendInput actionKey) :
    Except ActionFailure (VerificationActionJournalState × Option VerificationActionTerminal) := do
  require (current.recoveryDisposition = none)
    (recoveryRequired "legacy Action is quarantined; same-ActionKey execution and reuse are forbidden.")
  require (current.action.all fun action => action.actionKey = actionKey) (corrupt "embedded action identity changed.")
  let stateValue ← assertState (.str input.state.toText)
  let state ← assertTransition (current.events.getLast?.map fun event => event.state) stateValue
  let terminal ← nullableTerminal input.terminal
  assertTerminalBindsAction terminal actionKey "new event"
  assertStateTerminal state terminal []
  return (state, terminal)

/-- `input.recordedAt ?? new Date().toISOString()`. -/
def recordedAtOrNow (recordedAt : Option Text) : ActionProcedure Text :=
  match recordedAt with
  | some recordedAt => pure recordedAt
  | none => attempt .now

def newEvent (action : VerificationActionKey) (current : VerificationActionJournalReadback)
    (state : VerificationActionJournalState) (terminal : Option VerificationActionTerminal) (recordedAt : IsoText)
    (note : Option Note) : UnsignedEvent := {
  sequence := (current.events.getLast?.map fun event => event.sequence).getD 0 + 1
  actionKey := action.actionKey
  action := action
  state := state
  recordedAt := recordedAt
  terminal := terminal
  note := note
  previousDigest := current.events.getLast?.map fun event => event.eventDigest }

def appendVerificationActionJournalEvent (input : AppendInput actionKey) :
    ActionProcedure VerificationActionJournalEvent := do
  let action ← result (reparseAction input.action.val.toValue)
  let generation ← readGeneration evidence action.actionKey
  let admitted ← result (admitEvent actionKey generation.readback input)
  let recordedAtText ← recordedAtOrNow input.recordedAt
  let recordedAt ← result (assertIsoDate (.str recordedAtText))
  let note ← result (assertNote (nullable Json.str input.note))
  let event := (newEvent action generation.readback admitted.1 admitted.2 recordedAt note).signed
  let _ ← attempt .ensureDirectory
  let appended ← attempt (.appendJournal (generation.source.getD []) (eventLine event))
  if appended then return event else throw (corrupt "changed concurrently; resume from fresh readback.")

/-! ## Claims -/

def readVerificationActionClaim (actionKey : VerificationActionKeyDigest) :
    ActionProcedure (Option VerificationActionClaim) := do
  let present ← attempt .claimExists
  if present then
    let source ← attempt .readClaim
    let claim ← result (parseClaim source actionKey)
    return some claim
  else return none

def deleteRecoveryLock : ActionProcedure Unit := do
  let deleted ← attempt .deleteLock
  if deleted then return () else throw (corrupt "claim recovery lock disappeared.")

def withRecoveryLock {α : Type} (operation : ActionProcedure α) : ActionProcedure (Option α) := do
  let locked ← attempt .createLock
  if locked then
    let value ← operation.finallyDo deleteRecoveryLock
    return some value
  else return none

inductive VerificationActionClaimDisposition where
  | acquired
  | joined
  | terminal
  | contended
  | blocked
  deriving DecidableEq, Repr

structure VerificationActionClaimOutcome where
  disposition : VerificationActionClaimDisposition
  claim : Option VerificationActionClaim
  terminal : Option VerificationActionTerminal
  reason : Option Text

/-- The outcome of an acquisition that the journal alone decides. -/
def settledOutcome (journal : VerificationActionJournalReadback) : Option VerificationActionClaimOutcome :=
  if journal.recoveryDisposition ≠ none then
    some ⟨.blocked, none, none,
      some "legacy Action is quarantined; same-ActionKey execution and reuse are forbidden"⟩
  else if (journal.latestState = some .terminal ∨ journal.latestState = some .reused) ∧ journal.terminal ≠ none then
    some ⟨.terminal, none, journal.terminal, none⟩
  else none

/-- The claim has an owner that may still work. -/
def isLive (claim : VerificationActionClaim) (lease : VerificationActionClaim) : Bool :=
  decide (lease.acquiredAt.val < claim.expiresAt)

def isUnfinished (state : Option VerificationActionJournalState) : Bool := state = some .queued || state = some .running

def joinedOutcome (claim : VerificationActionClaim) : VerificationActionClaimOutcome :=
  ⟨.joined, some claim, none, some "another process owns the live persisted Action claim"⟩

def unreadableOutcome : VerificationActionClaimOutcome :=
  ⟨.blocked, none, none, some "persisted Action claim is unreadable; fail closed"⟩

/-- `${journal.latestState ?? 'no journal'}`. -/
def stateText (state : Option VerificationActionJournalState) : Text :=
  (state.map VerificationActionJournalState.toText).getD "no journal"

/-- `try { return readVerificationActionClaim() } catch { return unreadable }`, where nothing stands for unreadable. -/
def readClaimOrUnreadable (actionKey : VerificationActionKeyDigest) :
    ActionProcedure (Option (Option VerificationActionClaim)) :=
  Procedure.orElse (do let claim ← readVerificationActionClaim actionKey; return some claim) fun _ => pure none

def deleteIfClaimed (current : Option VerificationActionClaim) : ActionProcedure Unit :=
  match current with
  | none => pure ()
  | some _ => do
      let _ ← attempt .deleteClaim
      return ()

/-- The abandoned Action is cancelled. -/
def cancelAbandoned (action : ActionOf actionKey) (lease : VerificationActionClaim)
    (latestState : Option VerificationActionJournalState) (current : Option VerificationActionClaim) :
    ActionProcedure VerificationActionClaimOutcome := do
  let _ ← appendVerificationActionJournalEvent evidence ⟨action, .cancelled, some lease.acquiredAt.val, .null,
    some (Text.cat ["abandoned ", stateText latestState, " Action has no live physical owner or terminal readback"])⟩
  deleteIfClaimed current
  return ⟨.blocked, current, none, some (Text.cat ["abandoned ", stateText latestState,
    " Action was durably cancelled; a new Action identity is required"])⟩

/-- The recovery of an unfinished Action, under the lock. -/
def recoverUnderLock (action : ActionOf actionKey) (lease : VerificationActionClaim) :
    ActionProcedure VerificationActionClaimOutcome := do
  let currentJournal ← readVerificationActionJournal evidence actionKey
  if (currentJournal.latestState = some .terminal ∨ currentJournal.latestState = some .reused) ∧
      currentJournal.terminal ≠ none then
    return ⟨.terminal, none, currentJournal.terminal, none⟩
  else
    let read ← readClaimOrUnreadable actionKey
    match read with
    | none => return unreadableOutcome
    | some current =>
        if ¬isUnfinished currentJournal.latestState then
          return ⟨.blocked, current, none, some (Text.cat
            ["persisted Action recovery observed ", stateText currentJournal.latestState, "; fail closed"])⟩
        else match current.filter fun claim => isLive claim lease with
          | some claim => return joinedOutcome claim
          | none => cancelAbandoned evidence action lease currentJournal.latestState current

def recoverAbandoned (action : ActionOf actionKey) (lease : VerificationActionClaim) :
    ActionProcedure VerificationActionClaimOutcome := do
  let read ← readClaimOrUnreadable actionKey
  match read with
  | none => return unreadableOutcome
  | some existing =>
      match existing.filter fun claim => isLive claim lease with
      | some claim => return joinedOutcome claim
      | none => do
          let recovered ← withRecoveryLock (recoverUnderLock evidence action lease)
          return recovered.getD ⟨.contended, existing, none,
            some "another recovery owner is settling the abandoned Action"⟩

/-- The outcome for a claim that another call has created. -/
def existingOutcome (lease existing : VerificationActionClaim) : VerificationActionClaimOutcome :=
  if existing.ownerToken = lease.ownerToken ∧ isLive existing lease then ⟨.acquired, some existing, none, none⟩
  else if isLive existing lease then
    ⟨.joined, some existing, none, some "another process owns the live ActionKey claim"⟩
  else
    ⟨.blocked, some existing, none,
      some "expired physical owner has no provable terminal; blind re-execution is forbidden"⟩

def acquireFresh (actionKey : VerificationActionKeyDigest) (lease : VerificationActionClaim) :
    ActionProcedure VerificationActionClaimOutcome := do
  let created ← attempt (.createClaim lease.source)
  if created then return ⟨.acquired, some lease, none, none⟩
  else
    let read ← readClaimOrUnreadable actionKey
    match read with
    | none => return ⟨.blocked, none, none, some "claim is unreadable; fail closed"⟩
    | some none => throw .typeError
    | some (some existing) => return existingOutcome lease existing

structure AcquireInput (actionKey : VerificationActionKeyDigest) where
  action : ActionOf actionKey
  ownerToken : Text
  now : Text
  leaseDurationMs : Option JsNumber

variable [DateArithmetic]

def acquireVerificationActionClaim (input : AcquireInput actionKey) : ActionProcedure VerificationActionClaimOutcome := do
  let action ← result (reparseAction input.action.val.toValue)
  let journal ← readVerificationActionJournal evidence action.actionKey
  match settledOutcome journal with
  | some outcome => return outcome
  | none => do
      let lease ← result (newClaim actionKey input.ownerToken input.now (input.leaseDurationMs.getD (.ofNat 300000)))
      let _ ← attempt .ensureDirectory
      if isUnfinished journal.latestState then recoverAbandoned evidence input.action lease
      else acquireFresh actionKey lease

/-! ## Giving a claim up -/

def releaseUnderLock (actionKey : VerificationActionKeyDigest) (token : Text) : ActionProcedure Bool := do
  let existing ← readVerificationActionClaim actionKey
  match existing with
  | none => return false
  | some existing => do
      let owner ← result (ownerToken (.str token))
      let _ ← result (require (existing.ownerToken = owner) (corrupt "claim release owner mismatch."))
      let _ ← attempt .deleteClaim
      return true

def releaseVerificationActionClaim (actionKey : VerificationActionKeyDigest) (token : Text) : ActionProcedure Bool := do
  let released ← withRecoveryLock (releaseUnderLock actionKey token)
  return released.getD false

inductive VerificationActionClaimSettlementDisposition where
  | released
  | absent
  | lost
  deriving DecidableEq, Repr

def settleUnderLock (actionKey : VerificationActionKeyDigest) (expectedOwner : OwnerToken) :
    ActionProcedure VerificationActionClaimSettlementDisposition := do
  let existing ← readVerificationActionClaim actionKey
  match existing with
  | none => return .absent
  | some existing =>
      if existing.ownerToken ≠ expectedOwner then return .lost
      else do
        let _ ← attempt .deleteClaim
        return .released

/-- The outcome under the lock, or the refusal when another call holds it. -/
def uncontended {α : Type} (outcome : Option α) (message : Text) : Except ActionFailure α :=
  match outcome with
  | some outcome => .ok outcome
  | none => failJournal message

def settleVerificationActionClaimIfOwned (actionKey : VerificationActionKeyDigest) (token : Text) :
    ActionProcedure VerificationActionClaimSettlementDisposition := do
  let expectedOwner ← result (ownerToken (.str token))
  let settled ← withRecoveryLock (settleUnderLock actionKey expectedOwner)
  result (uncontended settled "claim settlement is contended; fail closed.")

/-! ## Working under a claim -/

/-- The persisted claim, when it names the owner and has not expired. -/
def ownedClaim (existing : Option VerificationActionClaim) (token : Text) (now : IsoText) :
    Except ActionFailure (Option VerificationActionClaim) :=
  match existing with
  | none => .ok none
  | some claim => do
      let owner ← ownerToken (.str token)
      return (some claim).filter fun claim => claim.ownerToken = owner ∧ now.val < claim.expiresAt

def readOwnedClaim (actionKey : VerificationActionKeyDigest) (token now : Text) :
    ActionProcedure (Option VerificationActionClaim) := do
  let existing ← readVerificationActionClaim actionKey
  let now ← result (assertIsoDate (.str now))
  result (ownedClaim existing token now)

structure RenewInput where
  ownerToken : Text
  now : Text
  leaseDurationMs : JsNumber

def renewUnderLock (actionKey : VerificationActionKeyDigest) (input : RenewInput) : ActionProcedure Bool := do
  let existing ← readOwnedClaim actionKey input.ownerToken input.now
  match existing with
  | none => return false
  | some existing => do
      let extension ← result (newClaim actionKey input.ownerToken input.now input.leaseDurationMs)
      let _ ← attempt (.replaceClaim { extension with acquiredAt := existing.acquiredAt }.source)
      return true

def renewVerificationActionClaim (actionKey : VerificationActionKeyDigest) (input : RenewInput) : ActionProcedure Bool := do
  let renewed ← withRecoveryLock (renewUnderLock actionKey input)
  return renewed.getD false

/-- An append while the claim names the caller. -/
def commitUnderLock (token now : Text) (input : AppendInput actionKey) :
    ActionProcedure (Option VerificationActionJournalEvent) := do
  let existing ← readOwnedClaim actionKey token now
  match existing with
  | none => return none
  | some _ => do
      let event ← appendVerificationActionJournalEvent evidence input
      let _ ← attempt .deleteClaim
      return some event

structure CommitTerminalInput (actionKey : VerificationActionKeyDigest) where
  action : ActionOf actionKey
  ownerToken : Text
  now : Text
  recordedAt : Option Text
  terminal : Value
  note : Option Text

def CommitTerminalInput.append (input : CommitTerminalInput actionKey) : AppendInput actionKey :=
  ⟨input.action, .terminal, input.recordedAt, input.terminal, input.note⟩

def commitVerificationActionTerminalUnderClaim (input : CommitTerminalInput actionKey) :
    ActionProcedure (Option VerificationActionJournalEvent) := do
  let _ ← result (reparseAction input.action.val.toValue)
  let committed ← withRecoveryLock (commitUnderLock evidence input.ownerToken input.now input.append)
  return committed.join

/-- The states that close an Action without a result. -/
inductive VerificationActionRevocationState where
  | invalidated
  | cancelled
  deriving DecidableEq, Repr

def VerificationActionRevocationState.toState : VerificationActionRevocationState → VerificationActionJournalState
  | .invalidated => .invalidated
  | .cancelled => .cancelled

structure CommitRevocationInput (actionKey : VerificationActionKeyDigest) where
  action : ActionOf actionKey
  ownerToken : Text
  now : Text
  state : VerificationActionRevocationState
  recordedAt : Option Text
  note : Text

def CommitRevocationInput.append (input : CommitRevocationInput actionKey) : AppendInput actionKey :=
  ⟨input.action, input.state.toState, input.recordedAt, .null, some input.note⟩

def commitVerificationActionRevocationUnderClaim (input : CommitRevocationInput actionKey) :
    ActionProcedure (Option VerificationActionJournalEvent) := do
  let _ ← result (reparseAction input.action.val.toValue)
  let committed ← withRecoveryLock (commitUnderLock evidence input.ownerToken input.now input.append)
  return committed.join

/-! ## Revoking a claim -/

structure RevokeInput (actionKey : VerificationActionKeyDigest) where
  action : ActionOf actionKey
  state : VerificationActionRevocationState
  recordedAt : Option Text
  note : Text

def RevokeInput.append (input : RevokeInput actionKey) : AppendInput actionKey :=
  ⟨input.action, input.state.toState, input.recordedAt, .null, some input.note⟩

def isClosed (state : Option VerificationActionJournalState) : Bool :=
  state = some .invalidated || state = some .cancelled

def revokeUnderLock (input : RevokeInput actionKey) : ActionProcedure VerificationActionJournalReadback := do
  let current ← readVerificationActionJournal evidence actionKey
  if current.latestState = none ∨ isClosed current.latestState then return current
  else
    let _ ← appendVerificationActionJournalEvent evidence input.append
    let _ ← attempt .deleteClaim
    readVerificationActionJournal evidence actionKey

def revokeVerificationActionClaim (input : RevokeInput actionKey) :
    ActionProcedure VerificationActionJournalReadback := do
  let _ ← result (reparseAction input.action.val.toValue)
  let revoked ← withRecoveryLock (revokeUnderLock evidence input)
  result (uncontended revoked "claim revocation is contended; fail closed.")

end Journal

end SecPlatform.VerificationAction
