import SecPlatform.VerificationAction.Journal

/-!
# The admission of an execution

A runner observes the journal, acquires the claim, observes the journal again and appends `queued` and
`running`; only then it calls the executor. Any number of runners and of other calls work on the files of one
Action.
-/

namespace SecPlatform.VerificationAction

open Contracts
open Procedure (result)

/-! ## Outcomes -/

inductive VerificationActionRunDisposition where
  | executed
  | joined
  | reused
  | blocked
  deriving DecidableEq, Repr

section Runner

variable [Sha256]

structure VerificationActionRunOutcome where
  actionKey : VerificationActionKeyDigest
  disposition : VerificationActionRunDisposition
  state : Option VerificationActionJournalState
  terminal : Option VerificationActionTerminal
  physicalExecution : Bool
  reason : Option Text
  subordinateSettlement : Option Text

/-- How an admission ends: the executor is called, or the run has an outcome, or it waits for the terminal of the claim. -/
inductive RunAdmission where
  | started
  | settled (outcome : VerificationActionRunOutcome)
  | waits (claim : VerificationActionClaim)

def persistedSubordinateSettlement (journal : VerificationActionJournalReadback) : Option Text :=
  (journal.events.reverse.find? fun event => event.terminal.isSome).bind fun event => event.note.map Subtype.val

variable (actionKey : VerificationActionKeyDigest)

def blocked (state : Option VerificationActionJournalState) (reason : Option Text) : RunAdmission :=
  .settled ⟨actionKey, .blocked, state, none, false, reason, none⟩

/-- A known terminal is used again. -/
def reused (terminal : Option VerificationActionTerminal) (journal : VerificationActionJournalReadback) : RunAdmission :=
  .settled ⟨actionKey, .reused, some .reused, terminal, false,
    if terminal.any fun terminal => terminal.statusReason.val.1 = .failed then
      some "known terminal failure reused; never projected as PASS" else none,
    persistedSubordinateSettlement journal⟩

def joinedAdmission (claim : Option VerificationActionClaim) : RunAdmission :=
  match claim with
  | none => blocked actionKey (some .running) (some "joined durable Action has no authenticated live claim")
  | some claim => .waits claim

/-- The journal that another run has begun. -/
def concurrentAdmission (concurrent : VerificationActionJournalReadback) : Option RunAdmission :=
  if isUnfinished concurrent.latestState ∨ concurrent.latestState = some .terminal ∨
      concurrent.latestState = some .reused then
    some (.settled ⟨actionKey,
      if concurrent.latestState = some .terminal ∨ concurrent.latestState = some .reused then .reused else .joined,
      concurrent.latestState, concurrent.terminal, false,
      if concurrent.terminal = none then some "another process published the durable physical-start transition" else none,
      if concurrent.terminal = none then none else persistedSubordinateSettlement concurrent⟩)
  else none

def alreadyClosed (state : Option VerificationActionJournalState) : RunAdmission :=
  blocked actionKey state (some (Text.cat
    ["action is already ", stateText state, "; delete the disposable V2 journal to execute cleanly"]))

/-! ## Admission -/

variable [LocaleText] (evidence : RetainedEvidence) {actionKey}

structure RunInput (actionKey : VerificationActionKeyDigest) where
  action : ActionOf actionKey
  ownerToken : Text
  /-- Whether the caller brings its own clock, `recordedAt`. -/
  clock : Bool
  leaseDurationMs : Option JsNumber

/-- `input.recordedAt?.()`. -/
def callerTime (clock : Bool) : ActionProcedure (Option Text) :=
  if clock then do
    let now ← attempt .now
    return some now
  else pure none

def appendState (input : RunInput actionKey) (state : VerificationActionJournalState) : ActionProcedure Unit := do
  let recordedAt ← callerTime input.clock
  let _ ← appendVerificationActionJournalEvent evidence ⟨input.action, state, recordedAt, .null, none⟩
  return ()

/-- The `catch` of the first append. -/
def rejoin (actionKey : VerificationActionKeyDigest) (error : ActionFailure) : ActionProcedure (Option RunAdmission) := do
  let concurrent ← readVerificationActionJournal evidence actionKey
  match concurrentAdmission actionKey concurrent with
  | some admission => return some admission
  | none => throw error

/-- The first append; nothing stands for one that succeeded. -/
def appendQueued (input : RunInput actionKey) : ActionProcedure (Option RunAdmission) :=
  Procedure.orElse (do
    let _ ← appendState evidence input .queued
    return none) (rejoin evidence actionKey)

/-- The journal under the claim. -/
def useClaim (input : RunInput actionKey) : ActionProcedure RunAdmission := do
  let journal ← readVerificationActionJournal evidence actionKey
  match journal.latestState, journal.terminal with
  | some .invalidated, _ => return alreadyClosed actionKey journal.latestState
  | some .cancelled, _ => return alreadyClosed actionKey journal.latestState
  | some .terminal, some terminal => return reused actionKey (some terminal) journal
  | some .reused, some terminal => return reused actionKey (some terminal) journal
  | some .terminal, none => throw (.error "VerificationAction terminal state has no terminal fact.")
  | some .reused, none => throw (.error "VerificationAction terminal state has no terminal fact.")
  | some .queued, _ | some .running, _ =>
      return blocked actionKey journal.latestState (some (Text.cat ["persisted ", stateText journal.latestState,
        " action has no provable terminal; blind re-execution is forbidden"]))
  | none, _ => do
      let joined ← appendQueued evidence input
      match joined with
      | some admission => return admission
      | none => do
          let _ ← appendState evidence input .running
          return .started

/-- What the runner makes of the outcome of its acquisition. -/
def useOutcome (input : RunInput actionKey) (claim : VerificationActionClaimOutcome) : ActionProcedure RunAdmission :=
  match claim.disposition with
  | .terminal => do
      let terminalJournal ← readVerificationActionJournal evidence actionKey
      return reused actionKey claim.terminal terminalJournal
  | .joined => return joinedAdmission actionKey claim.claim
  | .blocked | .contended => return blocked actionKey none claim.reason
  | .acquired => useClaim evidence input

variable [DateArithmetic]

/-- The part of `execute` from the first look at the journal to the call of the executor. -/
def admitExecution (input : RunInput actionKey) : ActionProcedure RunAdmission := do
  let beforeClaim ← readVerificationActionJournal evidence actionKey
  if beforeClaim.recoveryDisposition = none ∧ isClosed beforeClaim.latestState then
    return alreadyClosed actionKey beforeClaim.latestState
  else
    let recordedAt ← callerTime input.clock
    let now ← recordedAtOrNow recordedAt
    let claim ← acquireVerificationActionClaim evidence ⟨input.action, input.ownerToken, now, input.leaseDurationMs⟩
    useOutcome evidence input claim

/-! ## Any number of calls -/

/-- A call on one Action. -/
inductive ActionCall (actionKey : VerificationActionKeyDigest) where
  | acquire (input : AcquireInput actionKey)
  | release (token : Text)
  | settle (token : Text)
  | renew (input : RenewInput)
  | commitTerminal (input : CommitTerminalInput actionKey)
  | commitRevocation (input : CommitRevocationInput actionKey)
  | revoke (input : RevokeInput actionKey)
  | append (input : AppendInput actionKey)
  | run (input : RunInput actionKey)

inductive ActionOutcome where
  | acquired (outcome : VerificationActionClaimOutcome)
  | released (outcome : Bool)
  | settled (outcome : VerificationActionClaimSettlementDisposition)
  | renewed (outcome : Bool)
  | committed (event : Option VerificationActionJournalEvent)
  | revoked (journal : VerificationActionJournalReadback)
  | appended (event : VerificationActionJournalEvent)
  | ran (admission : RunAdmission)

def callProcedure : ActionCall actionKey → ActionProcedure ActionOutcome
  | .acquire input => do
      let outcome ← acquireVerificationActionClaim evidence input
      return .acquired outcome
  | .release token => do
      let outcome ← releaseVerificationActionClaim actionKey token
      return .released outcome
  | .settle token => do
      let outcome ← settleVerificationActionClaimIfOwned actionKey token
      return .settled outcome
  | .renew input => do
      let outcome ← renewVerificationActionClaim actionKey input
      return .renewed outcome
  | .commitTerminal input => do
      let event ← commitVerificationActionTerminalUnderClaim evidence input
      return .committed event
  | .commitRevocation input => do
      let event ← commitVerificationActionRevocationUnderClaim evidence input
      return .committed event
  | .revoke input => do
      let journal ← revokeVerificationActionClaim evidence input
      return .revoked journal
  | .append input => do
      let event ← appendVerificationActionJournalEvent evidence input
      return .appended event
  | .run input => do
      let admission ← admitExecution evidence input
      return .ran admission

def callProgram (call : ActionCall actionKey) : Calls FileRequest FileAnswer (Except ActionFailure ActionOutcome) :=
  (callProcedure evidence call).run

abbrev ActionProcesses (actionKey : VerificationActionKeyDigest) : Type :=
  Processes ActionFiles (ActionCall actionKey) FileRequest FileAnswer (Except ActionFailure ActionOutcome)

end Runner

end SecPlatform.VerificationAction
