import SecPlatform.Library.Except
import SecPlatform.Upgrade.Apply

/-!
# What the parts of the lifecycle do

The shape of the calls of the attempt, of its handler and of the whole lifecycle.
-/

namespace SecPlatform.Upgrade

open CallM

variable {Backup : Type} {artifacts : UpgradeArtifacts} {input : UpgradeApplyInput} {backup : Backup}
  {locator : UpgradeRecoverySnapshotLocator} {s s' : LifecycleState}

/-- A call of the lifecycle with its answer. -/
abbrev UpgradeEvent (Backup : Type) : Type :=
  Calls.Event (UpgradeCall Backup) fun k => Except Thrown k.Answer

variable {events : List (UpgradeEvent Backup)}

/-! ## Terminals -/

/-- The calls before the applied terminal is published. -/
def UpgradeCall.Prepares : UpgradeCall Backup → Prop
  | .snapshot | .recoverySnapshot _ | .clearExecutionTerminal | .clearDiagnostics | .publishPlan _ | .apply _
  | .readPersistedPlan | .readWorkspacePlan => True
  | _ => False

/-- The calls that publish the artifacts of a failure settled in this way. -/
def UpgradeCall.Reports (settlement : Settlement) : UpgradeCall Backup → Prop
  | .readPersistedPlan | .readWorkspacePlan | .publishDiagnostics .. => True
  | .publishExecutionTerminal terminal => terminal.settlement = settlement
  | _ => False

theorem compileUpgradeExecutionTerminal_settlement {plan : UpgradePlan} {attempt : UpgradeExecutionAttempt}
    {resultLock : Option LockFile} {settlement : Settlement} {revision : Text} {workspacePlan : Option PlanFile}
    {terminal : UpgradeExecutionTerminal}
    (h : artifacts.compileUpgradeExecutionTerminal plan attempt resultLock settlement revision workspacePlan =
      .ok terminal) : terminal.settlement = settlement := by
  obtain ⟨_, -, h⟩ := bind_eq_ok.mp h
  obtain ⟨_, -, h⟩ := bind_eq_ok.mp h
  obtain ⟨_, -, h⟩ := bind_eq_ok.mp h
  obtain ⟨-, h⟩ := check_bind_eq_ok.mp h
  cases h
  rfl

theorem within_buildUpgradeExecutionTerminal {S : UpgradeCall Backup → Prop} (hplan : S .readPersistedPlan)
    (hworkspace : S .readWorkspacePlan) {resultLock : Option LockFile} {settlement : Settlement} :
    Within S (buildUpgradeExecutionTerminal artifacts input resultLock settlement) := by
  refine within_bind (within_perform hplan) fun _ => within_bind ?_ fun _ => within_result
  refine within_tryCatch (within_map (within_perform hworkspace)) fun _ => ?_
  split
  · exact within_throw
  · exact within_pure

theorem ends_buildUpgradeExecutionTerminal_ok {resultLock : Option LockFile} {settlement : Settlement}
    {terminal : UpgradeExecutionTerminal}
    (h : Ends (buildUpgradeExecutionTerminal artifacts input resultLock settlement) s events (.ok terminal) s') :
    terminal.settlement = settlement := by
  obtain ⟨_, _, _, _, -, -, h⟩ := ends_bind_ok.mp h
  obtain ⟨_, _, _, _, -, -, h⟩ := ends_bind_ok.mp h
  obtain ⟨-, h, -⟩ := ends_result.mp h
  exact compileUpgradeExecutionTerminal_settlement h.symm

/-! ## Publication -/

/-- What a publication of the applied terminal did: its calls and the outcome that is concluded from them. -/
inductive Publication (expected : UpgradeExecutionTerminal) :
    List (UpgradeEvent Backup) → Except Thrown PublicationOutcome → Prop
  | settled (terminal) : Publication expected [⟨.publish expected, .ok terminal⟩] (.ok (.committed terminal none))
  | uncertain (failure) :
      Publication expected [⟨.publish expected, .error failure⟩, ⟨.resolvePublication expected, .ok .committed⟩]
        (.ok (.committed expected (some failure)))
  | unknown (failure) :
      Publication expected [⟨.publish expected, .error failure⟩, ⟨.resolvePublication expected, .ok .unknown⟩]
        (.ok (.notCommitted true failure))
  | classified (failure before) :
      Publication expected
        [⟨.publish expected, .error failure⟩, ⟨.resolvePublication expected, .ok .absent⟩,
          ⟨.isBeforeEffectFailure failure, .ok before⟩]
        (.ok (.notCommitted (!before) failure))
  | unresolved (failure thrown) :
      Publication expected [⟨.publish expected, .error failure⟩, ⟨.resolvePublication expected, .error thrown⟩]
        (.error thrown)
  | unclassified (failure thrown) :
      Publication expected
        [⟨.publish expected, .error failure⟩, ⟨.resolvePublication expected, .ok .absent⟩,
          ⟨.isBeforeEffectFailure failure, .error thrown⟩]
        (.error thrown)

theorem ends_publishAppliedUpgradeTerminal {expected : UpgradeExecutionTerminal}
    {outcome : Except Thrown PublicationOutcome}
    (hends : Ends (publishAppliedUpgradeTerminal expected) s events outcome s') :
    Publication expected events outcome ∧ s' = s := by
  rcases ends_tryCatch.mp hends with ⟨_, hpublish, rfl⟩ | ⟨before, failure, _, after, rfl, hpublish, hclassify⟩
  · obtain ⟨terminal, hcall, rfl⟩ := ends_map_ok.mp hpublish
    obtain ⟨rfl, rfl⟩ := ends_perform.mp hcall
    exact ⟨.settled terminal, rfl⟩
  · obtain ⟨rfl, rfl⟩ := ends_perform.mp (ends_map_error.mp hpublish)
    rcases ends_bind.mp hclassify with ⟨thrown, hresolve, rfl⟩ | ⟨_, resolution, _, after, rfl, hresolve, h⟩
    · obtain ⟨rfl, rfl⟩ := ends_perform.mp hresolve
      exact ⟨.unresolved failure thrown, rfl⟩
    · obtain ⟨rfl, rfl⟩ := ends_perform.mp hresolve
      cases resolution with
      | committed =>
          obtain ⟨rfl, rfl, rfl⟩ := ends_pure.mp h
          exact ⟨.uncertain failure, rfl⟩
      | unknown =>
          obtain ⟨rfl, rfl, rfl⟩ := ends_pure.mp h
          exact ⟨.unknown failure, rfl⟩
      | absent =>
          cases outcome with
          | ok outcome =>
              obtain ⟨before, hcall, rfl⟩ := ends_map_ok.mp h
              obtain ⟨rfl, rfl⟩ := ends_perform.mp hcall
              exact ⟨.classified failure before, rfl⟩
          | error thrown =>
              obtain ⟨rfl, rfl⟩ := ends_perform.mp (ends_map_error.mp h)
              exact ⟨.unclassified failure thrown, rfl⟩

/-! ## The attempt -/

/-- The attempt in a fresh state: it stops before the publication, or publishes and goes on as its outcome says. -/
inductive Attempt (input : UpgradeApplyInput) :
    List (UpgradeEvent Backup) → Except Thrown UpgradeAppliedWorkspaceResult → LifecycleState → Prop
  | stopped (failure) : Attempt input [] (.error failure) .initial
  | recorded (expected lock terminal) (h : terminal.settlement = .applied) :
      Attempt input [⟨.publish expected, .ok terminal⟩, ⟨.recordGeneratedArtifacts lock, .ok ()⟩]
        (.ok ⟨input.plan, lock, input.upgradePlan, terminal⟩) { LifecycleState.initial with appliedTerminalCommitted := true }
  | settled (expected terminal rest failure) (h : ∀ e ∈ rest, ∃ lock, e.request = .recordGeneratedArtifacts lock) :
      Attempt input (⟨.publish expected, .ok terminal⟩ :: rest) (.error failure)
        { LifecycleState.initial with appliedTerminalCommitted := true }
  | uncertain (expected publicationFailure failure s) (hs : s.appliedTerminalCommitted = true)
      (hretain : s.retainBackupForRecovery = true) :
      Attempt input
        [⟨.publish expected, .error publicationFailure⟩, ⟨.resolvePublication expected, .ok .committed⟩]
        (.error failure) s
  | notCommitted (expected) {events unknown failure}
      (h : Publication expected events (.ok (.notCommitted unknown failure))) :
      Attempt input events (.error failure) { LifecycleState.initial with appliedTerminalCommitUnknown := unknown }
  | unclassified (expected) {events thrown} (h : Publication expected events (.error thrown)) :
      Attempt input events (.error thrown) .initial

/-- The calls before the publication, or before the failure that prevents it. -/
structure Prepared (events : List (UpgradeEvent Backup)) : Prop where
  began : ∃ e ∈ events, e.request = .clearExecutionTerminal
  prepares : ∀ e ∈ events, e.request.Prepares

theorem requireApplied_eq_ok {terminal : UpgradeExecutionTerminal} {u : Unit} :
    requireApplied terminal = .ok u ↔ terminal.settlement = .applied := by
  unfold requireApplied
  split <;> simp [*]

theorem ends_settlePublication {lock : LockFile} {outcome : PublicationOutcome}
    {ended : Except Thrown UpgradeAppliedWorkspaceResult} {expected : UpgradeExecutionTerminal}
    {before : List (UpgradeEvent Backup)} (hpublication : Publication expected before (.ok outcome))
    (h : Ends (settlePublication input lock outcome) .initial events ended s') :
    Attempt input (before ++ events) ended s' := by
  cases hpublication with
  | settled terminal =>
      rcases ends_result_bind.mp (ends_change_bind.mp h) with ⟨failure, -, rfl, rfl, rfl⟩ | ⟨_, happlied, hrest⟩
      · exact .settled expected terminal [] failure nofun
      · rcases ends_perform_bind.mp hrest with ⟨failure, rfl, rfl, rfl⟩ | ⟨_, after, rfl, hdone⟩
        · exact .settled expected terminal [_] failure (by simp)
        · obtain ⟨rfl, rfl, rfl⟩ := ends_pure.mp hdone
          exact .recorded expected lock terminal (requireApplied_eq_ok.mp happlied)
  | uncertain publicationFailure =>
      have huncertain := ends_change_bind.mp h
      have happlied := ends_change_bind.mp huncertain
      rcases ends_result_bind.mp happlied with ⟨failure, -, rfl, rfl, rfl⟩ | ⟨_, -, hreason⟩
      · exact .uncertain expected publicationFailure failure _ rfl rfl
      · rcases ends_result_bind.mp hreason with ⟨failure, -, rfl, rfl, rfl⟩ | ⟨failure, -, hrethrow⟩
        · exact .uncertain expected publicationFailure failure _ rfl rfl
        · obtain ⟨rfl, rfl, rfl⟩ := ends_throw.mp hrethrow
          exact .uncertain expected publicationFailure failure _ rfl rfl
  | unknown failure =>
      have hthrow := ends_change_bind.mp h
      obtain ⟨rfl, rfl, rfl⟩ := ends_throw.mp hthrow
      exact .notCommitted expected (.unknown failure)
  | classified failure before =>
      have hthrow := ends_change_bind.mp h
      obtain ⟨rfl, rfl, rfl⟩ := ends_throw.mp hthrow
      exact .notCommitted expected (.classified failure before)

theorem within_prepareUpgrade : Within UpgradeCall.Prepares (prepareUpgrade artifacts input backup) := by
  refine within_bind (within_perform trivial) fun _ => within_bind (within_perform trivial) fun _ => ?_
  refine within_bind (within_perform trivial) fun _ => within_bind (within_perform trivial) fun _ => ?_
  exact within_bind (within_buildUpgradeExecutionTerminal trivial trivial) fun _ => within_pure

theorem ends_prepareUpgrade {outcome : Except Thrown (LockFile × UpgradeExecutionTerminal)}
    (h : Ends (prepareUpgrade artifacts input backup) s events outcome s') : Prepared events ∧ s' = s := by
  obtain ⟨hs, hprepares⟩ := within_prepareUpgrade _ _ _ _ h
  refine ⟨⟨?_, hprepares⟩, hs⟩
  rcases ends_perform_bind.mp h with ⟨_, rfl, -⟩ | ⟨_, _, rfl, -⟩
  · exact ⟨_, .head _, rfl⟩
  · exact ⟨_, .head _, rfl⟩

/-- The calls of the attempt: the prepared ones, then those of an attempt from its publication on. -/
theorem ends_attemptUpgrade {ended : Except Thrown UpgradeAppliedWorkspaceResult}
    (h : Ends (attemptUpgrade artifacts input backup) .initial events ended s') :
    ∃ prepared rest, events = prepared ++ rest ∧ Prepared prepared ∧ Attempt input rest ended s' := by
  rcases ends_bind.mp h with ⟨failure, hprepare, rfl⟩ | ⟨prepared, ⟨lock, expected⟩, _, rest, rfl, hprepare, hpublish⟩
  · obtain ⟨hprepared, rfl⟩ := ends_prepareUpgrade hprepare
    exact ⟨events, [], (List.append_nil _).symm, hprepared, .stopped failure⟩
  · obtain ⟨hprepared, rfl⟩ := ends_prepareUpgrade hprepare
    refine ⟨prepared, rest, rfl, hprepared, ?_⟩
    rcases ends_bind.mp hpublish with ⟨thrown, hends, rfl⟩ | ⟨_, outcome, _, _, rfl, hends, hsettle⟩
    · obtain ⟨hpublication, rfl⟩ := ends_publishAppliedUpgradeTerminal hends
      exact .unclassified expected hpublication
    · obtain ⟨hpublication, rfl⟩ := ends_publishAppliedUpgradeTerminal hends
      exact ends_settlePublication hpublication hsettle

/-! ## The handler -/

/-- The handler in the state the attempt left: it calls nothing after a commit or when the commit is unknown, and
otherwise restores first and then only reports. -/
inductive Recovery (before : LifecycleState) : List (UpgradeEvent Backup) → LifecycleState → Prop
  | committed {after} (h : before.appliedTerminalCommitted = true)
      (hretain : after.retainBackupForRecovery = before.retainBackupForRecovery) : Recovery before [] after
  | unknown {after} (h : before.appliedTerminalCommitUnknown = true) (hretain : after.retainBackupForRecovery = true) :
      Recovery before [] after
  | restored {rest after} (b) (h : before.appliedTerminalCommitted = false)
      (hunknown : before.appliedTerminalCommitUnknown = false) (hrest : ∀ e ∈ rest, e.request.Reports .rolledBack) :
      Recovery before (⟨.restore b, .ok ()⟩ :: rest) after
  | failed {rest after} (b failure) (h : before.appliedTerminalCommitted = false)
      (hunknown : before.appliedTerminalCommitUnknown = false)
      (hrest : ∀ e ∈ rest, e.request.Reports .recoveryRequired) (hretain : after.retainBackupForRecovery = true) :
      Recovery before (⟨.restore b, .error failure⟩ :: rest) after

theorem within_attempted {α : Type} {S : UpgradeCall Backup → Prop} {publication : Lifecycle Backup α}
    (h : Within S publication) : Within S (attempted publication) :=
  within_tryCatch (within_map h) fun _ => within_pure

/-- The artifacts of a failure are only reported, the last step throws, and an unknown commit reports nothing. -/
theorem ends_publishUpgradeApplyFailureArtifacts {α : Type} {primary : Thrown} {unknown : Bool}
    {buildTerminal : Lifecycle Backup UpgradeExecutionTerminal}
    {publishDiagnostics : UpgradeExecutionTerminal → Lifecycle Backup Unit} {S : UpgradeCall Backup → Prop}
    (hpublish : Within S (attempted (buildTerminal >>= fun built => call (.publishExecutionTerminal built))))
    (hdiagnostics : ∀ terminal, Within S (publishDiagnostics terminal)) {ended : Except Thrown α}
    (h : Ends (publishUpgradeApplyFailureArtifacts primary unknown buildTerminal publishDiagnostics) s events ended s') :
    (∃ e, ended = .error e) ∧ s' = s ∧ ∀ e ∈ events, unknown = false ∧ S e.request := by
  have hwithin : Within (fun k => unknown = false ∧ S k)
      (publishUpgradeApplyFailureArtifacts primary unknown buildTerminal publishDiagnostics : Lifecycle Backup α) := by
    cases unknown with
    | true =>
        refine within_bind_of_ends within_pure fun published s events s' hpure => ?_
        obtain ⟨-, hpublished, -⟩ := ends_pure.mp hpure
        cases hpublished
        exact within_bind within_pure fun _ => within_bind within_result fun _ => within_throw
    | false =>
        refine within_bind (hpublish.mono fun _ h => ⟨rfl, h⟩) fun published => within_bind ?_ fun diagnosed =>
          within_bind within_result fun _ => within_throw
        cases published.1 with
        | none => exact within_pure
        | some terminal => exact within_attempted ((hdiagnostics terminal).mono fun _ h => ⟨rfl, h⟩)
  refine ⟨?_, hwithin _ _ _ _ h⟩
  cases ended with
  | error e => exact ⟨e, rfl⟩
  | ok a =>
      obtain ⟨_, _, _, _, -, -, h₁⟩ := ends_bind_ok.mp h
      obtain ⟨_, _, _, _, -, -, h₂⟩ := ends_bind_ok.mp h₁
      obtain ⟨_, _, _, _, -, -, hthrow⟩ := ends_bind_ok.mp h₂
      obtain ⟨-, hthrow, -⟩ := ends_throw.mp hthrow
      cases hthrow

/-- What is built with a settlement is published with it. -/
theorem within_publishBuilt {resultLock : Option LockFile} {settlement : Settlement} :
    Within (UpgradeCall.Reports settlement)
      (attempted (buildUpgradeExecutionTerminal artifacts input resultLock settlement >>= fun built =>
        call (.publishExecutionTerminal built)) : Lifecycle Backup _) := by
  refine within_attempted (within_bind_of_ends (within_buildUpgradeExecutionTerminal trivial trivial) ?_)
  intro terminal s events s' h
  exact within_perform (ends_buildUpgradeExecutionTerminal_ok h)

theorem ends_result_rethrow {α : Type} {x : Except Thrown Thrown} {ended : Except Thrown α}
    (h : Ends (result x >>= rethrow : Lifecycle Backup α) s events ended s') :
    events = [] ∧ (∃ e, ended = .error e) ∧ s'.retainBackupForRecovery = s.retainBackupForRecovery := by
  rcases ends_result_bind.mp h with ⟨e, -, rfl, rfl, rfl⟩ | ⟨failure, -, hrethrow⟩
  · exact ⟨rfl, ⟨e, rfl⟩, rfl⟩
  · have hthrow := ends_change_bind.mp hrethrow
    obtain ⟨rfl, rfl, rfl⟩ := ends_throw.mp hthrow
    exact ⟨rfl, ⟨failure, rfl⟩, rfl⟩

/-- The failure of a restore that was answered so. -/
def restoreAnswer : Except Thrown Unit → Option Thrown
  | .ok () => none
  | .error failure => some failure

theorem ends_restoreFailure {unknown : Bool} {outcome : Except Thrown (Option Thrown)}
    (h : Ends (restoreFailure backup unknown) s events outcome s') :
    s' = s ∧
      ((unknown = true ∧ events = [] ∧ outcome = .ok (some commitUnresolved)) ∨
        ∃ answer, unknown = false ∧ events = [⟨.restore backup, answer⟩] ∧ outcome = .ok (restoreAnswer answer)) := by
  cases unknown with
  | true =>
      obtain ⟨rfl, rfl, rfl⟩ := ends_pure.mp h
      exact ⟨rfl, .inl ⟨rfl, rfl, rfl⟩⟩
  | false =>
      rcases ends_tryCatch.mp h with ⟨_, hrestore, rfl⟩ | ⟨_, failure, _, _, rfl, hrestore, hfailed⟩
      · obtain ⟨answer, hcall, rfl⟩ := ends_map_ok.mp hrestore
        obtain ⟨rfl, rfl⟩ := ends_perform.mp hcall
        exact ⟨rfl, .inr ⟨_, rfl, rfl, rfl⟩⟩
      · obtain ⟨rfl, rfl⟩ := ends_perform.mp (ends_map_error.mp hrestore)
        obtain ⟨rfl, rfl, rfl⟩ := ends_pure.mp hfailed
        exact ⟨rfl, .inr ⟨_, rfl, rfl, rfl⟩⟩

/-- What the rollback found out: the failure of the restore, or that it must not be called. -/
inductive Rollback (backup : Backup) : Bool → List (UpgradeEvent Backup) → Option Thrown → Prop
  | unknown (failure) : Rollback backup true [] (some failure)
  | called (answer) : Rollback backup false [⟨.restore backup, answer⟩] (restoreAnswer answer)

theorem ends_resolveUpgradeRollback {applyFailure : Thrown} {unknown : Bool}
    {outcome : Except Thrown UpgradeRollbackResolution}
    (h : Ends (resolveUpgradeRollback applyFailure unknown locator backup) s events outcome s') :
    s' = s ∧ ∃ rollbackFailure, Rollback backup unknown events rollbackFailure ∧
      ∀ rollback, outcome = .ok rollback →
        rollback.settlement = (if rollbackFailure.isNone then .rolledBack else .recoveryRequired) ∧
          rollback.retainBackupForRecovery = rollbackFailure.isSome := by
  rcases ends_bind.mp h with ⟨e, hrestore, rfl⟩ | ⟨before, rollbackFailure, s₁, after, rfl, hrestore, hdiagnose⟩
  · obtain ⟨-, ⟨-, -, hok⟩ | ⟨_, -, -, hok⟩⟩ := ends_restoreFailure hrestore <;> cases hok
  · have hafter : after = [] ∧ s' = s₁ ∧ ∀ rollback, outcome = .ok rollback →
        rollback.settlement = (if rollbackFailure.isNone then .rolledBack else .recoveryRequired) ∧
          rollback.retainBackupForRecovery = rollbackFailure.isSome := by
      rcases ends_result_bind.mp hdiagnose with ⟨e, -, rfl, rfl, rfl⟩ | ⟨failure, -, hpure⟩
      · exact ⟨rfl, rfl, nofun⟩
      · obtain ⟨rfl, rfl, rfl⟩ := ends_pure.mp hpure
        refine ⟨rfl, rfl, fun rollback hrollback => ?_⟩
        cases hrollback
        exact ⟨rfl, rfl⟩
    obtain ⟨rfl, rfl, hrollback⟩ := hafter
    rw [List.append_nil]
    obtain ⟨rfl, ⟨rfl, rfl, hok⟩ | ⟨answer, rfl, rfl, hok⟩⟩ := ends_restoreFailure hrestore
    · cases hok
      exact ⟨rfl, _, .unknown _, hrollback⟩
    · cases hok
      exact ⟨rfl, _, .called answer, hrollback⟩

theorem ends_rollBackUpgrade {failure : Thrown} {unknown : Bool} {ended : Except Thrown UpgradeAppliedWorkspaceResult}
    (hcommitted : s.appliedTerminalCommitted = false) (hunknown : s.appliedTerminalCommitUnknown = unknown)
    (h : Ends (rollBackUpgrade artifacts input backup locator failure unknown) s events ended s') :
    (∃ e, ended = .error e) ∧ Recovery s events s' := by
  have hroll := ends_change_bind.mp h
  rcases ends_bind.mp hroll with ⟨e, hresolve, rfl⟩ | ⟨before, rollback, s₁, after, rfl, hresolve, hreport⟩
  · obtain ⟨rfl, rollbackFailure, hrollback, -⟩ := ends_resolveUpgradeRollback hresolve
    refine ⟨⟨e, rfl⟩, ?_⟩
    cases hrollback with
    | unknown failure => exact .unknown hunknown rfl
    | called answer =>
        cases answer with
        | ok => exact .restored backup hcommitted hunknown nofun
        | error failure => exact .failed backup failure hcommitted hunknown nofun rfl
  · obtain ⟨rfl, rollbackFailure, hrollback, hresult⟩ := ends_resolveUpgradeRollback hresolve
    obtain ⟨hsettlement, hretain⟩ := hresult rollback rfl
    have hcatch := ends_change_bind.mp hreport
    obtain ⟨herror, hreports, hstate⟩ : (∃ e, ended = .error e) ∧
        (∀ e ∈ after, unknown = false ∧ e.request.Reports rollback.settlement) ∧
          s'.retainBackupForRecovery = rollback.retainBackupForRecovery := by
      rcases ends_tryCatch.mp hcatch with ⟨_, hpublish, rfl⟩ | ⟨before, e, s₂, after, rfl, hpublish, hrethrow⟩
      · obtain ⟨⟨_, hok⟩, -⟩ := ends_publishUpgradeApplyFailureArtifacts within_publishBuilt
          (fun _ => within_perform trivial) hpublish
        cases hok
      · obtain ⟨-, rfl, hreports⟩ := ends_publishUpgradeApplyFailureArtifacts within_publishBuilt
          (fun _ => within_perform trivial) hpublish
        obtain ⟨rfl, herror, hretained⟩ := ends_result_rethrow hrethrow
        exact ⟨herror, by rwa [List.append_nil], hretained⟩
    refine ⟨herror, ?_⟩
    rw [hsettlement] at hreports
    rw [hretain] at hstate
    cases hrollback with
    | unknown failure =>
        cases after with
        | nil => exact .unknown hunknown hstate
        | cons e after => cases (hreports e (.head _)).1
    | called answer =>
        cases answer with
        | ok => exact .restored backup hcommitted hunknown fun e he => (hreports e he).2
        | error failure => exact .failed backup failure hcommitted hunknown (fun e he => (hreports e he).2) hstate

theorem ends_recoverUpgrade {failure : Thrown} {ended : Except Thrown UpgradeAppliedWorkspaceResult}
    (h : Ends (recoverUpgrade artifacts input backup locator failure) s events ended s') :
    (∃ e, ended = .error e) ∧ Recovery s events s' := by
  have hflags := ends_current_bind.mp h
  split at hflags
  next hcommitted =>
    obtain ⟨rfl, herror, hretain⟩ := ends_result_rethrow hflags
    exact ⟨herror, .committed hcommitted hretain⟩
  next hcommitted =>
    exact ends_rollBackUpgrade (Bool.eq_false_iff.mpr hcommitted) rfl hflags

/-! ## The whole lifecycle -/

/-- The cleanup at the end: the backup is retired unless it is retained. -/
inductive Closing (backup : Backup) : Bool → List (UpgradeEvent Backup) → Prop
  | retained : Closing backup true []
  | retired (failure answer) : Closing backup false [⟨.retireBackup backup failure, answer⟩]

/-- The calls of a lifecycle with its outcome. -/
inductive LifecycleRun (input : UpgradeApplyInput) :
    List (UpgradeEvent Backup) → Except Thrown UpgradeAppliedWorkspaceResult → Prop
  | snapshotFailed (failure) : LifecycleRun input [⟨.snapshot, .error failure⟩] (.error failure)
  | locatorFailed (backup answer thrown failure) :
      LifecycleRun input
        [⟨.snapshot, .ok backup⟩, ⟨.recoverySnapshot backup, .error thrown⟩, ⟨.retireBackup backup none, answer⟩]
        (.error failure)
  | applied {prepared attempt closing} (result s) (hprepared : Prepared prepared)
      (hattempt : Attempt input attempt (.ok result) s) (backup)
      (hclosing : Closing backup s.retainBackupForRecovery closing) (outcome)
      (houtcome : ∀ r, outcome = .ok r → r = result) :
      LifecycleRun input (prepared ++ attempt ++ closing) outcome
  | recovered {prepared attempt recovery closing} (failure s s') (hprepared : Prepared prepared)
      (hattempt : Attempt input attempt (.error failure) s) (hrecovery : Recovery s recovery s') (backup)
      (hclosing : Closing backup s'.retainBackupForRecovery closing) (e) :
      LifecycleRun input (prepared ++ attempt ++ recovery ++ closing) (.error e)

theorem Prepared.append {before : List (UpgradeEvent Backup)} (hbefore : ∀ e ∈ before, e.request.Prepares)
    (h : Prepared events) : Prepared (before ++ events) := by
  obtain ⟨began, hbegan, hrequest⟩ := h.began
  exact ⟨⟨began, List.mem_append_right _ hbegan, hrequest⟩, List.forall_mem_append.mpr ⟨hbefore, h.prepares⟩⟩

theorem ends_attempted_call {k : UpgradeCall Backup} {outcome : Except Thrown (Option k.Answer × List Thrown)}
    (h : Ends (attempted (call k)) s events outcome s') :
    s' = s ∧ ∃ answer settled, events = [⟨k, answer⟩] ∧ outcome = .ok settled := by
  rcases ends_tryCatch.mp h with ⟨_, hmap, rfl⟩ | ⟨_, failure, _, _, rfl, hcall, hfailed⟩
  · obtain ⟨answer, hcall, rfl⟩ := ends_map_ok.mp hmap
    obtain ⟨rfl, rfl⟩ := ends_perform.mp hcall
    exact ⟨rfl, _, _, rfl, rfl⟩
  · obtain ⟨rfl, rfl⟩ := ends_perform.mp (ends_map_error.mp hcall)
    obtain ⟨rfl, rfl, rfl⟩ := ends_pure.mp hfailed
    exact ⟨rfl, _, _, rfl, rfl⟩

/-- A projection that fails retires the backup once and throws. -/
theorem ends_settleRetirement {α : Type} {label cleanup : Text} {primary : Thrown} {outcome : Except Thrown α}
    (h : Ends (settleResourcesAsync label primary [(cleanup, call (.retireBackup backup none))] : Lifecycle Backup α)
      s events outcome s') :
    ∃ answer failure, events = [⟨.retireBackup backup none, answer⟩] ∧ outcome = .error failure := by
  rcases ends_bind.mp h with ⟨failure, hsettle, rfl⟩ | ⟨before, failures, _, _, rfl, hsettle, hthrow⟩
  · rcases ends_bind.mp hsettle with ⟨_, hcall, -⟩ | ⟨before, settled, _, _, rfl, hcall, hrest⟩
    · obtain ⟨-, _, _, -, hok⟩ := ends_attempted_call hcall
      cases hok
    · obtain ⟨-, hpure, -⟩ := ends_pure.mp hrest
      cases hpure
  · obtain ⟨before, settled, _, _, rfl, hcall, hrest⟩ := ends_bind_ok.mp hsettle
    obtain ⟨-, answer, _, rfl, -⟩ := ends_attempted_call hcall
    obtain ⟨rfl, -, -⟩ := ends_pure.mp hrest
    obtain ⟨rfl, rfl, -⟩ := ends_throw.mp hthrow
    exact ⟨answer, _, rfl, rfl⟩

theorem ends_closing {ended : Except Thrown Unit}
    (h : Ends (if s.retainBackupForRecovery then pure () else call (.retireBackup backup s.pendingApplyFailure)) s
      events ended s') : Closing backup s.retainBackupForRecovery events := by
  cases hretain : s.retainBackupForRecovery with
  | true =>
      rw [if_pos hretain] at h
      obtain ⟨rfl, -, -⟩ := ends_pure.mp h
      exact .retained
  | false =>
      rw [if_neg (by simp [hretain])] at h
      obtain ⟨rfl, -⟩ := ends_perform.mp h
      exact .retired _ _

/-- The guarded part of the lifecycle, after calls that only prepare it. -/
theorem ends_guarded {before : List (UpgradeEvent Backup)} (hbefore : ∀ e ∈ before, e.request.Prepares)
    {outcome : Except Thrown UpgradeAppliedWorkspaceResult}
    (h : Ends (finallyDo (tryCatch (attemptUpgrade artifacts input backup) (recoverUpgrade artifacts input backup locator))
      fun s => if s.retainBackupForRecovery then pure () else call (.retireBackup backup s.pendingApplyFailure))
      .initial events outcome s') :
    LifecycleRun input (before ++ events) outcome := by
  obtain ⟨body, first, s₁, closing, ended, rfl, hbody, hlast, rfl⟩ := ends_finallyDo.mp h
  have hclosing := ends_closing hlast
  rcases ends_tryCatch.mp hbody with ⟨result, hattempt, rfl⟩ | ⟨tried, failure, _, recovery, rfl, hattempt, hrecover⟩
  · obtain ⟨prepared, attempt, rfl, hprepared, hattempt⟩ := ends_attemptUpgrade hattempt
    rw [← List.append_assoc, ← List.append_assoc]
    exact .applied result _ (hprepared.append hbefore) hattempt backup hclosing _
      fun r hr => (Except.ok.inj (concluded_ok hr)).symm
  · obtain ⟨prepared, attempt, rfl, hprepared, hattempt⟩ := ends_attemptUpgrade hattempt
    obtain ⟨⟨e, rfl⟩, hrecovery⟩ := ends_recoverUpgrade hrecover
    obtain ⟨e', hended⟩ : ∃ e', concluded (.error e : Except Thrown UpgradeAppliedWorkspaceResult) ended = .error e' :=
      concluded_error e ended
    rw [hended, ← List.append_assoc, ← List.append_assoc, ← List.append_assoc]
    exact .recovered failure _ _ (hprepared.append hbefore) hattempt hrecovery backup hclosing e'

theorem ends_locate {label cleanup : Text} {outcome : Except Thrown UpgradeRecoverySnapshotLocator}
    (h : Ends
      (tryCatch (call (.recoverySnapshot backup)) fun failure =>
        settleResourcesAsync label failure [(cleanup, call (.retireBackup backup none))]) s events outcome s') :
    (∃ locator, events = [⟨.recoverySnapshot backup, .ok locator⟩] ∧ outcome = .ok locator ∧ s' = s) ∨
      ∃ thrown answer failure,
        events = [⟨.recoverySnapshot backup, .error thrown⟩, ⟨.retireBackup backup none, answer⟩] ∧
          outcome = .error failure := by
  rcases ends_tryCatch.mp h with ⟨locator, hcall, rfl⟩ | ⟨_, thrown, _, _, rfl, hcall, hsettle⟩
  · obtain ⟨rfl, rfl⟩ := ends_perform.mp hcall
    exact .inl ⟨locator, rfl, rfl, rfl⟩
  · obtain ⟨rfl, rfl⟩ := ends_perform.mp hcall
    obtain ⟨answer, failure, rfl, rfl⟩ := ends_settleRetirement hsettle
    exact .inr ⟨thrown, answer, failure, rfl, rfl⟩

theorem ends_executeUpgradeApplyLifecycle {outcome : Except Thrown UpgradeAppliedWorkspaceResult}
    (h : Ends (executeUpgradeApplyLifecycle artifacts input) .initial events outcome s') :
    LifecycleRun input events outcome := by
  rcases ends_perform_bind.mp h with ⟨failure, rfl, rfl, -⟩ | ⟨backup, rest, rfl, hlocate⟩
  · exact .snapshotFailed failure
  rcases ends_bind.mp hlocate with ⟨failure, hlocator, rfl⟩ | ⟨before, locator, s₁, after, rfl, hlocator, hrun⟩
  · obtain ⟨_, _, hok, _⟩ | ⟨thrown, answer, failure, rfl, hfailure⟩ := ends_locate hlocator
    · cases hok
    · exact .locatorFailed backup answer thrown _
  · obtain ⟨_, rfl, hok, rfl⟩ | ⟨_, _, _, -, hfailure⟩ := ends_locate hlocator
    · cases hok
      have hprefix : ∀ e ∈ ([⟨.snapshot, .ok backup⟩, ⟨.recoverySnapshot backup, .ok locator⟩] :
          List (UpgradeEvent Backup)), e.request.Prepares := by simp [UpgradeCall.Prepares]
      exact ends_guarded hprefix hrun
    · cases hfailure

end SecPlatform.Upgrade
