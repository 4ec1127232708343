import SecPlatform.Compiler.SemanticMutation.Lemmas.RecoveryRecord

/-!
# Semantic mutations

What the builder of results, the checker of recovery records and the planner guarantee.
-/

namespace SecPlatform.Compiler.SemanticMutation

open Contracts Semantics

/-! ## Terminal results -/

/-- The plan is ready, and the verification of the evidence passed and is bound to it. -/
def AcceptedByVerification [Sha256] (plan : SemanticMutationPlan) (evidence : Option SemanticMutationTerminalEvidence) :
    Prop :=
  ∃ ready transactionId attempted accepted verification change requirements,
    plan = .planned ready ∧ ready.rejectedAt = none ∧ ready.sourceChanges = [change] ∧
    ready.requiredVerification = some requirements ∧
    evidence = some (.accepted transactionId attempted accepted verification) ∧ verification.status = .passed ∧
    BoundVerification ready verification change requirements

/-- The checker accepts what the builder makes, and an accepted result rests on a verification of the plan. -/
theorem buildSemanticMutationResult_sound [Sha256] [EnglishLowerCase] {plan : SemanticMutationPlan}
    {evidence : Option SemanticMutationTerminalEvidence} {result : SemanticMutationResult}
    (hplan : assertSemanticMutationPlanInvariant plan = .ok ())
    (h : buildSemanticMutationResult plan evidence = .ok result) :
    assertSemanticMutationResultInvariant result plan = .ok () ∧
      (result.status = .accepted → AcceptedByVerification plan evidence) := by
  simp only [buildSemanticMutationResult, check_bind_eq_ok] at h
  replace h := h.2
  cases plan with
  | request rejection => simp [check_bind_eq_ok] at h
  | planned plan =>
      dsimp only at h
      cases hrejected : plan.rejectedAt with
      | some stage =>
          simp only [hrejected, Option.isSome_some, if_true, check_bind_eq_ok] at h
          obtain ⟨hcheck, hstatus⟩ := rejectedPlanResult_accepted hplan h.2
          exact ⟨hcheck, fun hacc => by simp [hstatus] at hacc⟩
      | none =>
          simp only [hrejected, Option.isSome_none, Bool.false_eq_true, if_false] at h
          cases evidence with
          | none => simp at h
          | some evidence =>
              obtain ⟨hcheck, haccepted⟩ := terminalResult_accepted hplan hrejected h
              refine ⟨hcheck, fun hacc => ?_⟩
              obtain ⟨transactionId, attempted, accepted, verification, rfl, hbound, hpassed⟩ := haccepted hacc
              obtain ⟨change, staged, delta, impact, requirements, hevidence⟩ := exists_readyEvidence hplan hrejected
              exact ⟨plan, transactionId, attempted, accepted, verification, change, requirements, rfl, hrejected,
                hevidence.sourceChanges, hevidence.requiredVerification, rfl, hpassed,
                (boundVerification_of_isBound hbound hevidence.sourceChanges hevidence.requiredVerification).1⟩

section Example

/-! ### An example -/

/-- The digest with this last digit. -/
def sampleDigest (digit : Fin 16) : Digest :=
  ⟨Text.ofString "sha256:" ++ List.replicate 63 (unit '0') ++ [Json.hexDigit digit], isDigest_hexDigit digit⟩

/-- Looks at one code unit, which is one of the request id in the digests of a request and of its plan. -/
local instance requestSha256 : Sha256 := ⟨fun text => sampleDigest (Fin.ofNat 16 (text.getD 130 0).val)⟩

/-- Lower case of the ASCII letters. -/
local instance asciiLowerCase : EnglishLowerCase :=
  ⟨fun text => text.map fun c => if unit 'A' ≤ c ∧ c ≤ unit 'Z' then c + 32 else c⟩

def sampleBase : SemanticMutationBase := ⟨"tx:base", "input:1", "semantic:1"⟩

def sampleStaged : SemanticMutationBase := ⟨"tx:staged", "input:2", "semantic:2"⟩

/-- A request for one transition, with nothing expected. -/
def sampleRequest (requestId : Text) : SemanticMutationRequest where
  requestId := requestId
  graphId := "graph:app"
  appId := "app:demo"
  base := sampleBase
  preconditions := []
  operations := [⟨"op-1", ⟨"demo", "order"⟩, "order", "draft", "placed", "place"⟩]
  expectation := ⟨[], [], []⟩
  postconditions := []
  additionalVerification := []

/-- A long request id of one letter. -/
def sampleRequestId (letter : Char) : Text := List.replicate 60 (unit letter)

def sampleAuthorization : SemanticMutationAuthorizationContent where
  taskId := none
  envelopeRevision := none
  allowedOperationKinds := ["add-state-transition"]
  allowedTargetEntityIds := []
  allowedSourceOwnerIds := ["owner"]
  allowedPathPrefixes := []
  requiredPreconditions := []
  requiredPostconditions := []
  minimumVerification := []

def sampleAuthorizationValue : Value := .obj [
  ("authorizationRevision", .str (semanticMutationAuthorizationRevision sampleAuthorization)),
  ("allowedOperationKinds", texts sampleAuthorization.allowedOperationKinds),
  ("allowedTargetEntityIds", texts []),
  ("allowedSourceOwnerIds", texts sampleAuthorization.allowedSourceOwnerIds),
  ("allowedPathPrefixes", texts []),
  ("requiredPreconditions", .arr []),
  ("requiredPostconditions", .arr []),
  ("minimumVerification", .arr [])]

def sampleDelta : FactDelta where
  contractVersion := "1"
  scope := "semantic"
  formatVersion := "1"
  graphId := "graph:app"
  appId := "app:demo"
  fromEndpoint := ⟨sampleBase.transactionId, sampleBase.inputRevision, sampleBase.semanticRevision⟩
  toEndpoint := ⟨sampleStaged.transactionId, sampleStaged.inputRevision, sampleStaged.semanticRevision⟩
  fromFactSetDigest := (sampleDigest 1).val
  toFactSetDigest := (sampleDigest 2).val
  added := []
  removed := []
  changed := []
  deltaRevision := (sampleDigest 3).val

def sampleImpact : SemanticImpactPropagation where
  contractVersion := "1"
  scope := "semantic"
  formatVersion := "1"
  graphId := "graph:app"
  appId := "app:demo"
  deltaRevision := sampleDelta.deltaRevision
  fromSemanticRevision := sampleBase.semanticRevision
  toSemanticRevision := sampleStaged.semanticRevision
  fromFactSetDigest := sampleDelta.fromFactSetDigest
  toFactSetDigest := sampleDelta.toFactSetDigest
  propagationRuleRevision := "rules-1"
  seeds := []
  direct := []
  transitive := []
  uncertainties := []
  verification := []
  impactRevision := (sampleDigest 4).val

def sampleChange (relativePath : Text) (before staged : Digest) : SemanticMutationSourceChange :=
  ⟨"owner", "adapter", "adapter-1", relativePath, before.val, staged.val, "resolve"⟩

def samplePlanDraft (requestId : Text) (change : SemanticMutationSourceChange) : SemanticMutationPlanDraft where
  contractVersion := SEMANTIC_MUTATION_CONTRACT_VERSION
  requestId := requestId
  requestRevision := requestRevision (sampleRequest requestId)
  authorizationRevision := semanticMutationAuthorizationRevision sampleAuthorization
  operationRegistryRevision := SEMANTIC_MUTATION_OPERATION_REGISTRY_REVISION
  expectationRevision := SEMANTIC_MUTATION_EXPECTATION_REVISION
  verificationPolicyRevision := SEMANTIC_MUTATION_VERIFICATION_POLICY_REVISION
  verificationAdapterId := "verifier"
  verificationAdapterRevision := "verifier-1"
  verificationPlanningRevision := (sampleDigest 5).val
  base := sampleBase
  rejectedAt := none
  sourceChanges := [change]
  staged := some sampleStaged
  actualDelta := some sampleDelta
  impact := some sampleImpact
  risk := some .high
  requiredVerification := some [.pass "build"]
  rollbackManifestDigest := some (sampleDigest 6).val
  diagnostics := []

def samplePlan (requestId : Text) (change : SemanticMutationSourceChange) : SemanticMutationPlannedRequest :=
  ⟨samplePlanDraft requestId change, semanticMutationPlanRevision (samplePlanDraft requestId change)⟩

/-- The verification of a plan, with its revision. -/
def sampleVerification (plan : SemanticMutationPlannedRequest) (change : SemanticMutationSourceChange) :
    SemanticMutationVerificationExecutionRef :=
  let verification : SemanticMutationVerificationExecutionRef := ⟨"verifier", "verifier-1", (sampleDigest 7).val,
    plan.planRevision, sampleStaged, change.stagedByteDigest,
    semanticMutationRequiredVerificationDigest [.pass "build"], .passed, []⟩
  { verification with
    verificationExecutionRevision := semanticMutationVerificationExecutionRevision verification }

def firstChange : SemanticMutationSourceChange := sampleChange "order.yaml" (sampleDigest 8) (sampleDigest 9)

def firstPlan : SemanticMutationPlannedRequest := samplePlan (sampleRequestId 'a') firstChange

def acceptedEvidence : SemanticMutationTerminalEvidence :=
  .accepted "tx:live" sampleStaged sampleStaged (sampleVerification firstPlan firstChange)

/-- A ready plan, and evidence that its verification passed. -/
theorem buildSemanticMutationResult_sound_accepted :
    ∃ result, assertSemanticMutationResultInvariant result (.planned firstPlan) = .ok () ∧
      AcceptedByVerification (.planned firstPlan) (some acceptedEvidence) := by
  have hplan : assertSemanticMutationPlanInvariant (.planned firstPlan) = .ok () := by decide +kernel
  have hstatus : (buildSemanticMutationResult (.planned firstPlan) (some acceptedEvidence)).map (fun r => r.status) =
      .ok .accepted := by decide +kernel
  obtain ⟨result, hresult, hstatus⟩ := map_eq_ok.mp hstatus
  obtain ⟨hcheck, haccepted⟩ := buildSemanticMutationResult_sound hplan hresult
  exact ⟨result, hcheck, haccepted hstatus⟩

end Example

/-! ## Recovery records -/

/-- What the checker makes of a list of records: it starts with a prepared mutation, its records are numbered
and linked by revision, its states follow the table, and each record has the identity of its own request and
plan. -/
structure RecoveryChain [Sha256] (records : List SemanticMutationRecoveryRecord) : Prop where
  start : ∀ first ∈ records.head?, StartsChain first
  follows : records.IsChain Follows
  sequences : records.map (fun r => r.sequence) = List.range' 1 records.length
  bounded : records.length ≤ 3
  active : ∀ record ∈ records.dropLast, SEMANTIC_MUTATION_RECOVERY_TRANSITIONS record.state ≠ []
  checked : ∀ record ∈ records, CheckedRecord record

theorem assertRecoveryRecords_chain [Sha256] [EnglishLowerCase] {records : List SemanticMutationRecoveryRecord}
    (h : assertRecoveryRecords none records = .ok ()) : RecoveryChain records := by
  obtain ⟨hstart, -, hfollows, hchecked⟩ := chain_of_accepted h
  have hstart := hstart rfl
  obtain ⟨hbounded, hactive⟩ := states_of_chain hstart hfollows
  refine ⟨hstart, hfollows, ?_, hbounded, hactive, hchecked⟩
  cases records with
  | nil => rfl
  | cons first records => rw [sequences_of_chain hfollows, (hstart first rfl).sequence, List.length_cons]

section Example

/-! ### Two mutations in one chain -/

attribute [local instance] requestSha256 asciiLowerCase

/-- A record of a sample plan, without its revision. -/
def sampleRecordContent (sequence : Nat) (previous : Text) (state : SemanticMutationRecoveryState)
    (transactionId requestId : Text) (editPlanRevision : Digest) (change : SemanticMutationSourceChange) :
    SemanticMutationRecoveryRecordContent :=
  let plan := samplePlan requestId change
  let verification := sampleVerification plan change
  { formatRevision := SEMANTIC_MUTATION_RECOVERY_RECORD_REVISION
    sequence := sequence
    previousRecordRevision := previous
    state := state
    transactionId := transactionId
    requestIdentityDigest := semanticMutationRequestIdentityDigest ⟨"graph:app", "app:demo", requestId⟩
    requestRevision := plan.requestRevision
    authorizationRevision := plan.authorizationRevision
    expectedPlanRevision := plan.planRevision
    planRevision := plan.planRevision
    editPlanRevision := editPlanRevision.val
    rollbackManifestDigest := (sampleDigest 6).val
    relativePath := change.relativePath
    beforeByteDigest := change.beforeByteDigest
    committedByteDigest := change.stagedByteDigest
    base := sampleBase
    staged := sampleStaged
    verificationExecutionRevision := verification.verificationExecutionRevision
    verificationReportRevision := verification.reportRevision
    request := .obj (requestMembers (sampleRequest requestId))
    authorization := sampleAuthorizationValue
    plan := .planned plan
    verification := verification
    result := none
    recoveryState := none
    terminalSequence := none
    diagnostics := [] }

def sealedRecord (content : SemanticMutationRecoveryRecordContent) : SemanticMutationRecoveryRecord :=
  ⟨content, semanticMutationRecoveryRecordRevision content⟩

def preparedRecord : SemanticMutationRecoveryRecord :=
  sealedRecord (sampleRecordContent 1 [] .prepared "tx:first" (sampleRequestId 'a') (sampleDigest 10) firstChange)

def committedRecord : SemanticMutationRecoveryRecord :=
  sealedRecord (sampleRecordContent 2 preparedRecord.recordRevision .authoringCommitted "tx:first" (sampleRequestId 'a')
    (sampleDigest 10) firstChange)

/-- The commit of another mutation, which follows the prepared record of the first one. -/
def foreignRecord : SemanticMutationRecoveryRecord :=
  sealedRecord (sampleRecordContent 2 preparedRecord.recordRevision .authoringCommitted "tx:second" (sampleRequestId 'b')
    (sampleDigest 11) (sampleChange "invoice.yaml" (sampleDigest 12) (sampleDigest 13)))

/-- A mutation that is prepared and committed. -/
theorem assertRecoveryRecords_chain_committed : RecoveryChain [preparedRecord, committedRecord] :=
  assertRecoveryRecords_chain (by decide +kernel)

/-- The checker accepts a chain whose second record speaks of another mutation in every respect. -/
theorem assertRecoveryRecords_drifts :
    assertRecoveryRecords none [preparedRecord, foreignRecord] = .ok () ∧
      preparedRecord.transactionId ≠ foreignRecord.transactionId ∧
      preparedRecord.requestIdentityDigest ≠ foreignRecord.requestIdentityDigest ∧
      preparedRecord.requestRevision ≠ foreignRecord.requestRevision ∧
      preparedRecord.planRevision ≠ foreignRecord.planRevision ∧
      preparedRecord.editPlanRevision ≠ foreignRecord.editPlanRevision ∧
      preparedRecord.relativePath ≠ foreignRecord.relativePath ∧
      preparedRecord.beforeByteDigest ≠ foreignRecord.beforeByteDigest ∧
      preparedRecord.committedByteDigest ≠ foreignRecord.committedByteDigest := by
  decide +kernel

end Example

end SecPlatform.Compiler.SemanticMutation
