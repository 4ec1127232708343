import SecPlatform.VerificationAction.Data

/-!
# The identity of an Action

An Action is what is done, by whom, on which inputs, in which environment and after which other Actions. The
digest of these, its ActionKey, names it. Every record below holds only what its checks let through.
-/

namespace SecPlatform.VerificationAction

open Contracts

/-! ## Records -/

structure VerificationActionProducer where
  identity : BoundedText
  revision : BoundedText
  deriving DecidableEq

structure VerificationActionEnvironmentBinding where
  name : BoundedText
  digest : Digest
  deriving DecidableEq

def VerificationActionEnvironmentBinding.key (binding : VerificationActionEnvironmentBinding) : Text := binding.name.val

structure VerificationActionOperation where
  identity : BoundedText
  revision : BoundedText
  semanticDigest : Digest
  workingDirectory : RelativeWorkingDirectory
  declaredEnvironment : AscendingList VerificationActionEnvironmentBinding.key
  deriving DecidableEq

structure VerificationActionInputRef where
  path : RelativeInputPath
  digest : Digest
  deriving DecidableEq

def VerificationActionInputRef.key (ref : VerificationActionInputRef) : Text := ref.path.val

structure VerificationActionEnvironment where
  toolchainRevision : BoundedText
  providerRevision : BoundedText
  contractRevision : BoundedText
  deriving DecidableEq

abbrev VerificationActionKeyDigest : Type := Digest

abbrev ActionKeyList : Type := AscendingList fun key : VerificationActionKeyDigest => key.val

structure VerificationActionKeyInput where
  actionKind : BoundedText
  producer : VerificationActionProducer
  operation : VerificationActionOperation
  inputClosure : AscendingList VerificationActionInputRef.key
  environment : VerificationActionEnvironment
  requiredCheapPreflightActionKeys : ActionKeyList
  upstreamActionKeys : ActionKeyList
  resultSchemaRevision : BoundedText
  apart : ∀ key ∈ upstreamActionKeys.val, key ∉ requiredCheapPreflightActionKeys.val
  deriving DecidableEq

/-! ## Their values

The members stand in the order of their keys: the order in which they are written. -/

def digestValue (d : Digest) : Value := .str d.val

def digestArray (digests : List Digest) : Value := .arr (digests.map digestValue)

def VerificationActionProducer.members (producer : VerificationActionProducer) : List (Text × Value) :=
  [("identity", .str producer.identity.val), ("revision", .str producer.revision.val)]

def VerificationActionProducer.toValue (producer : VerificationActionProducer) : Value := .obj producer.members

def VerificationActionEnvironmentBinding.members (binding : VerificationActionEnvironmentBinding) : List (Text × Value) :=
  [("digest", .str binding.digest.val), ("name", .str binding.name.val)]

def VerificationActionEnvironmentBinding.toValue (binding : VerificationActionEnvironmentBinding) : Value := .obj binding.members

def VerificationActionOperation.members (operation : VerificationActionOperation) : List (Text × Value) := [
  ("declaredEnvironment",
    .arr (operation.declaredEnvironment.val.map VerificationActionEnvironmentBinding.toValue)),
  ("identity", .str operation.identity.val),
  ("revision", .str operation.revision.val),
  ("semanticDigest", .str operation.semanticDigest.val),
  ("workingDirectory", .str operation.workingDirectory.val)]

def VerificationActionOperation.toValue (operation : VerificationActionOperation) : Value := .obj operation.members

def VerificationActionInputRef.members (ref : VerificationActionInputRef) : List (Text × Value) :=
  [("digest", .str ref.digest.val), ("path", .str ref.path.val)]

def VerificationActionInputRef.toValue (ref : VerificationActionInputRef) : Value := .obj ref.members

def VerificationActionEnvironment.members (environment : VerificationActionEnvironment) : List (Text × Value) := [
  ("contractRevision", .str environment.contractRevision.val),
  ("providerRevision", .str environment.providerRevision.val),
  ("toolchainRevision", .str environment.toolchainRevision.val)]

def VerificationActionEnvironment.toValue (environment : VerificationActionEnvironment) : Value := .obj environment.members

def VerificationActionKeyInput.members (input : VerificationActionKeyInput) : List (Text × Value) := [
  ("actionKind", .str input.actionKind.val),
  ("environment", input.environment.toValue),
  ("inputClosure", .arr (input.inputClosure.val.map VerificationActionInputRef.toValue)),
  ("operation", input.operation.toValue),
  ("producer", input.producer.toValue),
  ("requiredCheapPreflightActionKeys", digestArray input.requiredCheapPreflightActionKeys.val),
  ("resultSchemaRevision", .str input.resultSchemaRevision.val),
  ("upstreamActionKeys", digestArray input.upstreamActionKeys.val)]

def VerificationActionKeyInput.toValue (input : VerificationActionKeyInput) : Value := .obj input.members

def verificationActionKeySchema : Text := "sec-verification-action-key-v2"

/-- `{ schema, ...input }`. -/
def VerificationActionKeyInput.schemaValue (input : VerificationActionKeyInput) : Value := .obj [
  ("actionKind", .str input.actionKind.val),
  ("environment", input.environment.toValue),
  ("inputClosure", .arr (input.inputClosure.val.map VerificationActionInputRef.toValue)),
  ("operation", input.operation.toValue),
  ("producer", input.producer.toValue),
  ("requiredCheapPreflightActionKeys", digestArray input.requiredCheapPreflightActionKeys.val),
  ("resultSchemaRevision", .str input.resultSchemaRevision.val),
  ("schema", .str verificationActionKeySchema),
  ("upstreamActionKeys", digestArray input.upstreamActionKeys.val)]

/-! ## Parsing -/

/-- The member of a record, under its label. -/
def canonicalEnvironmentBinding (index : Nat) (candidate : Value) :
    Except ActionFailure VerificationActionEnvironmentBinding := do
  let label := indexed "operation.declaredEnvironment" index
  let value ← ordinaryRecord candidate label
  exactKeys value ["name", "digest"] label
  return {
    name := ← text (member value "name") (Text.cat [label, ".name"])
    digest := ← digest (member value "digest") (Text.cat [label, ".digest"]) }

def canonicalEnvironmentBindings (input : BoundedList Value) :
    Except ActionFailure (AscendingList VerificationActionEnvironmentBinding.key) := do
  let bindings ← input.mapIndexed canonicalEnvironmentBinding
  sortedUnique _ (fun binding => refusal "operation.declaredEnvironment"
    (Text.cat ["contains duplicate name ", binding.name.val, "."])) bindings

def canonicalInputRef (index : Nat) (candidate : Value) : Except ActionFailure VerificationActionInputRef := do
  let label := indexed "inputClosure" index
  let value ← ordinaryRecord candidate label
  exactKeys value ["path", "digest"] label
  return {
    path := ← relativeInputPath (member value "path") (Text.cat [label, ".path"])
    digest := ← digest (member value "digest") (Text.cat [label, ".digest"]) }

def canonicalInputClosure (input : BoundedList Value) :
    Except ActionFailure (AscendingList VerificationActionInputRef.key) := do
  let refs ← input.mapIndexed canonicalInputRef
  sortedUnique _ (fun ref => refusal "inputClosure" (Text.cat ["contains duplicate path ", ref.path.val, "."])) refs

def canonicalActionKeys (input : BoundedList Value) (label : Text) : Except ActionFailure ActionKeyList := do
  let keys ← input.mapIndexed fun index candidate => digest candidate (indexed label index)
  sortedUnique _ (fun _ => refusal label "contains a duplicate key.") keys

def forbiddenIdentityKeys : List Text :=
  ["branch", "branchName", "headRef", "pullRequest", "prNumber", "wallClock", "timestamp", "pid", "processId", "tempPath",
    "temporaryPath", "absoluteTempPath", "chat", "argv", "runtime", "absoluteWorkingDirectory", "configPath"]

mutual
/-- `assertNoIdentityKey` of a value that is known to be ordinary data. -/
def assertNoIdentityKey (label : Text) : Value → Except ActionFailure Unit
  | .arr items => assertNoIdentityKeyItems label 0 items
  | .obj members => assertNoIdentityKeyMembers label members
  | .null | .bool _ | .num _ | .str _ => .ok ()

def assertNoIdentityKeyItems (label : Text) (index : Nat) : List Value → Except ActionFailure Unit
  | [] => .ok ()
  | item :: items => do
      assertNoIdentityKey (indexed label index) item
      assertNoIdentityKeyItems label (index + 1) items

def assertNoIdentityKeyMembers (label : Text) : List (Text × Value) → Except ActionFailure Unit
  | [] => .ok ()
  | (key, value) :: members => do
      require (key ∉ forbiddenIdentityKeys)
        (refusal label (Text.cat ["contains forbidden semantic identity field ", key, "."]))
      assertNoIdentityKey (Text.cat [label, ".", key]) value
      assertNoIdentityKeyMembers label members
end

def keyInputLabel : Text := "VerificationAction key input"

def keyInputKeys : List Text :=
  ["actionKind", "producer", "operation", "inputClosure", "environment", "requiredCheapPreflightActionKeys",
    "upstreamActionKeys", "resultSchemaRevision"]

def canonicalProducer (producer : List (Text × Value)) : Except ActionFailure VerificationActionProducer := do
  return {
    identity := ← text (member producer "identity") "producer.identity"
    revision := ← text (member producer "revision") "producer.revision" }

def canonicalOperation (operation : List (Text × Value)) (declaredEnvironment : BoundedList Value) :
    Except ActionFailure VerificationActionOperation := do
  return {
    identity := ← text (member operation "identity") "operation.identity"
    revision := ← text (member operation "revision") "operation.revision"
    semanticDigest := ← digest (member operation "semanticDigest") "operation.semanticDigest"
    workingDirectory := ← relativeWorkingDirectory (member operation "workingDirectory") "operation.workingDirectory"
    declaredEnvironment := ← canonicalEnvironmentBindings declaredEnvironment }

def canonicalEnvironment (environment : List (Text × Value)) : Except ActionFailure VerificationActionEnvironment := do
  return {
    toolchainRevision := ← text (member environment "toolchainRevision") "environment.toolchainRevision"
    providerRevision := ← text (member environment "providerRevision") "environment.providerRevision"
    contractRevision := ← text (member environment "contractRevision") "environment.contractRevision" }

/-- The check that the two sets of ActionKeys do not overlap. -/
def assertApart (upstream cheap : ActionKeyList) :
    Except ActionFailure (PLift (∀ key ∈ upstream.val, key ∉ cheap.val)) :=
  if h : ∀ key ∈ upstream.val, key ∉ cheap.val then .ok ⟨h⟩
  else refuse keyInputLabel "required cheap-preflight and upstream ActionKey sets cannot overlap."

def canonicalInput (input : Value) : Except ActionFailure VerificationActionKeyInput := do
  let value ← ordinaryRecord input keyInputLabel
  assertNoIdentityKey keyInputLabel (.obj value)
  exactKeys value keyInputKeys keyInputLabel
  let producer ← ordinaryRecord (member value "producer") "producer"
  exactKeys producer ["identity", "revision"] "producer"
  let operation ← ordinaryRecord (member value "operation") "operation"
  exactKeys operation ["identity", "revision", "semanticDigest", "workingDirectory", "declaredEnvironment"] "operation"
  let environment ← ordinaryRecord (member value "environment") "environment"
  exactKeys environment ["toolchainRevision", "providerRevision", "contractRevision"] "environment"
  let declaredEnvironment ← ordinaryArray (member operation "declaredEnvironment") "operation.declaredEnvironment"
  let inputClosure ← ordinaryArray (member value "inputClosure") "inputClosure"
  let requiredCheapPreflightActionKeys ←
    ordinaryArray (member value "requiredCheapPreflightActionKeys") "requiredCheapPreflightActionKeys"
  let upstreamActionKeys ← ordinaryArray (member value "upstreamActionKeys") "upstreamActionKeys"
  let canonicalCheap ← canonicalActionKeys requiredCheapPreflightActionKeys "requiredCheapPreflightActionKeys"
  let canonicalUpstream ← canonicalActionKeys upstreamActionKeys "upstreamActionKeys"
  let apart ← assertApart canonicalUpstream canonicalCheap
  return {
    actionKind := ← text (member value "actionKind") "actionKind"
    producer := ← canonicalProducer producer
    operation := ← canonicalOperation operation declaredEnvironment
    inputClosure := ← canonicalInputClosure inputClosure
    environment := ← canonicalEnvironment environment
    requiredCheapPreflightActionKeys := canonicalCheap
    upstreamActionKeys := canonicalUpstream
    resultSchemaRevision := ← text (member value "resultSchemaRevision") "resultSchemaRevision"
    apart := apart.down }

/-! ## Keys -/

section Keys

variable [Sha256]

def keyDigest (input : VerificationActionKeyInput) : VerificationActionKeyDigest :=
  Sha256.rawSha256 (encodeCanonical input.schemaValue)

structure VerificationActionKey extends VerificationActionKeyInput where
  actionKey : VerificationActionKeyDigest
  binds : actionKey = keyDigest toVerificationActionKeyInput
  deriving DecidableEq

def VerificationActionKey.members (action : VerificationActionKey) : List (Text × Value) := [
  ("actionKey", .str action.actionKey.val),
  ("actionKind", .str action.actionKind.val),
  ("environment", action.environment.toValue),
  ("inputClosure", .arr (action.inputClosure.val.map VerificationActionInputRef.toValue)),
  ("operation", action.operation.toValue),
  ("producer", action.producer.toValue),
  ("requiredCheapPreflightActionKeys", digestArray action.requiredCheapPreflightActionKeys.val),
  ("resultSchemaRevision", .str action.resultSchemaRevision.val),
  ("schema", .str verificationActionKeySchema),
  ("upstreamActionKeys", digestArray action.upstreamActionKeys.val)]

def VerificationActionKey.toValue (action : VerificationActionKey) : Value := .obj action.members

def createVerificationActionKey (input : Value) : Except ActionFailure VerificationActionKey := do
  let canonical ← canonicalInput input
  return ⟨canonical, keyDigest canonical, rfl⟩

def keyLabel : Text := "VerificationAction key"

def parseJson (source : Text) : Except ActionFailure Value :=
  match Json.parse source with
  | some value => .ok value
  | none => .error (.error "VerificationAction key is not valid JSON.")

def parseVerificationActionKey (source : Text) : Except ActionFailure VerificationActionKey := do
  let parsed ← parseJson source
  let value ← ordinaryRecord parsed keyLabel
  exactKeys value ([Text.ofString "schema"] ++ keyInputKeys ++ [Text.ofString "actionKey"]) keyLabel
  require (member value "schema" = .str verificationActionKeySchema) (refusal keyLabel "schema mismatch.")
  let withoutDigest : Value := .obj (keyInputKeys.map fun key => (key, member value key))
  let canonical ← canonicalInput withoutDigest
  require (member value "actionKey" = .str (keyDigest canonical).val) (refusal keyLabel "digest mismatch.")
  createVerificationActionKey canonical.toValue

end Keys

end SecPlatform.VerificationAction
