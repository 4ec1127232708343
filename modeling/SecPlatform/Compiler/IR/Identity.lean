import SecPlatform.Contracts.Canonical
import SecPlatform.Contracts.LogicalPath
import SecPlatform.Library.Except
import SecPlatform.Semantics.EngineeringIR

/-!
# Components of identities

A machine component is literal: it is never escaped, so it may not hold the separators of the identities it is part of.
-/

namespace SecPlatform.Semantics

open Contracts

/-- Trimmed, not empty, without colon and null character; the parts of a field target have no dot either. -/
def isSemanticIdentityComponent (value : Text) (fieldTarget : Bool) : Bool :=
  decide (value ≠ []) && decide (value.trim = value) && !value.contains (unit ':') && !value.contains 0 &&
    (!fieldTarget || !value.contains (unit '.'))

def assertSemanticIdentityComponent (value context : Text) (fieldTarget : Bool) : Except CodedFailure Unit :=
  require (isSemanticIdentityComponent value fieldTarget) ⟨"CONTRACT-SEMANTIC-024", Text.cat
    [context, " requires a literal non-empty, trimmed identity component without colon, NUL",
      if fieldTarget then " or dot" else ""], none⟩

end SecPlatform.Semantics

/-!
## Identities of the engineering IR

The constructors of the ids of entities, the grammar that admits such an id for a kind of entity, and the ids of facts.
-/

namespace SecPlatform.Compiler.IR

open Contracts Semantics

/-! ### The grammar -/

/-- `path.posix.normalize(target.replaceAll('\\', '/'))`. -/
def normalizedArtifactTarget (target : Text) : Text :=
  posixNormalize (target.map fun c => if c = unit '\\' then unit '/' else c)

/-- The two parts of a field target. -/
def isFieldTarget (target : Text) : Bool :=
  match Text.splitAt (unit '.') target with
  | [entityId, fieldId] => isSemanticIdentityComponent entityId true && isSemanticIdentityComponent fieldId true
  | _ => false

/-- The parts of the body of an id, by the kind of the entity. -/
def areCanonicalParts : SemanticEntityKind → List Text → Bool
  | .port, [blockId, direction, id] =>
      isSemanticIdentityComponent blockId false && (direction = "input" || direction = "output") &&
        isSemanticIdentityComponent id false
  | .field, [scope, target] => isSemanticIdentityComponent scope false && isFieldTarget target
  | .responsibilityBinding, [scope, responsibilityId, digest] =>
      isSemanticIdentityComponent scope false && isSemanticIdentityComponent responsibilityId false && isDigestHex digest
  | .generator, [blockId, generatorId] =>
      isSemanticIdentityComponent blockId false && isSemanticIdentityComponent generatorId false
  | .entity, [scope, id] => isSemanticIdentityComponent scope false && isSemanticIdentityComponent id true
  | .responsibility, [scope, id] | .operation, [scope, id] | .scenario, [scope, id] | .state, [scope, id]
  | .event, [scope, id] | .permission, [scope, id] | .effect, [scope, id] | .policy, [scope, id] =>
      isSemanticIdentityComponent scope false && isSemanticIdentityComponent id false
  | .policy, [id] | .app, [id] | .block, [id] | .capability, [id] | .boundary, [id] | .acceptance, [id] =>
      isSemanticIdentityComponent id false
  | _, _ => false

/-- `#step`. -/
def stepSuffix : Text := "#step"

/-- Only the id of the scenario carries the suffix, never its namespace. -/
def areStepParts : List Text → Bool
  | [head, scope, scenario, step] =>
      head = "scenario" && isSemanticIdentityComponent scope false && decide (stepSuffix <:+ scenario) &&
        isSemanticIdentityComponent (scenario.take (scenario.length - stepSuffix.length)) false &&
        isSemanticIdentityComponent step false
  | _ => false

def isCanonicalSemanticEntityIdentity (id : Text) (kind : SemanticEntityKind) : Bool :=
  if id.contains 0 then false
  else if kind = .scenarioStep then areStepParts (Text.splitAt (unit ':') id)
  else if ¬Text.cat [kind.toText, ":"] <+: id then false
  else
    let body := id.drop (kind.toText.length + 1)
    if kind = .artifact then decide (Text.trim body ≠ []) && decide (normalizedArtifactTarget body = body)
    else areCanonicalParts kind (Text.splitAt (unit ':') body)

def assertCanonicalEntityIdentity (id : Text) (kind : SemanticEntityKind) : Except CodedFailure Unit :=
  require (isCanonicalSemanticEntityIdentity id kind) ⟨"IR-IDENTITY-008", Text.cat
    ["Semantic entity \"", id, "\" has ambiguous or non-canonical ", kind.toText,
      " identity; regenerate from valid source"], none⟩

/-! ### Constructors -/

def assertAppIdentity (id : Option Text) : Except CodedFailure Text := do
  let id ← match id with
    | some id => if id.trim ≠ [] then .ok id else
        .error ⟨"IR-IDENTITY-007", "Engineering IR requires a non-empty app.id", none⟩
    | none => .error ⟨"IR-IDENTITY-007", "Engineering IR requires a non-empty app.id", none⟩
  assertSemanticIdentityComponent id "App id" false
  return id

def scopedEntityId (kind : SemanticEntityKind) (scope id : Text) : Except CodedFailure Text := do
  assertSemanticIdentityComponent scope "Semantic namespace" false
  assertSemanticIdentityComponent id (Text.cat [kind.toText, " id"]) false
  return Text.joinWith ":" [kind.toText, scope, id]

def blockEntityId (id : Text) : Except CodedFailure Text := do
  assertSemanticIdentityComponent id "Block id" false
  return Text.joinWith ":" ["block", id]

def portEntityId (blockId direction id : Text) : Except CodedFailure Text := do
  assertSemanticIdentityComponent blockId "Port block id" false
  assertSemanticIdentityComponent id "Port id" false
  require (direction = "input" ∨ direction = "output") ⟨"IR-IDENTITY-008", "Invalid port direction", none⟩
  return Text.joinWith ":" ["port", blockId, direction, id]

def acceptanceEntityId (id : Text) : Except CodedFailure Text := do
  assertSemanticIdentityComponent id "Acceptance id" false
  return Text.joinWith ":" ["acceptance", id]

def verificationPolicyEntityId (id : Text) : Except CodedFailure Text := do
  assertSemanticIdentityComponent id "Verification policy id" false
  return Text.joinWith ":" ["policy", id]

def appEntityId (id : Option Text) : Except CodedFailure Text := do
  let id ← assertAppIdentity id
  return Text.joinWith ":" ["app", id]

def engineeringGraphId (id : Option Text) : Except CodedFailure Text := do
  let id ← assertAppIdentity id
  return Text.joinWith ":" ["engineering-ir", id]

def capabilityEntityId (id : Text) : Except CodedFailure Text := do
  assertSemanticIdentityComponent id "Capability id" false
  return Text.joinWith ":" ["capability", id]

def contractEntityId (scope id : Text) : Except CodedFailure Text := do
  assertSemanticIdentityComponent id "Entity id" true
  scopedEntityId .entity scope id

def contractFieldId (scope entityId fieldId : Text) : Except CodedFailure Text := do
  assertSemanticIdentityComponent scope "Semantic namespace" false
  assertSemanticIdentityComponent entityId "Entity id" true
  assertSemanticIdentityComponent fieldId "Field id" true
  return Text.joinWith ":" ["field", scope, Text.joinWith "." [entityId, fieldId]]

def contractResponsibilityId (scope id : Text) : Except CodedFailure Text := scopedEntityId .responsibility scope id

def contractOperationId (scope id : Text) : Except CodedFailure Text := scopedEntityId .operation scope id

def contractStateId (scope id : Text) : Except CodedFailure Text := scopedEntityId .state scope id

def contractEventId (scope id : Text) : Except CodedFailure Text := scopedEntityId .event scope id

def contractPolicyId (scope id : Text) : Except CodedFailure Text := scopedEntityId .policy scope id

def contractPermissionId (scope id : Text) : Except CodedFailure Text := scopedEntityId .permission scope id

def contractEffectId (scope id : Text) : Except CodedFailure Text := scopedEntityId .effect scope id

def contractScenarioId (scope id : Text) : Except CodedFailure Text := scopedEntityId .scenario scope id

def generatorEntityId (blockId generatorId : Text) : Except CodedFailure Text := do
  assertSemanticIdentityComponent blockId "Generator block id" false
  assertSemanticIdentityComponent generatorId "Generator id" false
  return Text.joinWith ":" ["generator", blockId, generatorId]

def artifactEntityId (target : Text) : Except CodedFailure Text := do
  let id := Text.joinWith ":" ["artifact", normalizedArtifactTarget target]
  assertCanonicalEntityIdentity id .artifact
  return id

def scenarioStepEntityId (scenarioId stepId : Text) : Except CodedFailure Text := do
  assertCanonicalEntityIdentity scenarioId .scenario
  assertSemanticIdentityComponent stepId "Scenario step id" false
  return Text.cat [scenarioId, stepSuffix, ":", stepId]

structure ResponsibilityBinding where
  scope : Text
  responsibilityId : Text
  targetKind : Text
  targetId : Text
  declarationPath : Text
  declarationExportName : Text
  deriving DecidableEq

/-- The text that stands for the target and the declaration of a binding. -/
def ResponsibilityBinding.declaration (binding : ResponsibilityBinding) : Text := Json.render (.obj [
  ("targetKind", .str binding.targetKind),
  ("targetId", .str binding.targetId),
  ("declarationPath", .str (normalizedArtifactTarget binding.declarationPath)),
  ("declarationExportName", .str binding.declarationExportName)] : Value)

/-- `isCanonicalSemanticEntityIdentity` for a kind that may be none. -/
def assertCanonicalTarget (targetId targetKind : Text) : Except CodedFailure Unit :=
  match SEMANTIC_ENTITY_KINDS.find? fun kind => decide (kind.toText = targetKind) with
  | some kind => assertCanonicalEntityIdentity targetId kind
  | none => .error ⟨"IR-IDENTITY-008", Text.cat
      ["Semantic entity \"", targetId, "\" has ambiguous or non-canonical ", targetKind,
        " identity; regenerate from valid source"], none⟩

section Hash

variable [Sha256]

/-- `digest` of the contracts: the hexadecimal digits without the name of the hash. -/
def digestHex (value : Text) : Text := (Sha256.rawSha256 value).val.drop 7

def contractResponsibilityBindingId (binding : ResponsibilityBinding) : Except CodedFailure Text := do
  assertSemanticIdentityComponent binding.scope "Semantic namespace" false
  assertSemanticIdentityComponent binding.responsibilityId "Responsibility id" false
  assertSemanticIdentityComponent binding.targetKind "Binding target kind" false
  assertCanonicalTarget binding.targetId binding.targetKind
  return Text.joinWith ":"
    ["responsibility-binding", binding.scope, binding.responsibilityId, digestHex binding.declaration]

/-! ### Constructions -/

/-- A call of one of the constructors. -/
inductive EntityConstruction where
  | app (id : Option Text)
  | block (id : Text)
  | port (blockId direction id : Text)
  | acceptance (id : Text)
  | verificationPolicy (id : Text)
  | capability (id : Text)
  | entity (scope id : Text)
  | field (scope entityId fieldId : Text)
  | responsibility (scope id : Text)
  | responsibilityBinding (binding : ResponsibilityBinding)
  | operation (scope id : Text)
  | state (scope id : Text)
  | event (scope id : Text)
  | policy (scope id : Text)
  | permission (scope id : Text)
  | effect (scope id : Text)
  | scenario (scope id : Text)
  | generator (blockId generatorId : Text)
  | artifact (target : Text)
  | scenarioStep (scenarioId stepId : Text)
  deriving DecidableEq

namespace EntityConstruction

def construct : EntityConstruction → Except CodedFailure Text
  | .app id => appEntityId id
  | .block id => blockEntityId id
  | .port blockId direction id => portEntityId blockId direction id
  | .acceptance id => acceptanceEntityId id
  | .verificationPolicy id => verificationPolicyEntityId id
  | .capability id => capabilityEntityId id
  | .entity scope id => contractEntityId scope id
  | .field scope entityId fieldId => contractFieldId scope entityId fieldId
  | .responsibility scope id => contractResponsibilityId scope id
  | .responsibilityBinding binding => contractResponsibilityBindingId binding
  | .operation scope id => contractOperationId scope id
  | .state scope id => contractStateId scope id
  | .event scope id => contractEventId scope id
  | .policy scope id => contractPolicyId scope id
  | .permission scope id => contractPermissionId scope id
  | .effect scope id => contractEffectId scope id
  | .scenario scope id => contractScenarioId scope id
  | .generator blockId generatorId => generatorEntityId blockId generatorId
  | .artifact target => artifactEntityId target
  | .scenarioStep scenarioId stepId => scenarioStepEntityId scenarioId stepId

/-- The kind of the entity that a constructor names. -/
def kind : EntityConstruction → SemanticEntityKind
  | .app _ => .app
  | .block _ => .block
  | .port .. => .port
  | .acceptance _ => .acceptance
  | .verificationPolicy _ | .policy .. => .policy
  | .capability _ => .capability
  | .entity .. => .entity
  | .field .. => .field
  | .responsibility .. => .responsibility
  | .responsibilityBinding _ => .responsibilityBinding
  | .operation .. => .operation
  | .state .. => .state
  | .event .. => .event
  | .permission .. => .permission
  | .effect .. => .effect
  | .scenario .. => .scenario
  | .generator .. => .generator
  | .artifact _ => .artifact
  | .scenarioStep .. => .scenarioStep

/-- The components, a target of an artifact and a path of a declaration in their normal form. -/
def components : EntityConstruction → List Text
  | .app id => id.toList
  | .block id | .acceptance id | .verificationPolicy id | .capability id => [id]
  | .port blockId direction id => [blockId, direction, id]
  | .entity scope id | .responsibility scope id | .operation scope id | .state scope id | .event scope id
  | .policy scope id | .permission scope id | .effect scope id | .scenario scope id => [scope, id]
  | .field scope entityId fieldId => [scope, entityId, fieldId]
  | .responsibilityBinding binding => [binding.scope, binding.responsibilityId, binding.targetKind, binding.targetId,
      normalizedArtifactTarget binding.declarationPath, binding.declarationExportName]
  | .generator blockId generatorId => [blockId, generatorId]
  | .artifact target => [normalizedArtifactTarget target]
  | .scenarioStep scenarioId stepId => [scenarioId, stepId]

end EntityConstruction

end Hash

/-! ### Facts -/

mutual
/-- The members of every object are created in the order of their keys. -/
def normalizeSemanticValue : Value → Value
  | .arr items => .arr (normalizeSemanticItems items)
  | .obj members => .obj (canonicalOrder (normalizeSemanticMembers members))
  | .null => .null
  | .bool b => .bool b
  | .num n => .num n
  | .str s => .str s

def normalizeSemanticItems : List Value → List Value
  | [] => []
  | v :: vs => normalizeSemanticValue v :: normalizeSemanticItems vs

def normalizeSemanticMembers : List (Text × Value) → List (Text × Value)
  | [] => []
  | (k, v) :: ms => (k, normalizeSemanticValue v) :: normalizeSemanticMembers ms
end

def objectKey : SemanticFactObject → Text
  | .entity entityId => Text.cat ["entity:", entityId]
  | .value content => Text.cat ["value:", Json.render (normalizeSemanticValue content.val)]

/-- The entity id of an object that is one. -/
def objectEntityId : SemanticFactObject → Option Text
  | .entity entityId => some entityId
  | .value _ => none

def factIdentity (subject : Text) (predicate : SemanticPredicate) (object : SemanticFactObject) :
    Except CodedFailure Text := do
  require (¬(0 ∈ subject ∨ 0 ∈ predicate.toText ∨ (objectEntityId object).any fun entityId => entityId.contains 0))
    ⟨"IR-IDENTITY-008", "Fact identity components cannot contain NUL; regenerate from valid source", none⟩
  return Text.cat [subject, [0], predicate.toText, [0], objectKey object]

end SecPlatform.Compiler.IR
