import SecPlatform.Contracts.ObjectGraph

/-!
# The engineering IR

Entities, facts with their assertions, and the difference of two sets of facts. Numbers are finite and
values are plain trees, as the validator of the IR demands. `toValue` lists the fields of a record in the
order of their declaration, an absent field left out.
-/

namespace SecPlatform.Semantics

open Contracts

/-! ## Values -/

/-- The members of a record, of which some may be absent. -/
def present (fields : List (Text × Option Value)) : List (Text × Value) :=
  fields.filterMap fun field => field.2.map fun value => (field.1, value)

def texts (values : List Text) : Value := .arr (values.map .str)

abbrev FiniteNumber := { n : JsNumber // n.isFinite }

/-- `SemanticValue`. -/
abbrev SemanticValue := FiniteValue

inductive SemanticAttributeValue where
  | text (value : Text)
  | number (value : FiniteNumber)
  | boolean (value : Bool)
  | null
  | array (values : List Text)
  deriving DecidableEq

def SemanticAttributeValue.toValue : SemanticAttributeValue → Value
  | .text value => .str value
  | .number value => .num value.val
  | .boolean value => .bool value
  | .null => .null
  | .array values => texts values

/-! ## Entities -/

inductive SemanticEntityKind where
  | app | block | capability | port | entity | field | responsibility | responsibilityBinding | operation
  | scenario | scenarioStep | state | event | policy | permission | effect | boundary | generator | artifact
  | acceptance
  deriving DecidableEq, Repr

def SemanticEntityKind.toText : SemanticEntityKind → Text
  | .app => "app"
  | .block => "block"
  | .capability => "capability"
  | .port => "port"
  | .entity => "entity"
  | .field => "field"
  | .responsibility => "responsibility"
  | .responsibilityBinding => "responsibility-binding"
  | .operation => "operation"
  | .scenario => "scenario"
  | .scenarioStep => "scenario-step"
  | .state => "state"
  | .event => "event"
  | .policy => "policy"
  | .permission => "permission"
  | .effect => "effect"
  | .boundary => "boundary"
  | .generator => "generator"
  | .artifact => "artifact"
  | .acceptance => "acceptance"

structure SemanticAttribute where
  key : Text
  value : SemanticAttributeValue
  deriving DecidableEq

def SemanticAttribute.toValue (a : SemanticAttribute) : Value := .obj [("key", .str a.key), ("value", a.value.toValue)]

structure SemanticEntity where
  id : Text
  kind : SemanticEntityKind
  label : Text
  attributes : List SemanticAttribute
  deriving DecidableEq

def SemanticEntity.toValue (e : SemanticEntity) : Value := .obj [
  ("id", .str e.id),
  ("kind", .str e.kind.toText),
  ("label", .str e.label),
  ("attributes", .arr (e.attributes.map SemanticAttribute.toValue))]

/-! ## Facts -/

inductive SemanticPredicate where
  | contains | declares | implements | dependsOn | provides | assumes | requires | guarantees | connectsTo
  | invokes | precedes | awaits | forksTo | joins | retries | handles | emits | consumes | flowsTo
  | derivesFrom | transformsTo | validates | sanitizes | serializesAs | deserializesFrom | persistsAs | owns
  | reads | writes | mutates | initializes | disposes | escapes | transitionsTo | performsEffect
  | requiresPermission | crossesBoundary | enforces | verifiedBy | originatesFrom | lowersTo | generates
  | violates
  deriving DecidableEq, Repr

def SemanticPredicate.toText : SemanticPredicate → Text
  | .contains => "CONTAINS"
  | .declares => "DECLARES"
  | .implements => "IMPLEMENTS"
  | .dependsOn => "DEPENDS_ON"
  | .provides => "PROVIDES"
  | .assumes => "ASSUMES"
  | .requires => "REQUIRES"
  | .guarantees => "GUARANTEES"
  | .connectsTo => "CONNECTS_TO"
  | .invokes => "INVOKES"
  | .precedes => "PRECEDES"
  | .awaits => "AWAITS"
  | .forksTo => "FORKS_TO"
  | .joins => "JOINS"
  | .retries => "RETRIES"
  | .handles => "HANDLES"
  | .emits => "EMITS"
  | .consumes => "CONSUMES"
  | .flowsTo => "FLOWS_TO"
  | .derivesFrom => "DERIVES_FROM"
  | .transformsTo => "TRANSFORMS_TO"
  | .validates => "VALIDATES"
  | .sanitizes => "SANITIZES"
  | .serializesAs => "SERIALIZES_AS"
  | .deserializesFrom => "DESERIALIZES_FROM"
  | .persistsAs => "PERSISTS_AS"
  | .owns => "OWNS"
  | .reads => "READS"
  | .writes => "WRITES"
  | .mutates => "MUTATES"
  | .initializes => "INITIALIZES"
  | .disposes => "DISPOSES"
  | .escapes => "ESCAPES"
  | .transitionsTo => "TRANSITIONS_TO"
  | .performsEffect => "PERFORMS_EFFECT"
  | .requiresPermission => "REQUIRES_PERMISSION"
  | .crossesBoundary => "CROSSES_BOUNDARY"
  | .enforces => "ENFORCES"
  | .verifiedBy => "VERIFIED_BY"
  | .originatesFrom => "ORIGINATES_FROM"
  | .lowersTo => "LOWERS_TO"
  | .generates => "GENERATES"
  | .violates => "VIOLATES"

def SEMANTIC_PREDICATES : List SemanticPredicate := [
  .contains, .declares, .implements, .dependsOn, .provides, .assumes, .requires, .guarantees, .connectsTo,
  .invokes, .precedes, .awaits, .forksTo, .joins, .retries, .handles, .emits, .consumes, .flowsTo,
  .derivesFrom, .transformsTo, .validates, .sanitizes, .serializesAs, .deserializesFrom, .persistsAs, .owns,
  .reads, .writes, .mutates, .initializes, .disposes, .escapes, .transitionsTo, .performsEffect,
  .requiresPermission, .crossesBoundary, .enforces, .verifiedBy, .originatesFrom, .lowersTo, .generates,
  .violates]

def SEMANTIC_ENTITY_KINDS : List SemanticEntityKind := [
  .app, .block, .capability, .port, .entity, .field, .responsibility, .responsibilityBinding, .operation,
  .scenario, .scenarioStep, .state, .event, .policy, .permission, .effect, .boundary, .generator, .artifact,
  .acceptance]

inductive SemanticAuthority where
  | authoritative | derived | observed | inferred
  deriving DecidableEq, Repr

def SemanticAuthority.toText : SemanticAuthority → Text
  | .authoritative => "authoritative"
  | .derived => "derived"
  | .observed => "observed"
  | .inferred => "inferred"

inductive FactProvenanceKind where
  | contract | compiler | staticAnalysis | runtime | ai | user | externalProvider
  deriving DecidableEq, Repr

def FactProvenanceKind.toText : FactProvenanceKind → Text
  | .contract => "contract"
  | .compiler => "compiler"
  | .staticAnalysis => "static-analysis"
  | .runtime => "runtime"
  | .ai => "ai"
  | .user => "user"
  | .externalProvider => "external-provider"

inductive SemanticFactObject where
  | entity (entityId : Text)
  | value (content : SemanticValue)
  deriving DecidableEq

def SemanticFactObject.toValue : SemanticFactObject → Value
  | .entity entityId => .obj [("kind", .str "entity"), ("entityId", .str entityId)]
  | .value content => .obj [("kind", .str "value"), ("value", content.val)]

structure FactProvenance where
  kind : FactProvenanceKind
  sourceId : Text
  sourcePath : Option Text
  revision : Option Text
  deriving DecidableEq

def FactProvenance.toValue (p : FactProvenance) : Value := .obj (present [
  ("kind", some (.str p.kind.toText)),
  ("sourceId", some (.str p.sourceId)),
  ("sourcePath", p.sourcePath.map .str),
  ("revision", p.revision.map .str)])

structure EvidenceReference where
  kind : Text
  ref : Text
  digest : Option Text
  deriving DecidableEq

def EvidenceReference.toValue (e : EvidenceReference) : Value := .obj (present [
  ("kind", some (.str e.kind)),
  ("ref", some (.str e.ref)),
  ("digest", e.digest.map .str)])

structure FactAssertion where
  id : Text
  authority : SemanticAuthority
  confidence : FiniteNumber
  provenance : List FactProvenance
  evidence : List EvidenceReference
  validFromRevision : Text
  validToRevision : Option Text
  deriving DecidableEq

def FactAssertion.toValue (a : FactAssertion) : Value := .obj (present [
  ("id", some (.str a.id)),
  ("authority", some (.str a.authority.toText)),
  ("confidence", some (.num a.confidence.val)),
  ("provenance", some (.arr (a.provenance.map FactProvenance.toValue))),
  ("evidence", some (.arr (a.evidence.map EvidenceReference.toValue))),
  ("validFromRevision", some (.str a.validFromRevision)),
  ("validToRevision", a.validToRevision.map .str)])

structure SemanticFact where
  id : Text
  subject : Text
  predicate : SemanticPredicate
  object : SemanticFactObject
  assertions : List FactAssertion
  deriving DecidableEq

/-- A fact with its assertions written in one of two ways. -/
def SemanticFact.toValueWith (assertion : FactAssertion → Value) (f : SemanticFact) : Value := .obj [
  ("id", .str f.id),
  ("subject", .str f.subject),
  ("predicate", .str f.predicate.toText),
  ("object", f.object.toValue),
  ("assertions", .arr (f.assertions.map assertion))]

def SemanticFact.toValue : SemanticFact → Value := SemanticFact.toValueWith FactAssertion.toValue

/-! ## Scenarios and graphs -/

structure ScenarioStepDefinition where
  id : Text
  operationEntityId : Text
  afterStepIds : List Text
  awaits : Bool
  retryMaxAttempts : Option FiniteNumber
  onErrorStepId : Option Text
  deriving DecidableEq

structure ScenarioDefinition where
  id : Text
  label : Text
  entryEntityId : Text
  factIds : List Text
  steps : List ScenarioStepDefinition
  acceptanceEntityIds : List Text
  deriving DecidableEq

def ScenarioStepDefinition.toValue (s : ScenarioStepDefinition) : Value := .obj (present [
  ("id", some (.str s.id)),
  ("operationEntityId", some (.str s.operationEntityId)),
  ("afterStepIds", some (texts s.afterStepIds)),
  ("awaits", some (.bool s.awaits)),
  ("retryMaxAttempts", s.retryMaxAttempts.map fun n => .num n.val),
  ("onErrorStepId", s.onErrorStepId.map .str)])

def ScenarioDefinition.toValue (s : ScenarioDefinition) : Value := .obj [
  ("id", .str s.id),
  ("label", .str s.label),
  ("entryEntityId", .str s.entryEntityId),
  ("factIds", texts s.factIds),
  ("steps", .arr (s.steps.map ScenarioStepDefinition.toValue)),
  ("acceptanceEntityIds", texts s.acceptanceEntityIds)]

structure EngineeringIR where
  formatVersion : Text
  graphId : Text
  inputRevision : Text
  semanticRevision : Text
  appId : Text
  entities : List SemanticEntity
  facts : List SemanticFact
  scenarios : List ScenarioDefinition
  deriving DecidableEq

/-! ## Snapshots -/

/-- The ids of a collection are strictly increasing. -/
def CanonicalIds {α : Type} (id : α → Text) (values : List α) : Prop := values.Pairwise fun a b => id a < id b

/-- What the validator of the IR has checked of its entities and facts: unique ids in order, and assertions
that are valid from the revision of the graph on. -/
structure IsValidated (ir : EngineeringIR) : Prop where
  entities : CanonicalIds SemanticEntity.id ir.entities
  facts : CanonicalIds SemanticFact.id ir.facts
  assertions : ∀ fact ∈ ir.facts, CanonicalIds FactAssertion.id fact.assertions
  validity : ∀ fact ∈ ir.facts, ∀ assertion ∈ fact.assertions,
    assertion.validFromRevision = ir.semanticRevision ∧ assertion.validToRevision = none

structure ValidatedEngineeringIRSnapshot where
  ir : EngineeringIR
  validated : IsValidated ir

/-- A snapshot with the audit label of its transaction and its revisions. -/
structure FactDeltaEndpointContext where
  transactionId : Text
  inputRevision : Text
  semanticRevision : Text
  snapshot : ValidatedEngineeringIRSnapshot

/-! ## Fact deltas -/

inductive FactAssertionUpdateField where
  | confidence | evidence
  deriving DecidableEq, Repr

def FactAssertionUpdateField.toText : FactAssertionUpdateField → Text
  | .confidence => "confidence"
  | .evidence => "evidence"

structure FactDeltaEndpoint where
  transactionId : Text
  inputRevision : Text
  semanticRevision : Text
  deriving DecidableEq

/-- The confidence and the evidence of an assertion. -/
structure AssertionClaim where
  confidence : FiniteNumber
  evidence : List EvidenceReference
  deriving DecidableEq

structure FactAssertionUpdate where
  assertionId : Text
  changedFields : List FactAssertionUpdateField
  before : AssertionClaim
  after : AssertionClaim
  deriving DecidableEq

structure SemanticFactChange where
  factId : Text
  addedAssertions : List FactAssertion
  removedAssertions : List FactAssertion
  updatedAssertions : List FactAssertionUpdate
  deriving DecidableEq

structure FactDelta where
  contractVersion : Text
  scope : Text
  formatVersion : Text
  graphId : Text
  appId : Text
  fromEndpoint : FactDeltaEndpoint
  toEndpoint : FactDeltaEndpoint
  fromFactSetDigest : Text
  toFactSetDigest : Text
  added : List SemanticFact
  removed : List SemanticFact
  changed : List SemanticFactChange
  deltaRevision : Text
  deriving DecidableEq

def FactDeltaEndpoint.toValue (e : FactDeltaEndpoint) : Value := .obj [
  ("transactionId", .str e.transactionId),
  ("inputRevision", .str e.inputRevision),
  ("semanticRevision", .str e.semanticRevision)]

def AssertionClaim.toValue (c : AssertionClaim) : Value := .obj [
  ("confidence", .num c.confidence.val),
  ("evidence", .arr (c.evidence.map EvidenceReference.toValue))]

def FactAssertionUpdate.toValue (u : FactAssertionUpdate) : Value := .obj [
  ("assertionId", .str u.assertionId),
  ("changedFields", texts (u.changedFields.map FactAssertionUpdateField.toText)),
  ("before", u.before.toValue),
  ("after", u.after.toValue)]

/-- A change with its assertions written in one of two ways. -/
def SemanticFactChange.toValueWith (assertion : FactAssertion → Value) (c : SemanticFactChange) : Value := .obj [
  ("factId", .str c.factId),
  ("addedAssertions", .arr (c.addedAssertions.map assertion)),
  ("removedAssertions", .arr (c.removedAssertions.map assertion)),
  ("updatedAssertions", .arr (c.updatedAssertions.map FactAssertionUpdate.toValue))]

def FactDelta.toValue (d : FactDelta) : Value := .obj [
  ("contractVersion", .str d.contractVersion),
  ("scope", .str d.scope),
  ("formatVersion", .str d.formatVersion),
  ("graphId", .str d.graphId),
  ("appId", .str d.appId),
  ("from", d.fromEndpoint.toValue),
  ("to", d.toEndpoint.toValue),
  ("fromFactSetDigest", .str d.fromFactSetDigest),
  ("toFactSetDigest", .str d.toFactSetDigest),
  ("added", .arr (d.added.map SemanticFact.toValue)),
  ("removed", .arr (d.removed.map SemanticFact.toValue)),
  ("changed", .arr (d.changed.map (SemanticFactChange.toValueWith FactAssertion.toValue))),
  ("deltaRevision", .str d.deltaRevision)]

end SecPlatform.Semantics
