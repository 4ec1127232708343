import SecPlatform.Compiler.SemanticMutation.Canonical
import SecPlatform.Contracts.Lemmas.CanonicalEncoding

/-!
# Reading requests and authorizations

A request and an authorization come as plain values. Reading checks their fields and the canonical order
of every list; the first violation is thrown as a diagnostic.
-/

namespace SecPlatform.Compiler.SemanticMutation

open Contracts Semantics

/-- The diagnostic of the first violation. -/
abbrev Parsed := Except SemanticMutationDiagnostic

/-! ## Fields -/

def schema {α : Type} (message : Text) (details : Option Value := none) : Parsed α :=
  .error (mutationDiagnostic "SEMANTIC-MUTATION-001" .request message details)

abbrev Fields := List (Text × Value)

def field (record : Fields) (key : Text) : Option Value := Json.get? key record

def expectRecord (value : Option Value) (label : Text) : Parsed Fields :=
  match value with
  | some (.obj fields) => .ok fields
  | _ => schema (Text.cat [label, " must be a plain object"])

def expectArray (value : Option Value) (label : Text) : Parsed (List Value) :=
  match value with
  | some (.arr items) => .ok items
  | _ => schema (Text.cat [label, " must be an array"])

def expectString (value : Option Value) (label : Text) : Parsed Text :=
  match value with
  | some (.str text) =>
      if nonEmptyString text then .ok text else schema (Text.cat [label, " must be a trimmed non-empty string"])
  | _ => schema (Text.cat [label, " must be a trimmed non-empty string"])

def expectBoolean (value : Option Value) (label : Text) : Parsed Bool :=
  match value with
  | some (.bool b) => .ok b
  | _ => schema (Text.cat [label, " must be boolean"])

def exactOwnKeys (fields : Fields) (required optional : List Text) : Bool :=
  (required.all fun key => key ∈ fields.map Prod.fst) &&
    (fields.all fun field => field.1 ∈ required || field.1 ∈ optional)

def assertKeys (fields : Fields) (label : Text) (required : List Text) (optional : List Text := []) : Parsed Unit :=
  if exactOwnKeys fields required optional then .ok ()
  else schema (Text.cat [label, " contains missing or unknown fields"]) (some (.obj [
    ("actualKeys", texts (sortBy id (fields.map Prod.fst))),
    ("required", texts required),
    ("optional", texts optional)]))

/-- The keys of a list are strictly increasing. -/
def assertCanonical (keys : List Text) (label : Text) : Parsed Unit :=
  ((keys.zip keys.tail).zipIdx 1).forM fun ((previous, current), index) =>
    if previous < current then .ok ()
    else schema (Text.cat [label, " must be unique and in canonical order"]) (some (.obj [
      ("index", .num (.ofNat index)),
      ("previous", .str previous),
      ("current", .str current)]))

def dot (label : Text) (field : Text) : Text := Text.cat [label, ".", field]

def itemLabel (label : Text) (index : Nat) : Text := Text.cat [label, "[", Text.ofNat index, "]"]

/-- Every item of an array, read under its own label. -/
def entries {α : Type} (read : Value → Text → Parsed α) (value : Option Value) (label : Text) : Parsed (List α) := do
  (← expectArray value label).zipIdx.mapM fun (entry, index) => read entry (itemLabel label index)

/-! ## Selectors and conditions -/

def factObject (value : Option Value) (label : Text) : Parsed SemanticFactObject := do
  let record ← expectRecord value label
  if field record "kind" = some (.str "entity") then
    assertKeys record label ["kind", "entityId"]
    return .entity (← expectString (field record "entityId") (dot label "entityId"))
  else if field record "kind" = some (.str "value") then
    assertKeys record label ["kind", "value"]
    let content := (field record "value").getD .null
    if h : isFinite content then return .value ⟨canonical content, isFinite_canonical content h⟩
    else
      let reason : Value := .obj [("reason", .str "Canonical JSON numbers must be finite")]
      schema (Text.cat [label, ".value must be canonical JSON"]) (some reason)
  else schema (Text.cat [label, ".kind must be entity or value"])

def selector (value : Option Value) (label : Text) : Parsed SemanticFactSelector := do
  let record ← expectRecord value label
  assertKeys record label ["subject", "predicate", "object"]
  let name ← expectString (field record "predicate") (dot label "predicate")
  match SEMANTIC_PREDICATES.find? fun predicate => predicate.toText = name with
  | none => schema (Text.cat [label, ".predicate is outside the total predicate registry"])
  | some predicate =>
      let subject ← expectString (field record "subject") (dot label "subject")
      return ⟨subject, predicate, ← factObject (field record "object") (dot label "object")⟩

/-- A digest that may be absent. -/
def optionalDigest (value : Option Value) (label : Text) : Parsed (Option Text) :=
  match value with
  | none => .ok none
  | some (.str digest) => if isDigest digest then .ok (some digest) else schema (Text.cat [label, " must be sha256 lowercase hex"])
  | some _ => schema (Text.cat [label, " must be sha256 lowercase hex"])

def optionalEntityKind (value : Option Value) (label : Text) : Parsed (Option SemanticEntityKind) :=
  match value with
  | none => .ok none
  | some value =>
      match SEMANTIC_ENTITY_KINDS.find? fun kind => value = .str kind.toText with
      | some kind => .ok (some kind)
      | none => schema (Text.cat [label, ".entityKind is outside the total entity-kind registry"])

def condition (value : Value) (label : Text) : Parsed SemanticMutationCondition := do
  let record ← expectRecord (some value) label
  let conditionId ← expectString (field record "conditionId") (dot label "conditionId")
  if field record "kind" = some (.str "entity") then
    assertKeys record label ["conditionId", "kind", "entityId", "exists"] ["entityKind", "canonicalEntityDigest"]
    let expected ← expectBoolean (field record "exists") (dot label "exists")
    if !expected && ((field record "entityKind").isSome || (field record "canonicalEntityDigest").isSome) then
      schema (Text.cat [label, " cannot include kind or digest when exists is false"])
    else
      let entityKind ← optionalEntityKind (field record "entityKind") label
      let digest ← optionalDigest (field record "canonicalEntityDigest") (dot label "canonicalEntityDigest")
      let entityId ← expectString (field record "entityId") (dot label "entityId")
      return ⟨conditionId, .entity entityId entityKind digest, expected⟩
  else if field record "kind" = some (.str "fact") then
    assertKeys record label ["conditionId", "kind", "fact", "exists"]
    let fact ← selector (field record "fact") (dot label "fact")
    return ⟨conditionId, .fact fact, ← expectBoolean (field record "exists") (dot label "exists")⟩
  else if field record "kind" = some (.str "assertion") then
    assertKeys record label ["conditionId", "kind", "fact", "assertionId", "exists"] ["canonicalAssertionDigest"]
    let expected ← expectBoolean (field record "exists") (dot label "exists")
    if !expected && (field record "canonicalAssertionDigest").isSome then
      schema (Text.cat [label, " cannot include assertion digest when exists is false"])
    else
      let digest ← optionalDigest (field record "canonicalAssertionDigest") (dot label "canonicalAssertionDigest")
      let fact ← selector (field record "fact") (dot label "fact")
      let assertionId ← expectString (field record "assertionId") (dot label "assertionId")
      return ⟨conditionId, .assertion fact assertionId digest, expected⟩
  else schema (Text.cat [label, ".kind must be entity, fact, or assertion"])

def conditions (value : Option Value) (label : Text) : Parsed (List SemanticMutationCondition) := do
  let result ← entries condition value label
  assertCanonical (result.map SemanticMutationCondition.conditionId) label
  return result

/-! ## Operations -/

def operation (value : Value) (label : Text) : Parsed AddStateTransitionOperation := do
  let record ← expectRecord (some value) label
  assertKeys record label ["operationId", "kind", "contract", "stateId", "from", "to", "by"]
  if field record "kind" ≠ some (.str "add-state-transition") then schema (Text.cat [label, ".kind is not registered"])
  else
    let contractLabel := dot label "contract"
    let contract ← expectRecord (field record "contract") contractLabel
    assertKeys contract contractLabel ["namespace", "contractId"]
    return {
      operationId := ← expectString (field record "operationId") (dot label "operationId")
      contract := {
        namespaceId := ← expectString (field contract "namespace") (dot contractLabel "namespace")
        contractId := ← expectString (field contract "contractId") (dot contractLabel "contractId") }
      stateId := ← expectString (field record "stateId") (dot label "stateId")
      fromState := ← expectString (field record "from") (dot label "from")
      toState := ← expectString (field record "to") (dot label "to")
      byOperation := ← expectString (field record "by") (dot label "by") }

def operations (value : Option Value) : Parsed (List AddStateTransitionOperation) := do
  let result ← entries operation value "request.operations"
  if result.isEmpty then schema "request.operations must contain at least one operation"
  else
    assertCanonical (result.map AddStateTransitionOperation.operationId) "request.operations"
    return result

/-! ## Expectations -/

/-- A digest that must be there. -/
def requiredDigest (value : Option Value) (message : Text) : Parsed Text :=
  match value with
  | some (.str digest) => if isDigest digest then .ok digest else schema message
  | _ => schema message

def expectedFactAssertion (value : Value) (label : Text) : Parsed ExpectedFactAssertion := do
  let assertion ← expectRecord (some value) label
  assertKeys assertion label ["assertionId", "assertionClaimDigest"]
  let digest ← requiredDigest (field assertion "assertionClaimDigest")
    (Text.cat [label, ".assertionClaimDigest must be sha256 lowercase hex"])
  return ⟨← expectString (field assertion "assertionId") (dot label "assertionId"), digest⟩

def expectedFact (value : Value) (label : Text) : Parsed ExpectedSemanticFact := do
  let record ← expectRecord (some value) label
  assertKeys record label ["fact", "assertions"]
  let assertions ← entries expectedFactAssertion (field record "assertions") (dot label "assertions")
  assertCanonical (assertions.map ExpectedFactAssertion.assertionId) (dot label "assertions")
  return ⟨← selector (field record "fact") (dot label "fact"), assertions⟩

def expectedFacts (value : Option Value) (label : Text) : Parsed (List ExpectedSemanticFact) := do
  let result ← entries expectedFact value label
  assertCanonical (result.map fun entry => factSelectorKey entry.fact) label
  return result

/-- The three lists of changed fields that are not empty and in order. -/
def changedFields (items : List Value) (label : Text) : Parsed (List FactAssertionUpdateField) :=
  if items = [.str "confidence"] then .ok [.confidence]
  else if items = [.str "evidence"] then .ok [.evidence]
  else if items = [.str "confidence", .str "evidence"] then .ok [.confidence, .evidence]
  else schema (Text.cat [label, ".changedFields must be non-empty and canonical"])

def assertionChange (value : Value) (label : Text) : Parsed ExpectedFactAssertionChange := do
  let record ← expectRecord (some value) label
  let added := field record "kind" = some (.str "added")
  if added ∨ field record "kind" = some (.str "removed") then
    assertKeys record label ["fact", "assertionId", "kind", "assertionClaimDigest"]
    let digest ← requiredDigest (field record "assertionClaimDigest")
      (Text.cat [label, ".assertionClaimDigest must be sha256 lowercase hex"])
    let fact ← selector (field record "fact") (dot label "fact")
    let assertionId ← expectString (field record "assertionId") (dot label "assertionId")
    return ⟨fact, assertionId, if added then .added digest else .removed digest⟩
  else if field record "kind" = some (.str "updated") then
    assertKeys record label ["fact", "assertionId", "kind", "changedFields", "beforeAssertionClaimDigest",
      "afterAssertionClaimDigest"]
    let fields ← changedFields (← expectArray (field record "changedFields") (dot label "changedFields")) label
    let message := Text.cat [label, " before/after assertion claim digests must be sha256 lowercase hex"]
    let before ← requiredDigest (field record "beforeAssertionClaimDigest") message
    let after ← requiredDigest (field record "afterAssertionClaimDigest") message
    let fact ← selector (field record "fact") (dot label "fact")
    let assertionId ← expectString (field record "assertionId") (dot label "assertionId")
    return ⟨fact, assertionId, .updated fields before after⟩
  else schema (Text.cat [label, ".kind must be added, removed, or updated"])

def assertionChangeKey (change : ExpectedFactAssertionChange) : Text :=
  joinNull [factSelectorKey change.fact, change.assertionId, change.change.kind]

def expectation (value : Option Value) : Parsed SemanticMutationExpectation := do
  let record ← expectRecord value "request.expectation"
  assertKeys record "request.expectation"
    ["revision", "matchMode", "addedFacts", "removedFacts", "assertionChanges", "entityChanges"]
  if field record "revision" ≠ some (.str SEMANTIC_MUTATION_EXPECTATION_REVISION) ∨
      field record "matchMode" ≠ some (.str "exact") ∨ field record "entityChanges" ≠ some (.str "none") then
    schema "request.expectation revision, matchMode, and entityChanges are frozen"
  else
    let addedFacts ← expectedFacts (field record "addedFacts") "request.expectation.addedFacts"
    let removedFacts ← expectedFacts (field record "removedFacts") "request.expectation.removedFacts"
    let overlap := addedFacts.map fun entry => factSelectorKey entry.fact
    if removedFacts.any fun entry => factSelectorKey entry.fact ∈ overlap then
      schema "Expectation fact cannot be both added and removed"
    else
      let assertionChanges ← entries assertionChange (field record "assertionChanges") "request.expectation.assertionChanges"
      assertCanonical (assertionChanges.map assertionChangeKey) "request.expectation.assertionChanges"
      return ⟨addedFacts, removedFacts, assertionChanges⟩

/-! ## Verification requirements -/

def verificationRequirement (value : Value) (label : Text) : Parsed VerificationRequirement := do
  let record ← expectRecord (some value) label
  if field record "kind" = some (.str "acceptance") then
    assertKeys record label ["kind", "acceptanceEntityId"]
    return .acceptance (← expectString (field record "acceptanceEntityId") (dot label "acceptanceEntityId"))
  else if field record "kind" = some (.str "selector") then
    assertKeys record label ["kind", "selector"]
    let target ← expectString (field record "selector") (dot label "selector")
    if [unit '!'] <+: target ∨ [unit '-'] <+: target then schema (Text.cat [label, ".selector cannot be negative"])
    else return .selector target
  else if field record "kind" = some (.str "pass") then
    assertKeys record label ["kind", "passId"]
    return .pass (← expectString (field record "passId") (dot label "passId"))
  else schema (Text.cat [label, ".kind must be acceptance, selector, or pass"])

def verificationRequirements (value : Option Value) (label : Text) : Parsed (List VerificationRequirement) := do
  let result ← entries verificationRequirement value label
  assertCanonical (result.map verificationRequirementKey) label
  return result

/-! ## Requests -/

def base (value : Option Value) (label : Text) : Parsed SemanticMutationBase := do
  let record ← expectRecord value label
  assertKeys record label ["transactionId", "inputRevision", "semanticRevision"]
  return {
    transactionId := ← expectString (field record "transactionId") (dot label "transactionId")
    inputRevision := ← expectString (field record "inputRevision") (dot label "inputRevision")
    semanticRevision := ← expectString (field record "semanticRevision") (dot label "semanticRevision") }

def requestMembers (r : SemanticMutationRequest) : Fields := [
  ("contractVersion", .str SEMANTIC_MUTATION_CONTRACT_VERSION),
  ("requestId", .str r.requestId),
  ("graphId", .str r.graphId),
  ("appId", .str r.appId),
  ("base", r.base.toValue),
  ("preconditions", .arr (r.preconditions.map SemanticMutationCondition.toValue)),
  ("operations", .arr (r.operations.map AddStateTransitionOperation.toValue)),
  ("expectation", r.expectation.toValue),
  ("postconditions", .arr (r.postconditions.map SemanticMutationCondition.toValue)),
  ("additionalVerification", .arr (r.additionalVerification.map VerificationRequirement.toValue))]

section Revisions

variable [Sha256]

def requestRevision (r : SemanticMutationRequest) : Text :=
  sha256 (.obj ((Text.ofString "domain", .str "semantic-mutation-request-v2") :: requestMembers r ++ [
    (Text.ofString "operationRegistryRevision", .str SEMANTIC_MUTATION_OPERATION_REGISTRY_REVISION),
    (Text.ofString "expectationRevision", .str SEMANTIC_MUTATION_EXPECTATION_REVISION)]))

def normalizeSemanticMutationRequest (input : Value) : Parsed NormalizedSemanticMutationRequest := do
  let record ← expectRecord (some input) "request"
  assertKeys record "request" ["contractVersion", "requestId", "graphId", "appId", "base", "preconditions", "operations",
    "expectation", "postconditions", "additionalVerification"]
  if field record "contractVersion" ≠ some (.str SEMANTIC_MUTATION_CONTRACT_VERSION) then
    schema "request.contractVersion must equal \"2\""
  else
    let normalized : SemanticMutationRequest := {
      requestId := ← expectString (field record "requestId") "request.requestId"
      graphId := ← expectString (field record "graphId") "request.graphId"
      appId := ← expectString (field record "appId") "request.appId"
      base := ← base (field record "base") "request.base"
      preconditions := ← conditions (field record "preconditions") "request.preconditions"
      operations := ← operations (field record "operations")
      expectation := ← expectation (field record "expectation")
      postconditions := ← conditions (field record "postconditions") "request.postconditions"
      additionalVerification := ←
        verificationRequirements (field record "additionalVerification") "request.additionalVerification" }
    return ⟨normalized, requestRevision normalized⟩

/-! ## Authorizations -/

def semanticMutationAuthorizationRevision (a : SemanticMutationAuthorizationContent) : Text := sha256 (.obj [
  ("domain", .str "semantic-mutation-authorization-v2"),
  ("taskId", .str (a.taskId.getD [])),
  ("envelopeRevision", .str (a.envelopeRevision.getD [])),
  ("allowedOperationKinds", texts a.allowedOperationKinds),
  ("allowedTargetEntityIds", texts a.allowedTargetEntityIds),
  ("allowedSourceOwnerIds", texts a.allowedSourceOwnerIds),
  ("allowedPathPrefixes", texts a.allowedPathPrefixes),
  ("requiredPreconditions", .arr (a.requiredPreconditions.map SemanticMutationCondition.toValue)),
  ("requiredPostconditions", .arr (a.requiredPostconditions.map SemanticMutationCondition.toValue)),
  ("minimumVerification", .arr (a.minimumVerification.map VerificationRequirement.toValue))])

def stringArray (value : Option Value) (label : Text) : Parsed (List Text) := do
  let result ← entries (fun entry label => expectString (some entry) label) value label
  assertCanonical result label
  return result

def optionalString (value : Option Value) (label : Text) : Parsed (Option Text) :=
  match value with
  | none => .ok none
  | some value => (expectString (some value) label).map some

def normalizeSemanticMutationAuthorization (input : Value) : Parsed SemanticMutationAuthorizationContext := do
  let record ← expectRecord (some input) "authorization"
  assertKeys record "authorization" ["authorizationRevision", "allowedOperationKinds", "allowedTargetEntityIds",
    "allowedSourceOwnerIds", "allowedPathPrefixes", "requiredPreconditions", "requiredPostconditions",
    "minimumVerification"] ["taskId", "envelopeRevision"]
  let allowedOperationKinds ← stringArray (field record "allowedOperationKinds") "authorization.allowedOperationKinds"
  if allowedOperationKinds.any (· ≠ Text.ofString "add-state-transition") then
    schema "authorization.allowedOperationKinds contains an unregistered kind"
  else
    let normalized : SemanticMutationAuthorizationContent := {
      taskId := ← optionalString (field record "taskId") "authorization.taskId"
      envelopeRevision := ← optionalString (field record "envelopeRevision") "authorization.envelopeRevision"
      allowedOperationKinds := allowedOperationKinds
      allowedTargetEntityIds := ←
        stringArray (field record "allowedTargetEntityIds") "authorization.allowedTargetEntityIds"
      allowedSourceOwnerIds := ← stringArray (field record "allowedSourceOwnerIds") "authorization.allowedSourceOwnerIds"
      allowedPathPrefixes := ← stringArray (field record "allowedPathPrefixes") "authorization.allowedPathPrefixes"
      requiredPreconditions := ←
        conditions (field record "requiredPreconditions") "authorization.requiredPreconditions"
      requiredPostconditions := ←
        conditions (field record "requiredPostconditions") "authorization.requiredPostconditions"
      minimumVerification := ←
        verificationRequirements (field record "minimumVerification") "authorization.minimumVerification" }
    let authorizationRevision := semanticMutationAuthorizationRevision normalized
    if field record "authorizationRevision" ≠ some (.str authorizationRevision) then
      schema "authorization.authorizationRevision does not match canonical trusted content"
    else return ⟨normalized, authorizationRevision⟩

end Revisions

end SecPlatform.Compiler.SemanticMutation
