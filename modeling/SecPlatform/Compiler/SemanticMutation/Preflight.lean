import SecPlatform.Compiler.SemanticMutation.MatchExpectation
import SecPlatform.Compiler.SemanticMutation.NormalizeRequest
import SecPlatform.Compiler.SemanticMutation.OperationRegistry

/-!
# Preflight

A request and its authorization are read and matched against the base endpoint before any source is touched.
-/

namespace SecPlatform.Compiler.SemanticMutation

open Contracts Semantics

def endpointBase (endpoint : FactDeltaEndpointContext) : SemanticMutationBase :=
  ⟨endpoint.transactionId, endpoint.inputRevision, endpoint.semanticRevision⟩

/-- A preflight that read its request; it is ready unless it names the stage that rejected it. -/
structure PreflightDecision where
  rejectedAt : Option SemanticMutationDiagnosticStage
  requestId : Text
  requestRevision : Text
  authorizationRevision : Text
  base : SemanticMutationBase
  preflightRevision : Text
  diagnostics : List SemanticMutationDiagnostic
  deriving DecidableEq

inductive SemanticMutationPreflight where
  | request (rejection : SemanticMutationRequestRejection)
  | decided (decision : PreflightDecision)
  deriving DecidableEq

structure SemanticMutationPreflightInput where
  request : Value
  base : FactDeltaEndpointContext
  authorization : Value

/-! ## Rejected requests -/

def safeRequestId (value : Value) : Option Text :=
  match value with
  | .obj record => match field record "requestId" with
      | some (.str requestId) => if nonEmptyString requestId then some requestId else none
      | _ => none
  | _ => none

section Preflight

variable [Sha256] [EnglishLowerCase]

def minimalRequestRejection (requestId : Option Text) (diagnostic : SemanticMutationDiagnostic) :
    Except Text SemanticMutationPreflight := do
  let canonical ← canonicalDiagnostics [diagnostic]
  return .request ⟨SEMANTIC_MUTATION_CONTRACT_VERSION, requestId, canonical, ← diagnosticRevision canonical⟩

/-! ## The base -/

omit [Sha256] [EnglishLowerCase] in
def baseMatches (request : SemanticMutationRequest) (endpoint : FactDeltaEndpointContext) : Bool :=
  let ir := endpoint.snapshot.ir
  decide (endpoint.transactionId = request.base.transactionId) &&
    decide (endpoint.inputRevision = request.base.inputRevision) &&
    decide (endpoint.semanticRevision = request.base.semanticRevision) &&
    decide (ir.graphId = request.graphId) && decide (ir.appId = request.appId) &&
    decide (ir.inputRevision = endpoint.inputRevision) && decide (ir.semanticRevision = endpoint.semanticRevision)

omit [Sha256] [EnglishLowerCase] in
def baseDiagnostics (request : SemanticMutationRequest) (endpoint : FactDeltaEndpointContext) :
    List SemanticMutationDiagnostic :=
  if baseMatches request endpoint then []
  else [mutationDiagnostic "SEMANTIC-MUTATION-002" .base
    "Request graph, app, and base revisions must exactly bind the trusted before context"
    (some (.obj [
      ("requestGraphId", .str request.graphId),
      ("requestAppId", .str request.appId),
      ("requestBase", request.base.toValue),
      ("endpointBase", (endpointBase endpoint).toValue),
      ("endpointGraphId", .str endpoint.snapshot.ir.graphId),
      ("endpointAppId", .str endpoint.snapshot.ir.appId)]))]

/-! ## The decision -/

omit [EnglishLowerCase] in
/-- What rejects a request that was read, and at which stage. -/
def preflightDiagnostics (request : SemanticMutationRequest) (authorization : SemanticMutationAuthorizationContent)
    (base : FactDeltaEndpointContext) (preconditions : List SemanticMutationCondition) :
    Except CodedFailure (Option SemanticMutationDiagnosticStage × List SemanticMutationDiagnostic) :=
  match baseDiagnostics request base with
  | d :: ds => .ok (some .base, d :: ds)
  | [] =>
      match matchSemanticMutationConditions base.snapshot preconditions "SEMANTIC-MUTATION-003" .precondition with
      | d :: ds => .ok (some .precondition, d :: ds)
      | [] => do
          let (_, diagnostics) ← validateSemanticMutationOperations base.snapshot request.operations authorization
          if diagnostics.isEmpty then
            return (none, [])
          else if diagnostics.any fun entry => entry.stage = .sourceResolution then
            return (some .sourceResolution, diagnostics)
          else
            return (some .transform, diagnostics)

omit [EnglishLowerCase] in
def preflightRevision (rejectedAt : Option SemanticMutationDiagnosticStage) (requestRevision : Text)
    (authorizationRevision : Text) (base : SemanticMutationBase) (diagnostics : List SemanticMutationDiagnostic) : Text :=
  sha256 (.obj [
    ("domain", .str "semantic-mutation-preflight-v2"),
    ("requestRevision", .str requestRevision),
    ("authorizationRevision", .str authorizationRevision),
    ("base", base.toValue),
    ("operationRegistryRevision", .str SEMANTIC_MUTATION_OPERATION_REGISTRY_REVISION),
    ("expectationRevision", .str SEMANTIC_MUTATION_EXPECTATION_REVISION),
    ("status", .str (if diagnostics.isEmpty then "ready" else "rejected")),
    ("rejectedAt", .str (rejectedAt.elim [] SemanticMutationDiagnosticStage.toText)),
    ("diagnostics", diagnosticsValue diagnostics)])

/-- The request, the authorization and the conditions that hold before and after. -/
structure ReadInput where
  request : NormalizedSemanticMutationRequest
  authorization : SemanticMutationAuthorizationContext
  preconditions : List SemanticMutationCondition
  postconditions : List SemanticMutationCondition

omit [EnglishLowerCase] in
def mergedPostconditions (request : SemanticMutationRequest) (authorization : SemanticMutationAuthorizationContent) :
    Except Text (List SemanticMutationCondition) :=
  mergeSemanticMutationConditions [authorization.requiredPostconditions, request.postconditions]

omit [EnglishLowerCase] in
/-- What is read of the input, or the id and the diagnostic of the rejection. -/
def readInput (input : SemanticMutationPreflightInput) :
    Except (Option Text × SemanticMutationDiagnostic) ReadInput := do
  let unread := safeRequestId input.request
  let request ← (normalizeSemanticMutationRequest input.request).mapError fun d => (unread, d)
  let authorization ← (normalizeSemanticMutationAuthorization input.authorization).mapError fun d => (unread, d)
  let conflict := fun message => (some request.requestId, mutationDiagnostic "SEMANTIC-MUTATION-001" .request message)
  let preconditions ← (mergeSemanticMutationConditions [authorization.requiredPreconditions, request.preconditions])
    |>.mapError conflict
  let postconditions ← (mergedPostconditions request.toSemanticMutationRequest
    authorization.toSemanticMutationAuthorizationContent).mapError conflict
  return ⟨request, authorization, preconditions, postconditions⟩

def preflightSemanticMutation (input : SemanticMutationPreflightInput) : Except Text SemanticMutationPreflight :=
  match readInput input with
  | .error (requestId, diagnostic) => minimalRequestRejection requestId diagnostic
  | .ok read => do
      let base := endpointBase input.base
      let (rejectedAt, diagnostics) ← (preflightDiagnostics read.request.toSemanticMutationRequest
        read.authorization.toSemanticMutationAuthorizationContent input.base read.preconditions).mapError
          CodedFailure.message
      let canonical ← canonicalDiagnostics diagnostics
      let revision := preflightRevision rejectedAt read.request.requestRevision read.authorization.authorizationRevision
        base canonical
      return .decided ⟨rejectedAt, read.request.requestId, read.request.requestRevision,
        read.authorization.authorizationRevision, base, revision, canonical⟩

end Preflight

end SecPlatform.Compiler.SemanticMutation
