import Mathlib.Data.Prod.Lex
import SecPlatform.Library.Except
import SecPlatform.Library.OrderedMap
import SecPlatform.Semantics.Mutation

/-!
# Canonical forms of semantic mutations

Digests of structured values, keys of selectors and requirements, and the order of diagnostics. A digest
is taken of the text of the value with its fields in insertion order.
-/

namespace SecPlatform.Compiler.SemanticMutation

open Contracts Semantics

/-- `toLocaleLowerCase('en-US')`. -/
class EnglishLowerCase where
  toLocaleLowerCase : Text → Text

/-! ## Texts and values -/

def nonEmptyString (value : Text) : Bool := decide (value.trim ≠ []) && decide (value = value.trim)

/-- `canonicalEquals` of trees whose numbers are finite: their token streams agree. -/
def canonicalEquals (left right : Value) : Bool := decide (canonical left = canonical right)

/-- The pieces with a null character between them. -/
def joinNull (pieces : List Text) : Text := Text.joinWith [0] pieces

def sha256 [Sha256] (value : Value) : Text := (Sha256.rawSha256 value.render).val

/-! ## Keys -/

def factSelectorKey (selector : SemanticFactSelector) : Text :=
  joinNull [selector.subject, selector.predicate.toText, canonicalEncoding selector.object.toValue]

def verificationRequirementKey : VerificationRequirement → Text
  | .acceptance acceptanceEntityId => joinNull ["acceptance", acceptanceEntityId]
  | .selector target => joinNull ["selector", target]
  | .pass passId => joinNull ["pass", passId]

def canonicalVerificationUnion (collections : List (List VerificationRequirement)) : List VerificationRequirement :=
  let values : OrderedMap Text VerificationRequirement := collections.flatten.foldl (fun values requirement =>
    values.set (verificationRequirementKey requirement) requirement) .empty
  sortBy verificationRequirementKey values.values

/-! ## Diagnostics -/

def stageIndex : SemanticMutationDiagnosticStage → Nat
  | .request => 0
  | .base => 1
  | .precondition => 2
  | .sourceResolution => 3
  | .path => 4
  | .transform => 5
  | .cas => 6
  | .stagedRebuild => 7
  | .factDelta => 8
  | .expectation => 9
  | .impact => 10
  | .impactVerification => 11
  | .publish => 12
  | .rollback => 13

def originIndex : SemanticMutationDiagnosticOrigin → Nat
  | .semanticMutation => 0
  | .factDelta => 1
  | .impact => 2
  | .compiler => 3
  | .verification => 4

def diagnosticDetailsJson (d : SemanticMutationDiagnostic) : Text :=
  match d.details with
  | none => Json.render (.null : Value)
  | some details => canonicalEncoding details

/-- `compareDiagnostics` compares these one after the other. -/
abbrev DiagnosticKey := Nat ×ₗ Text ×ₗ Text ×ₗ Text ×ₗ Nat ×ₗ Text ×ₗ Text ×ₗ Text

section Diagnostics

variable [EnglishLowerCase]

def diagnosticKey (d : SemanticMutationDiagnostic) : DiagnosticKey :=
  toLex (stageIndex d.stage, toLex (d.operationId.getD [], toLex (d.conditionId.getD [],
    toLex (EnglishLowerCase.toLocaleLowerCase (d.relativePath.getD []), toLex (originIndex d.origin,
      toLex (d.code, toLex (d.message, diagnosticDetailsJson d)))))))

def canonicalDiagnostic (d : SemanticMutationDiagnostic) : Except Text SemanticMutationDiagnostic :=
  match d.details with
  | none => .ok d
  | some details =>
      match canonicalJson details with
      | .ok canonical => .ok { d with details := some canonical }
      | .error _ => .error "Canonical JSON numbers must be finite"

def canonicalDiagnostics (diagnostics : List SemanticMutationDiagnostic) :
    Except Text (List SemanticMutationDiagnostic) := do
  return sortBy diagnosticKey (← diagnostics.mapM canonicalDiagnostic)

end Diagnostics

def diagnosticsValue (diagnostics : List SemanticMutationDiagnostic) : Value :=
  .arr (diagnostics.map SemanticMutationDiagnostic.toValue)

/-- A diagnostic of the mutation itself. -/
def mutationDiagnostic (code : Text) (stage : SemanticMutationDiagnosticStage) (message : Text)
    (details : Option Value := none) (operationId conditionId : Option Text := none) : SemanticMutationDiagnostic :=
  ⟨.semanticMutation, code, stage, message, operationId, conditionId, none, details⟩

/-! ### Diagnostics of the producers -/

def TRUSTED_NESTED_PRODUCER_MESSAGES : List (Text × Text) := [
  ("FACT-DELTA-001", "Fact Delta endpoint binding failed"),
  ("FACT-DELTA-002", "Fact Delta endpoint lineage mismatch"),
  ("FACT-DELTA-003", "Fact Delta revision invariant failed"),
  ("FACT-DELTA-004", "Semantic Fact identity collision"),
  ("FACT-DELTA-005", "Fact assertion identity collision"),
  ("FACT-DELTA-006", "Fact Delta validity is unsupported"),
  ("FACT-DELTA-007", "Fact Delta canonical invariant failed"),
  ("IMPACT-001", "Impact endpoint binding failed"),
  ("IMPACT-002", "Impact canonical Delta binding failed"),
  ("IMPACT-003", "Impact propagation rule invariant failed"),
  ("IMPACT-004", "Impact Entity identity collision"),
  ("IMPACT-005", "Impact Verification mapping is invalid"),
  ("IMPACT-006", "Impact reference or canonical invariant failed")]

section Revisions

variable [Sha256]

/-- Details of a producer stand in a diagnostic by their digest only. -/
def redactedNestedProducerDetails (origin : SemanticMutationDiagnosticOrigin) (code : Text) (details : Option Value) :
    Option Value :=
  match details.map canonicalJson with
  | some (.ok (.obj (m :: ms))) => some (.obj [("redactedDetailRevision", .str (sha256 (.obj [
      ("domain", .str "semantic-mutation-redacted-nested-detail-v1"),
      ("origin", .str origin.toText),
      ("code", .str code),
      ("details", .obj (m :: ms))])))])
  | _ => none

def trustedPrefix : SemanticMutationDiagnosticOrigin → Option Text
  | .factDelta => some "FACT-DELTA-"
  | .impact => some "IMPACT-"
  | .semanticMutation | .compiler | .verification => none

/-- A failure of a producer that is not trusted keeps neither its code nor its message. -/
def nestedDiagnostic (error : CodedFailure) (origin : SemanticMutationDiagnosticOrigin)
    (stage : SemanticMutationDiagnosticStage) : SemanticMutationDiagnostic :=
  let unknown : SemanticMutationDiagnostic := ⟨origin, if origin = .impact then "IMPACT-UNKNOWN" else "COMPILER-UNKNOWN",
    stage, "Unknown producer failure", none, none, none, none⟩
  match TRUSTED_NESTED_PRODUCER_MESSAGES.lookup error.code, trustedPrefix origin with
  | some message, some trusted =>
      if trusted <+: error.code then
        ⟨origin, error.code, stage, message, none, none, none,
          redactedNestedProducerDetails origin error.code error.details⟩
      else unknown
  | _, _ => unknown

def diagnosticRevision [EnglishLowerCase] (diagnostics : List SemanticMutationDiagnostic) : Except Text Text := do
  return sha256 (.obj [("domain", .str "semantic-mutation-diagnostic-v2"),
    ("diagnostics", diagnosticsValue (← canonicalDiagnostics diagnostics))])

end Revisions

end SecPlatform.Compiler.SemanticMutation
