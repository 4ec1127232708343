import SecPlatform.Library.Except
import SecPlatform.Semantics.Impact

/-!
# Propagation rules

What the traversal of the impact does with a fact, by its predicate.
-/

namespace SecPlatform.Compiler.SemanticImpact

open Contracts Semantics

inductive ImpactPropagationRule where
  | edge (direction : ImpactDirection) (ruleVariantId : Text)
  | valueStop | verification | unknown | reserved
  deriving DecidableEq

namespace ImpactPropagationRule

def action : ImpactPropagationRule → Text
  | .edge _ _ => "edge"
  | .valueStop => "value-stop"
  | .verification => "verification"
  | .unknown => "unknown"
  | .reserved => "reserved"

def toValue : ImpactPropagationRule → Value
  | .edge direction ruleVariantId => .obj [("action", .str "edge"), ("direction", .str direction.toText),
      ("ruleVariantId", .str ruleVariantId)]
  | rule => .obj [("action", .str rule.action)]

end ImpactPropagationRule

def IMPACT_PROPAGATION_RULES : SemanticPredicate → ImpactPropagationRule
  | .implements => .edge .objectToSubject "impact.implements.object-to-subject.v1"
  | .dependsOn => .edge .objectToSubject "impact.depends-on.object-to-subject.v1"
  | .requires => .edge .objectToSubject "impact.requires.object-to-subject.v1"
  | .lowersTo => .edge .subjectToObject "impact.lowers-to.subject-to-object.v1"
  | .guarantees => .valueStop
  | .verifiedBy => .verification
  | .contains | .declares | .provides | .invokes | .precedes | .awaits | .retries | .handles | .emits | .consumes
  | .flowsTo | .owns | .reads | .writes | .mutates | .transitionsTo | .performsEffect | .requiresPermission
  | .enforces | .generates => .unknown
  | .assumes | .connectsTo | .forksTo | .joins | .derivesFrom | .transformsTo | .validates | .sanitizes
  | .serializesAs | .deserializesFrom | .persistsAs | .initializes | .disposes | .escapes | .crossesBoundary
  | .originatesFrom | .violates => .reserved

/-- The status `reserved` of a predicate in `PREDICATE_SIGNATURE_REGISTRY`. -/
def isReservedPredicate : SemanticPredicate → Bool
  | .assumes | .connectsTo | .forksTo | .joins | .derivesFrom | .transformsTo | .validates | .sanitizes
  | .serializesAs | .deserializesFrom | .persistsAs | .initializes | .disposes | .escapes | .crossesBoundary
  | .originatesFrom | .violates => true
  | _ => false

def EXPECTED_EDGE_RULES : List (SemanticPredicate × ImpactDirection × Text) := [
  (.dependsOn, .objectToSubject, "impact.depends-on.object-to-subject.v1"),
  (.implements, .objectToSubject, "impact.implements.object-to-subject.v1"),
  (.lowersTo, .subjectToObject, "impact.lowers-to.subject-to-object.v1"),
  (.requires, .objectToSubject, "impact.requires.object-to-subject.v1")]

section Registry

variable (registry : SemanticPredicate → ImpactPropagationRule)

/-- The rule of a predicate fits its status; `variantIds` holds the variants so far. -/
def assertRule (variantIds : List Text) (predicate : SemanticPredicate) : Except CodedFailure (List Text) :=
  let rule := registry predicate
  if isReservedPredicate predicate && !decide (rule = .reserved) then
    failWith "IMPACT-003"
      (Text.cat ["Reserved predicate \"", predicate.toText, "\" cannot have an executable Impact rule"])
      [("predicate", .str predicate.toText), ("action", .str rule.action)]
  else if !isReservedPredicate predicate && decide (rule = .reserved) then
    failWith "IMPACT-003" (Text.cat ["Active predicate \"", predicate.toText, "\" needs an explicit Impact action"])
      [("predicate", .str predicate.toText), ("action", .str rule.action)]
  else
    match rule with
    | .edge _ ruleVariantId =>
        if ruleVariantId.trim = [] ∨ ruleVariantId ∈ variantIds then
          failWith "IMPACT-003"
            (Text.cat ["Impact edge rule \"", predicate.toText, "\" has an invalid or duplicate variant ID"])
            [("predicate", .str predicate.toText), ("ruleVariantId", .str ruleVariantId)]
        else .ok (ruleVariantId :: variantIds)
    | _ => .ok variantIds

/-- A registry is a function, so that it covers every predicate exactly once. -/
def assertImpactPropagationRuleRegistry : Except CodedFailure Unit := do
  let _ ← SEMANTIC_PREDICATES.foldlM (assertRule registry) []
  EXPECTED_EDGE_RULES.forM fun (predicate, direction, ruleVariantId) =>
    if registry predicate = .edge direction ruleVariantId then .ok ()
    else failWith "IMPACT-003"
      (Text.cat ["Impact edge rule \"", predicate.toText, "\" must match its canonical tuple"])
      [("predicate", .str predicate.toText),
        ("expected", .obj [("direction", .str direction.toText), ("ruleVariantId", .str ruleVariantId)]),
        ("actual", (registry predicate).toValue)]
  let unexpectedEdge := SEMANTIC_PREDICATES.find? fun predicate =>
    decide ((registry predicate).action = "edge") && (EXPECTED_EDGE_RULES.lookup predicate).isNone
  match unexpectedEdge with
  | some predicate =>
      failWith "IMPACT-003"
        (Text.cat ["Impact registry contains unexpected executable edge \"", predicate.toText, "\""])
        [("predicate", .str predicate.toText), ("rule", (registry predicate).toValue)]
  | none => .ok ()

end Registry

end SecPlatform.Compiler.SemanticImpact
