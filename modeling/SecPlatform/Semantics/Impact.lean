import SecPlatform.Semantics.EngineeringIR

/-!
# Impact of a fact delta

Seeds of the impact, the entities it reaches with a path to each, what stays uncertain, and the
verification it asks for.
-/

namespace SecPlatform.Semantics

open Contracts

/-! ## Seeds -/

inductive ImpactBasis where
  | from | to
  deriving DecidableEq, Repr

def ImpactBasis.toText : ImpactBasis → Text
  | .from => "from"
  | .to => "to"

inductive EntityField where
  | label | attributes
  deriving DecidableEq, Repr

def EntityField.toText : EntityField → Text
  | .label => "label"
  | .attributes => "attributes"

/-- What changed: an entity, a fact or an assertion. -/
inductive ImpactSeedSubject where
  | entityAdded (entityId : Text)
  | entityRemoved (entityId : Text)
  | entityUpdated (entityId : Text) (changedFields : List EntityField)
  | factAdded (factId : Text)
  | factRemoved (factId : Text)
  | assertionAdded (factId assertionId : Text)
  | assertionRemoved (factId assertionId : Text)
  | assertionUpdated (factId assertionId : Text) (changedFields : List FactAssertionUpdateField)
  deriving DecidableEq

namespace ImpactSeedSubject

def kind : ImpactSeedSubject → Text
  | .entityAdded _ => "entity-added"
  | .entityRemoved _ => "entity-removed"
  | .entityUpdated _ _ => "entity-updated"
  | .factAdded _ => "fact-added"
  | .factRemoved _ => "fact-removed"
  | .assertionAdded _ _ => "assertion-added"
  | .assertionRemoved _ _ => "assertion-removed"
  | .assertionUpdated _ _ _ => "assertion-updated"

def entityId? : ImpactSeedSubject → Option Text
  | .entityAdded entityId | .entityRemoved entityId | .entityUpdated entityId _ => some entityId
  | _ => none

def factId? : ImpactSeedSubject → Option Text
  | .factAdded factId | .factRemoved factId | .assertionAdded factId _ | .assertionRemoved factId _
  | .assertionUpdated factId _ _ => some factId
  | _ => none

def assertionId? : ImpactSeedSubject → Option Text
  | .assertionAdded _ assertionId | .assertionRemoved _ assertionId | .assertionUpdated _ assertionId _ => some assertionId
  | _ => none

def changedFields? : ImpactSeedSubject → Option (List Text)
  | .entityUpdated _ fields => some (fields.map EntityField.toText)
  | .assertionUpdated _ _ fields => some (fields.map FactAssertionUpdateField.toText)
  | _ => none

end ImpactSeedSubject

structure ImpactSeed where
  id : Text
  basis : ImpactBasis
  subject : ImpactSeedSubject
  anchorEntityId : Text
  deriving DecidableEq

def ImpactSeed.toValue (s : ImpactSeed) : Value := .obj (present [
  ("id", some (.str s.id)),
  ("kind", some (.str s.subject.kind)),
  ("basis", some (.str s.basis.toText)),
  ("entityId", s.subject.entityId?.map .str),
  ("factId", s.subject.factId?.map .str),
  ("assertionId", s.subject.assertionId?.map .str),
  ("anchorEntityId", some (.str s.anchorEntityId)),
  ("changedFields", s.subject.changedFields?.map texts)])

/-! ## Occurrences -/

inductive ImpactDirection where
  | subjectToObject | objectToSubject
  deriving DecidableEq, Repr

def ImpactDirection.toText : ImpactDirection → Text
  | .subjectToObject => "subject-to-object"
  | .objectToSubject => "object-to-subject"

structure ImpactPathStep where
  factId : Text
  predicate : SemanticPredicate
  ruleVariantId : Text
  direction : ImpactDirection
  fromEntityId : Text
  toEntityId : Text
  deriving DecidableEq

def ImpactPathStep.toValue (s : ImpactPathStep) : Value := .obj [
  ("factId", .str s.factId),
  ("predicate", .str s.predicate.toText),
  ("ruleVariantId", .str s.ruleVariantId),
  ("direction", .str s.direction.toText),
  ("fromEntityId", .str s.fromEntityId),
  ("toEntityId", .str s.toEntityId)]

inductive ImpactLevel where
  | direct | transitive
  deriving DecidableEq, Repr

def ImpactLevel.toText : ImpactLevel → Text
  | .direct => "direct"
  | .transitive => "transitive"

structure ImpactOccurrence where
  basis : ImpactBasis
  entityId : Text
  level : ImpactLevel
  distance : Nat
  seedIds : List Text
  canonicalPath : List ImpactPathStep
  deriving DecidableEq

def ImpactOccurrence.toValue (o : ImpactOccurrence) : Value := .obj [
  ("basis", .str o.basis.toText),
  ("entityId", .str o.entityId),
  ("level", .str o.level.toText),
  ("distance", .num (.ofNat o.distance)),
  ("seedIds", texts o.seedIds),
  ("canonicalPath", .arr (o.canonicalPath.map ImpactPathStep.toValue))]

/-! ## Uncertainties and verification -/

inductive ImpactUncertaintyReason where
  | unregisteredActivePredicate | nonDefiniteAuthority | valueObjectBoundary | verificationMappingMissing
  | verificationMappingNonRunnable
  deriving DecidableEq, Repr

def ImpactUncertaintyReason.toText : ImpactUncertaintyReason → Text
  | .unregisteredActivePredicate => "unregistered-active-predicate"
  | .nonDefiniteAuthority => "non-definite-authority"
  | .valueObjectBoundary => "value-object-boundary"
  | .verificationMappingMissing => "verification-mapping-missing"
  | .verificationMappingNonRunnable => "verification-mapping-non-runnable"

/-- Its classification is always `unknown`. -/
structure ImpactUncertainty where
  basis : ImpactBasis
  reasonCode : ImpactUncertaintyReason
  boundaryEntityId : Option Text
  factId : Option Text
  predicate : Option SemanticPredicate
  seedIds : List Text
  canonicalPath : List ImpactPathStep
  deriving DecidableEq

def ImpactUncertainty.toValue (u : ImpactUncertainty) : Value := .obj (present [
  ("basis", some (.str u.basis.toText)),
  ("classification", some (.str "unknown")),
  ("reasonCode", some (.str u.reasonCode.toText)),
  ("boundaryEntityId", u.boundaryEntityId.map .str),
  ("factId", u.factId.map .str),
  ("predicate", u.predicate.map fun p => .str p.toText),
  ("seedIds", some (texts u.seedIds)),
  ("canonicalPath", some (.arr (u.canonicalPath.map ImpactPathStep.toValue)))])

/-- A seed, or an occurrence of a level. -/
inductive SourceLevel where
  | seed | direct | transitive
  deriving DecidableEq, Repr

def SourceLevel.toText : SourceLevel → Text
  | .seed => "seed"
  | .direct => "direct"
  | .transitive => "transitive"

structure VerificationReason where
  basis : ImpactBasis
  sourceEntityId : Text
  sourceLevel : SourceLevel
  sourceSeedIds : List Text
  factId : Option Text
  deriving DecidableEq

def VerificationReason.toValue (r : VerificationReason) : Value := .obj (present [
  ("basis", some (.str r.basis.toText)),
  ("sourceEntityId", some (.str r.sourceEntityId)),
  ("sourceLevel", some (.str r.sourceLevel.toText)),
  ("sourceSeedIds", some (texts r.sourceSeedIds)),
  ("factId", r.factId.map .str)])

inductive VerificationTarget where
  | acceptance (acceptanceEntityId : Text)
  | selector (target : Text)
  deriving DecidableEq

structure VerificationRecommendation where
  target : VerificationTarget
  reasons : List VerificationReason
  deriving DecidableEq

def VerificationRecommendation.toValue (r : VerificationRecommendation) : Value :=
  match r.target with
  | .acceptance acceptanceEntityId => .obj [("kind", .str "acceptance"),
      ("acceptanceEntityId", .str acceptanceEntityId), ("reasons", .arr (r.reasons.map VerificationReason.toValue))]
  | .selector target => .obj [("kind", .str "selector"), ("selector", .str target),
      ("reasons", .arr (r.reasons.map VerificationReason.toValue))]

/-! ## Propagation -/

structure SemanticImpactPropagation where
  contractVersion : Text
  scope : Text
  formatVersion : Text
  graphId : Text
  appId : Text
  deltaRevision : Text
  fromSemanticRevision : Text
  toSemanticRevision : Text
  fromFactSetDigest : Text
  toFactSetDigest : Text
  propagationRuleRevision : Text
  seeds : List ImpactSeed
  direct : List ImpactOccurrence
  transitive : List ImpactOccurrence
  uncertainties : List ImpactUncertainty
  verification : List VerificationRecommendation
  impactRevision : Text
  deriving DecidableEq

def SemanticImpactPropagation.toValue (p : SemanticImpactPropagation) : Value := .obj [
  ("contractVersion", .str p.contractVersion),
  ("scope", .str p.scope),
  ("formatVersion", .str p.formatVersion),
  ("graphId", .str p.graphId),
  ("appId", .str p.appId),
  ("deltaRevision", .str p.deltaRevision),
  ("fromSemanticRevision", .str p.fromSemanticRevision),
  ("toSemanticRevision", .str p.toSemanticRevision),
  ("fromFactSetDigest", .str p.fromFactSetDigest),
  ("toFactSetDigest", .str p.toFactSetDigest),
  ("propagationRuleRevision", .str p.propagationRuleRevision),
  ("seeds", .arr (p.seeds.map ImpactSeed.toValue)),
  ("direct", .arr (p.direct.map ImpactOccurrence.toValue)),
  ("transitive", .arr (p.transitive.map ImpactOccurrence.toValue)),
  ("uncertainties", .arr (p.uncertainties.map ImpactUncertainty.toValue)),
  ("verification", .arr (p.verification.map VerificationRecommendation.toValue)),
  ("impactRevision", .str p.impactRevision)]

end SecPlatform.Semantics
