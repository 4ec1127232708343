import Mathlib.Data.List.Lex
import Mathlib.Data.Prod.Lex
import SecPlatform.Compiler.IR.BuildFactDelta
import SecPlatform.Compiler.SemanticImpact.PropagationRules
import SecPlatform.Library.OrderedMap

/-!
# Seeds and traversal

The entities, facts and assertions that differ are the seeds of the impact. From the anchors of the seeds
that propagate, the graph of a snapshot is traversed in layers: the state of an entity keeps its distance, all
seeds that reach it at this distance and the least path from the least of them.
-/

namespace SecPlatform.Compiler.SemanticImpact

open Contracts Semantics IR

/-! ## Orders -/

def BASIS_RANK : ImpactBasis → Nat
  | .from => 0
  | .to => 1

/-- The fields of a step that `comparePaths` compares one after the other. -/
def pathStepTuple (step : ImpactPathStep) : List Text := [
  step.predicate.toText, step.factId, step.ruleVariantId, step.direction.toText, step.fromEntityId, step.toEntityId]

/-- `comparePaths`: texts, tuples and paths are compared lexicographically. -/
def pathKey (path : List ImpactPathStep) : List (List Text) := path.map pathStepTuple

/-- `compareSeedPaths`. -/
def seedPathKey (seedId : Text) (path : List ImpactPathStep) : Text ×ₗ List (List Text) := toLex (seedId, pathKey path)

/-- `compareSeeds`. -/
def seedKey (seed : ImpactSeed) : Nat ×ₗ Text ×ₗ Text :=
  toLex (BASIS_RANK seed.basis, toLex (seed.subject.kind, seed.id))

/-! ## Index -/

/-- The ids of a validated snapshot are unique, so the entity that was indexed last is the only one. -/
def entityById (ir : EngineeringIR) (id : Text) : Option SemanticEntity := ir.entities.find? fun entity => entity.id = id

def factById (ir : EngineeringIR) (id : Text) : Option SemanticFact := ir.facts.find? fun fact => fact.id = id

def outgoingFactsBySubject (ir : EngineeringIR) (id : Text) : List SemanticFact :=
  ir.facts.filter fun fact => fact.subject = id

def incomingFactsByEntityObject (ir : EngineeringIR) (id : Text) : List SemanticFact :=
  ir.facts.filter fun fact => fact.object = .entity id

/-! ## Seeds -/

structure PropagatingSeed where
  seed : ImpactSeed
  propagates : Bool

def hasDefiniteAuthority (fact : SemanticFact) : Bool :=
  fact.assertions.any fun assertion => assertion.authority = .authoritative || assertion.authority = .derived

def entityChangedFields (before after : SemanticEntity) : List EntityField :=
  (if before.label = after.label then [] else [.label]) ++
    (if Json.render (.arr (before.attributes.map SemanticAttribute.toValue) : Value) =
        Json.render (.arr (after.attributes.map SemanticAttribute.toValue) : Value) then [] else [.attributes])

def requireFact (ir : EngineeringIR) (factId : Text) (basis : ImpactBasis) : Except CodedFailure SemanticFact :=
  match factById ir factId with
  | some fact => .ok fact
  | none => failWith "IMPACT-006"
      (Text.cat ["Canonical Impact seed references missing ", basis.toText, " Fact \"", factId, "\""])
      [("basis", .str basis.toText), ("factId", .str factId)]

section Seeds

variable [Sha256]

/-- A seed with the digest of what it is about for its id. -/
def impactSeed (basis : ImpactBasis) (subject : ImpactSeedSubject) (anchorEntityId : Text) : ImpactSeed where
  id := (Sha256.rawSha256 (canonicalEncoding (.obj (present [
    ("domain", some (.str "engineering-ir-impact-seed-v1")),
    ("kind", some (.str subject.kind)),
    ("basis", some (.str basis.toText)),
    ("entityId", subject.entityId?.map .str),
    ("factId", subject.factId?.map .str),
    ("assertionId", subject.assertionId?.map .str)])))).val
  basis := basis
  subject := subject
  anchorEntityId := anchorEntityId

def addedEntitySeed (entity : SemanticEntity) : PropagatingSeed :=
  ⟨impactSeed .to (.entityAdded entity.id) entity.id, true⟩

def removedEntitySeed (entity : SemanticEntity) : PropagatingSeed :=
  ⟨impactSeed .from (.entityRemoved entity.id) entity.id, true⟩

/-- The seeds of a step of the walk over the entities of both snapshots. -/
def entitySeeds : Walked SemanticEntity → Except CodedFailure (List PropagatingSeed)
  | .left entity => .ok [removedEntitySeed entity]
  | .right entity => .ok [addedEntitySeed entity]
  | .both before after =>
      if before.kind ≠ after.kind then
        failWith "IMPACT-004" (Text.cat ["Entity identity collision for \"", before.id, "\" across Impact endpoints"])
          [("entityId", .str before.id), ("fromKind", .str before.kind.toText), ("toKind", .str after.kind.toText)]
      else
        match entityChangedFields before after with
        | [] => .ok []
        | changedFields => .ok [
            ⟨impactSeed .from (.entityUpdated before.id changedFields) before.id, true⟩,
            ⟨impactSeed .to (.entityUpdated after.id changedFields) after.id, true⟩]

def collectEntitySeeds (before after : EngineeringIR) : Except CodedFailure (List PropagatingSeed) := do
  return (← (mergeWalk SemanticEntity.id before.entities after.entities).mapM entitySeeds).flatten

/-- The seeds of the assertions of a fact that changed. -/
def changeSeeds (before after : EngineeringIR) (change : SemanticFactChange) :
    Except CodedFailure (List PropagatingSeed) := do
  let old ← requireFact before change.factId .from
  let new ← requireFact after change.factId .to
  let added := change.addedAssertions.map fun assertion =>
    ⟨impactSeed .to (.assertionAdded new.id assertion.id) new.subject, false⟩
  let removed := change.removedAssertions.map fun assertion =>
    ⟨impactSeed .from (.assertionRemoved old.id assertion.id) old.subject, false⟩
  let updated := change.updatedAssertions.flatMap fun update => [
    ⟨impactSeed .from (.assertionUpdated old.id update.assertionId update.changedFields) old.subject, false⟩,
    ⟨impactSeed .to (.assertionUpdated new.id update.assertionId update.changedFields) new.subject, false⟩]
  return added ++ removed ++ updated

def collectFactSeeds (delta : FactDelta) (before after : EngineeringIR) : Except CodedFailure (List PropagatingSeed) := do
  let added := delta.added.map fun fact =>
    ⟨impactSeed .to (.factAdded fact.id) fact.subject, hasDefiniteAuthority fact⟩
  let removed := delta.removed.map fun fact =>
    ⟨impactSeed .from (.factRemoved fact.id) fact.subject, hasDefiniteAuthority fact⟩
  let changed ← delta.changed.mapM (changeSeeds before after)
  return added ++ removed ++ changed.flatten

end Seeds

/-! ## Uncertainties -/

structure UncertaintyDraft extends ImpactUncertainty where
  distance : Nat
  canonicalSeedId : Text

def uncertaintyIdentity (value : ImpactUncertainty) : List Text := [
  Text.ofNat (BASIS_RANK value.basis), "unknown", value.reasonCode.toText, value.boundaryEntityId.getD [],
  value.factId.getD [], value.predicate.elim [] SemanticPredicate.toText]

/-- The uncertainties by their identities. -/
abbrev Uncertainties := OrderedMap (List Text) UncertaintyDraft

/-- The least distance is kept; at one distance all seeds are kept and the least path. -/
def addUncertainty (uncertainties : Uncertainties) (draft : UncertaintyDraft) : Uncertainties :=
  let key := uncertaintyIdentity draft.toImpactUncertainty
  let fresh := { draft with seedIds := uniqueSorted draft.seedIds }
  match uncertainties.get? key with
  | none => uncertainties.set key fresh
  | some existing =>
      if draft.distance < existing.distance then uncertainties.set key fresh
      else if existing.distance < draft.distance then uncertainties
      else
        let seedIds := uniqueSorted (existing.seedIds ++ draft.seedIds)
        let better := seedPathKey draft.canonicalSeedId draft.canonicalPath <
          seedPathKey existing.canonicalSeedId existing.canonicalPath
        uncertainties.set key { existing with
          seedIds := seedIds
          canonicalSeedId := if better then draft.canonicalSeedId else existing.canonicalSeedId
          canonicalPath := if better then draft.canonicalPath else existing.canonicalPath }

def nonDefiniteUncertainty (basis : ImpactBasis) (fact : SemanticFact) (boundaryEntityId : Text) (seedIds : List Text)
    (canonicalSeedId : Text) (canonicalPath : List ImpactPathStep) : UncertaintyDraft where
  basis := basis
  reasonCode := .nonDefiniteAuthority
  boundaryEntityId := some boundaryEntityId
  factId := some fact.id
  predicate := some fact.predicate
  seedIds := seedIds
  canonicalSeedId := canonicalSeedId
  canonicalPath := canonicalPath
  distance := canonicalPath.length

/-! ## Edges -/

structure ReachState where
  entityId : Text
  distance : Nat
  seedIds : List Text
  canonicalSeedId : Text
  canonicalPath : List ImpactPathStep
  deriving DecidableEq

def stateUncertainty (basis : ImpactBasis) (reasonCode : ImpactUncertaintyReason) (state : ReachState)
    (fact : SemanticFact) : UncertaintyDraft where
  basis := basis
  reasonCode := reasonCode
  boundaryEntityId := some state.entityId
  factId := some fact.id
  predicate := some fact.predicate
  seedIds := state.seedIds
  canonicalSeedId := state.canonicalSeedId
  canonicalPath := state.canonicalPath
  distance := state.distance

def stateNonDefinite (basis : ImpactBasis) (state : ReachState) (fact : SemanticFact) : UncertaintyDraft :=
  nonDefiniteUncertainty basis fact state.entityId state.seedIds state.canonicalSeedId state.canonicalPath

/-- The candidates found so far. -/
structure EdgeScan where
  candidates : List ImpactPathStep
  uncertainties : Uncertainties

namespace EdgeScan

def uncertain (scan : EdgeScan) (draft : UncertaintyDraft) : EdgeScan :=
  { scan with uncertainties := addUncertainty scan.uncertainties draft }

def candidate (scan : EdgeScan) (step : ImpactPathStep) : EdgeScan :=
  { scan with candidates := scan.candidates ++ [step] }

end EdgeScan

def scanOutgoing (basis : ImpactBasis) (state : ReachState) (scan : EdgeScan) (fact : SemanticFact) :
    Except CodedFailure EdgeScan :=
  match IMPACT_PROPAGATION_RULES fact.predicate with
  | .unknown => .ok (scan.uncertain (stateUncertainty basis .unregisteredActivePredicate state fact))
  | .valueStop =>
      if hasDefiniteAuthority fact then .ok (scan.uncertain (stateUncertainty basis .valueObjectBoundary state fact))
      else .ok (scan.uncertain (stateNonDefinite basis state fact))
  | .edge .subjectToObject ruleVariantId =>
      match fact.object with
      | .value _ => failWith "IMPACT-003"
          (Text.cat ["Impact edge rule \"", ruleVariantId, "\" requires an entity object"])
          [("predicate", .str fact.predicate.toText), ("factId", .str fact.id)]
      | .entity entityId =>
          if hasDefiniteAuthority fact then
            .ok (scan.candidate ⟨fact.id, fact.predicate, ruleVariantId, .subjectToObject, state.entityId, entityId⟩)
          else .ok (scan.uncertain (stateNonDefinite basis state fact))
  | .edge .objectToSubject _ | .verification | .reserved => .ok scan

def scanIncoming (basis : ImpactBasis) (state : ReachState) (scan : EdgeScan) (fact : SemanticFact) : EdgeScan :=
  match IMPACT_PROPAGATION_RULES fact.predicate with
  | .unknown => scan.uncertain (stateUncertainty basis .unregisteredActivePredicate state fact)
  | .edge .objectToSubject ruleVariantId =>
      if hasDefiniteAuthority fact then
        scan.candidate ⟨fact.id, fact.predicate, ruleVariantId, .objectToSubject, state.entityId, fact.subject⟩
      else scan.uncertain (stateNonDefinite basis state fact)
  | .edge .subjectToObject _ | .valueStop | .verification | .reserved => scan

/-- The steps that leave an entity, in the order of their tuples, and the uncertainties met on the way. -/
def edgeCandidates (basis : ImpactBasis) (state : ReachState) (ir : EngineeringIR) (uncertainties : Uncertainties) :
    Except CodedFailure EdgeScan := do
  let outgoing ← (outgoingFactsBySubject ir state.entityId).foldlM (scanOutgoing basis state) ⟨[], uncertainties⟩
  let scan := (incomingFactsByEntityObject ir state.entityId).foldl (scanIncoming basis state) outgoing
  return { scan with candidates := sortBy pathStepTuple scan.candidates }

/-! ## Layers -/

abbrev ReachStates := OrderedMap Text ReachState

/-- The states after a candidate, when it changes them. -/
def mergeReachState (states : ReachStates) (candidate : ReachState) : Option ReachStates :=
  match states.get? candidate.entityId with
  | none => some (states.set candidate.entityId candidate)
  | some existing =>
      if candidate.distance < existing.distance then some (states.set candidate.entityId candidate)
      else if existing.distance < candidate.distance then none
      else
        let seedIds := uniqueSorted (existing.seedIds ++ candidate.seedIds)
        let better := seedPathKey candidate.canonicalSeedId candidate.canonicalPath <
          seedPathKey existing.canonicalSeedId existing.canonicalPath
        if ¬better ∧ seedIds = existing.seedIds then none
        else some (states.set candidate.entityId { existing with
          seedIds := seedIds
          canonicalSeedId := if better then candidate.canonicalSeedId else existing.canonicalSeedId
          canonicalPath := if better then candidate.canonicalPath else existing.canonicalPath })

structure Traversal where
  states : ReachStates
  uncertainties : Uncertainties

/-- A layer under way: the traversal so far and the entities of the next layer. -/
structure Layer where
  traversal : Traversal
  next : List Text

def seedState (seed : ImpactSeed) : ReachState := ⟨seed.anchorEntityId, 0, [seed.id], seed.id, []⟩

/-- The state at the end of a step. -/
def steppedState (state : ReachState) (step : ImpactPathStep) : ReachState :=
  ⟨step.toEntityId, state.distance + 1, state.seedIds, state.canonicalSeedId, state.canonicalPath ++ [step]⟩

def takeStep (basis : ImpactBasis) (ir : EngineeringIR) (state : ReachState) (layer : Layer) (step : ImpactPathStep) :
    Except CodedFailure Layer :=
  if (entityById ir step.toEntityId).isNone then
    failWith "IMPACT-006" (Text.cat ["Impact path references missing Entity \"", step.toEntityId, "\""])
      [("basis", .str basis.toText), ("factId", .str step.factId), ("entityId", .str step.toEntityId)]
  else
    match mergeReachState layer.traversal.states (steppedState state step) with
    | none => .ok layer
    | some states => .ok ⟨{ layer.traversal with states := states },
        if step.toEntityId ∈ layer.next then layer.next else layer.next ++ [step.toEntityId]⟩

/-- The entities of a frontier all have a state. -/
def expandEntity (basis : ImpactBasis) (ir : EngineeringIR) (layer : Layer) (entityId : Text) :
    Except CodedFailure Layer :=
  match layer.traversal.states.get? entityId with
  | none => .ok layer
  | some state => do
      let scan ← edgeCandidates basis state ir layer.traversal.uncertainties
      scan.candidates.foldlM (takeStep basis ir state)
        { layer with traversal := { layer.traversal with uncertainties := scan.uncertainties } }

/-- The order in which a layer is expanded. -/
def frontierKey (states : ReachStates) (entityId : Text) : Nat ×ₗ (Text ×ₗ List (List Text)) ×ₗ Text :=
  match states.get? entityId with
  | none => toLex (0, toLex (seedPathKey [] [], entityId))
  | some state => toLex (state.distance, toLex (seedPathKey state.canonicalSeedId state.canonicalPath, entityId))

def expandLayer (basis : ImpactBasis) (ir : EngineeringIR) (traversal : Traversal) (frontier : List Text) :
    Except CodedFailure Layer :=
  (sortBy (frontierKey traversal.states) frontier).foldlM (expandEntity basis ir) ⟨traversal, []⟩

def traverseLayers (basis : ImpactBasis) (ir : EngineeringIR) : Nat → Traversal → List Text →
    Except CodedFailure Traversal
  | 0, traversal, _ | _ + 1, traversal, [] => .ok traversal
  | fuel + 1, traversal, frontier => do
      let layer ← expandLayer basis ir traversal frontier
      traverseLayers basis ir fuel layer.traversal layer.next

/-- Every layer but the first reaches an entity of the graph for the first time. -/
def traverseBasis (basis : ImpactBasis) (seeds : List PropagatingSeed) (ir : EngineeringIR)
    (uncertainties : Uncertainties) : Except CodedFailure Traversal :=
  let anchors := seeds.filter fun entry => entry.seed.basis = basis && entry.propagates
  let states := anchors.foldl (fun (states : ReachStates) entry =>
    (mergeReachState states (seedState entry.seed)).getD states) .empty
  traverseLayers basis ir (ir.entities.length + 1) ⟨states, uncertainties⟩ states.keys

end SecPlatform.Compiler.SemanticImpact
