import SecPlatform.Library.MergeDiff
import SecPlatform.Semantics.EngineeringIR

/-!
# The delta of two snapshots

The facts of two validated snapshots of one graph are walked together by their ids, and so are the assertions
of a fact that stands in both. The delta is hashed without the revisions from which its assertions are valid.
-/

namespace SecPlatform.Compiler.IR

open Contracts Semantics

def ENGINEERING_IR_FORMAT_VERSION : Text := "2"
def FACT_DELTA_CONTRACT_VERSION : Text := "1"
def FACT_DELTA_SCOPE : Text := "fact-set"

/-! ## Endpoints -/

def endpoint (context : FactDeltaEndpointContext) : FactDeltaEndpoint :=
  ⟨context.transactionId, context.inputRevision, context.semanticRevision⟩

def assertEndpoint (context : FactDeltaEndpointContext) (side : Text) : Except CodedFailure Unit :=
  let ir := context.snapshot.ir
  if context.transactionId.trim = [] ∨ context.inputRevision.trim = [] ∨ context.semanticRevision.trim = [] ∨
      context.inputRevision ≠ ir.inputRevision ∨ context.semanticRevision ≠ ir.semanticRevision then
    failWith "FACT-DELTA-001" (Text.cat ["Fact Delta ", side,
        " endpoint must bind a non-empty transaction audit label and exact snapshot revisions"]) [
      ("side", .str side),
      ("transactionId", .str context.transactionId),
      ("inputRevision", .str context.inputRevision),
      ("snapshotInputRevision", .str ir.inputRevision),
      ("semanticRevision", .str context.semanticRevision),
      ("snapshotSemanticRevision", .str ir.semanticRevision)]
  else .ok ()

def lineage (ir : EngineeringIR) : Value := .obj [
  ("formatVersion", .str ir.formatVersion),
  ("graphId", .str ir.graphId),
  ("appId", .str ir.appId)]

def assertCompatibleLineage (before after : EngineeringIR) : Except CodedFailure Unit :=
  if before.formatVersion ≠ after.formatVersion ∨ before.graphId ≠ after.graphId ∨ before.appId ≠ after.appId then
    failWith "FACT-DELTA-002" "Fact Delta endpoints must have the same format, graph, and app lineage"
      [("from", lineage before), ("to", lineage after)]
  else .ok ()

/-! ## Canonical facts -/

/-- An assertion without the revisions of its validity. -/
def canonicalAssertion (a : FactAssertion) : Value := .obj [
  ("id", .str a.id),
  ("authority", .str a.authority.toText),
  ("confidence", .num a.confidence.val),
  ("provenance", .arr (a.provenance.map FactProvenance.toValue)),
  ("evidence", .arr (a.evidence.map EvidenceReference.toValue))]

def canonicalFact : SemanticFact → Value := SemanticFact.toValueWith canonicalAssertion

def semanticRevisionPayload (ir : EngineeringIR) : Value := .obj [
  ("formatVersion", .str ENGINEERING_IR_FORMAT_VERSION),
  ("graphId", .str ir.graphId),
  ("appId", .str ir.appId),
  ("entities", .arr (ir.entities.map SemanticEntity.toValue)),
  ("facts", .arr (ir.facts.map canonicalFact)),
  ("scenarios", .arr (ir.scenarios.map ScenarioDefinition.toValue))]

def assertSameRevisionInvariant (before after : FactDeltaEndpointContext) : Except CodedFailure Unit :=
  if before.semanticRevision = after.semanticRevision ∧
      (semanticRevisionPayload before.snapshot.ir).render ≠ (semanticRevisionPayload after.snapshot.ir).render then
    failWith "FACT-DELTA-003" "Equal semantic revisions must identify the same canonical semantic payload"
      [("semanticRevision", .str before.semanticRevision)]
  else .ok ()

def assertSupportedValidity (ir : EngineeringIR) (side : Text) : Except CodedFailure Unit :=
  ir.facts.forM fun fact => fact.assertions.forM fun assertion =>
    match assertion.validToRevision with
    | some validToRevision => failWith "FACT-DELTA-006" "Fact Delta v1 does not support validToRevision"
        [("side", .str side), ("factId", .str fact.id), ("assertionId", .str assertion.id),
          ("validToRevision", .str validToRevision)]
    | none => .ok ()

/-! ## Differences -/

def sameObject (before after : SemanticFactObject) : Bool := decide (before.toValue.render = after.toValue.render)

def sameTriple (before after : SemanticFact) : Bool :=
  decide (before.subject = after.subject) && decide (before.predicate = after.predicate) &&
    sameObject before.object after.object

def sameProvenance (before after : List FactProvenance) : Bool :=
  decide (Json.render (.arr (before.map FactProvenance.toValue) : Value) =
    Json.render (.arr (after.map FactProvenance.toValue) : Value))

def sameEvidence (before after : List EvidenceReference) : Bool :=
  decide (Json.render (.arr (before.map EvidenceReference.toValue) : Value) =
    Json.render (.arr (after.map EvidenceReference.toValue) : Value))

def sameAssertionIdentity (before after : FactAssertion) : Bool :=
  decide (before.authority = after.authority) && sameProvenance before.provenance after.provenance

/-- The fields of two claims that differ. -/
def claimChanges (before after : AssertionClaim) : List FactAssertionUpdateField :=
  (if before.confidence.val.strictEquals after.confidence.val then [] else [.confidence]) ++
    (if sameEvidence before.evidence after.evidence then [] else [.evidence])

def assertionUpdate (before after : FactAssertion) : Option FactAssertionUpdate :=
  let claimed : AssertionClaim := ⟨before.confidence, before.evidence⟩
  let claims : AssertionClaim := ⟨after.confidence, after.evidence⟩
  match claimChanges claimed claims with
  | [] => none
  | changedFields => some ⟨before.id, changedFields, claimed, claims⟩

/-- Two assertions with one id. -/
def sameAssertion (factId : Text) (before after : FactAssertion) : Except CodedFailure (Option FactAssertionUpdate) :=
  if sameAssertionIdentity before after then .ok (assertionUpdate before after)
  else failWith "FACT-DELTA-005" (Text.cat ["Fact assertion identity collision for \"", before.id, "\""])
    [("factId", .str factId), ("assertionId", .str before.id)]

def diffAssertions (before after : SemanticFact) : Except CodedFailure (Option SemanticFactChange) := do
  let diff ← mergeDiff FactAssertion.id (sameAssertion before.id) before.assertions after.assertions
  return if diff.added.isEmpty && diff.removed.isEmpty && diff.changed.isEmpty then none
    else some ⟨before.id, diff.added, diff.removed, diff.changed⟩

/-- Two facts with one id. -/
def sameFact (before after : SemanticFact) : Except CodedFailure (Option SemanticFactChange) :=
  if sameTriple before after then diffAssertions before after
  else failWith "FACT-DELTA-004" (Text.cat ["Semantic fact identity collision for \"", before.id, "\""])
    [("factId", .str before.id)]

def diffFacts (before after : List SemanticFact) : Except CodedFailure (MergeDiff SemanticFact SemanticFactChange) :=
  mergeDiff SemanticFact.id sameFact before after

/-! ## Invariants of the output -/

def assertSortedUnique (ids : List Text) (collection : Text) : Except CodedFailure Unit :=
  (ids.zip ids.tail).forM fun (previousId, id) =>
    if previousId < id then .ok ()
    else failWith "FACT-DELTA-007" (Text.cat ["Fact Delta ", collection, " must be unique and canonically ordered"])
      [("collection", .str collection), ("previousId", .str previousId), ("id", .str id)]

/-- No id is in two classes; `seen` holds the ids so far. -/
def assertOneClass (failure : Text → Except CodedFailure Unit) (seen : List Text) : List Text → Except CodedFailure Unit
  | [] => .ok ()
  | id :: ids => if id ∈ seen then failure id else assertOneClass failure (id :: seen) ids

def assertChange (change : SemanticFactChange) : Except CodedFailure Unit := do
  let added := change.addedAssertions.map FactAssertion.id
  let removed := change.removedAssertions.map FactAssertion.id
  let updated := change.updatedAssertions.map FactAssertionUpdate.assertionId
  assertSortedUnique added (Text.cat ["changed:", change.factId, ":addedAssertions"])
  assertSortedUnique removed (Text.cat ["changed:", change.factId, ":removedAssertions"])
  assertSortedUnique updated (Text.cat ["changed:", change.factId, ":updatedAssertions"])
  assertOneClass (fun assertionId => failWith "FACT-DELTA-007"
    (Text.cat ["Fact Delta assertion \"", assertionId, "\" appears in multiple classifications"])
    [("factId", .str change.factId), ("assertionId", .str assertionId)]) [] (added ++ removed ++ updated)
  change.updatedAssertions.forM fun update =>
    if update.changedFields = claimChanges update.before update.after then .ok ()
    else failWith "FACT-DELTA-007"
      (Text.cat ["Fact Delta assertion update \"", update.assertionId, "\" has non-canonical changedFields"])
      [("factId", .str change.factId), ("assertionId", .str update.assertionId)]

def assertOutputInvariants (diff : MergeDiff SemanticFact SemanticFactChange) : Except CodedFailure Unit := do
  let added := diff.added.map SemanticFact.id
  let removed := diff.removed.map SemanticFact.id
  let changed := diff.changed.map SemanticFactChange.factId
  assertSortedUnique added "added"
  assertSortedUnique removed "removed"
  assertSortedUnique changed "changed"
  assertOneClass (fun factId => failWith "FACT-DELTA-007"
    (Text.cat ["Fact Delta fact \"", factId, "\" appears in multiple classifications"])
    [("factId", .str factId)]) [] (added ++ removed ++ changed)
  diff.changed.forM assertChange

/-! ## The delta -/

section Digests

variable [Sha256]

/-- The digest of the text of a payload. -/
def digest (payload : Value) : Text := (Sha256.rawSha256 payload.render).val

def factSetDigest (ir : EngineeringIR) : Text := digest (.obj [
  ("domain", .str "engineering-ir-fact-set-v1"),
  ("formatVersion", .str ir.formatVersion),
  ("graphId", .str ir.graphId),
  ("appId", .str ir.appId),
  ("facts", .arr (ir.facts.map canonicalFact))])

/-- The payload leaves the revision of the delta out. -/
def deltaDigestPayload (delta : FactDelta) : Value := .obj [
  ("domain", .str "engineering-ir-fact-delta-v1"),
  ("contractVersion", .str delta.contractVersion),
  ("scope", .str delta.scope),
  ("formatVersion", .str delta.formatVersion),
  ("graphId", .str delta.graphId),
  ("appId", .str delta.appId),
  ("from", .obj [("semanticRevision", .str delta.fromEndpoint.semanticRevision)]),
  ("to", .obj [("semanticRevision", .str delta.toEndpoint.semanticRevision)]),
  ("fromFactSetDigest", .str delta.fromFactSetDigest),
  ("toFactSetDigest", .str delta.toFactSetDigest),
  ("added", .arr (delta.added.map canonicalFact)),
  ("removed", .arr (delta.removed.map canonicalFact)),
  ("changed", .arr (delta.changed.map (SemanticFactChange.toValueWith canonicalAssertion)))]

def buildFactDelta (before after : FactDeltaEndpointContext) : Except CodedFailure FactDelta := do
  assertEndpoint before "from"
  assertEndpoint after "to"
  assertCompatibleLineage before.snapshot.ir after.snapshot.ir
  assertSameRevisionInvariant before after
  assertSupportedValidity before.snapshot.ir "from"
  assertSupportedValidity after.snapshot.ir "to"
  let diff ← diffFacts before.snapshot.ir.facts after.snapshot.ir.facts
  assertOutputInvariants diff
  let delta : FactDelta := {
    contractVersion := FACT_DELTA_CONTRACT_VERSION
    scope := FACT_DELTA_SCOPE
    formatVersion := before.snapshot.ir.formatVersion
    graphId := before.snapshot.ir.graphId
    appId := before.snapshot.ir.appId
    fromEndpoint := endpoint before
    toEndpoint := endpoint after
    fromFactSetDigest := factSetDigest before.snapshot.ir
    toFactSetDigest := factSetDigest after.snapshot.ir
    added := diff.added
    removed := diff.removed
    changed := diff.changed
    deltaRevision := [] }
  return { delta with deltaRevision := digest (deltaDigestPayload delta) }

end Digests

end SecPlatform.Compiler.IR
