import Mathlib.Order.WithBot
import SecPlatform.Compiler.IR.Identity
import SecPlatform.Contracts.Lemmas.Canonical
import SecPlatform.Library.OrderedMap

/-!
# Normal metadata

A record of metadata keeps its own properties in the order of their creation, since that order is part of its text. Of
several records under one key the first stays, and the others must have its text.
-/

namespace SecPlatform.Compiler.IR

open Contracts Semantics

inductive FactStoreFailure where
  | coded (failure : CodedFailure)
  | keyConflict
  | typeError (message : Text)
  deriving DecidableEq

/-! ## Records -/

/-- The own properties of a record; a property may be there and be `undefined`. -/
structure MetadataRecord where
  fields : List (Text × Option Text)
  nodup : (fields.map Prod.fst).Nodup
  deriving DecidableEq

namespace MetadataRecord

def get (record : MetadataRecord) (name : Text) : Option Text := (OrderedMap.find name record.fields).join

/-- What `JSON.stringify` writes: a property that is `undefined` is left out. -/
def toValue (record : MetadataRecord) : Value :=
  .obj (record.fields.filterMap fun field => field.2.map fun data => (field.1, .str data))

/-- `metadataWireFields`: nothing when a property holds no text. -/
def metadataWireFields (record : MetadataRecord) : Option (List (Text × Text)) :=
  record.fields.mapM fun field => field.2.map fun data => (field.1, data)

end MetadataRecord

/-! ## Keys -/

/-- The components a key function reads. They are ordered as by `compareSemanticTuple`, an absent one first. -/
abbrev MetadataTuple := List (WithBot Text)

def provenanceKey (provenance : MetadataRecord) : MetadataTuple :=
  [provenance.get "kind", provenance.get "sourceId", provenance.get "sourcePath", provenance.get "revision"]

def evidenceKey (evidence : MetadataRecord) : MetadataTuple :=
  [evidence.get "kind", evidence.get "ref", evidence.get "digest"]

/-- `JSON.stringify` of a tuple: an absent component is `null`. -/
def tupleText (tuple : MetadataTuple) : Text :=
  Json.render (.arr (tuple.map fun component => match component with
    | none => .null
    | some data => .str data) : Value)

/-! ## Lists without repeated keys -/

/-- A record under a key that is taken has to be written as the one that took it. -/
def claimKey (keyOf : MetadataRecord → MetadataTuple) (byKey : OrderedMap Text MetadataRecord) (value : MetadataRecord) :
    Except FactStoreFailure (OrderedMap Text MetadataRecord) :=
  let key := tupleText (keyOf value)
  match byKey.get? key with
  | none => .ok (byKey.set key value)
  | some previous =>
      match previous.metadataWireFields, value.metadataWireFields with
      | some before, some current => if before = current then .ok byKey else .error .keyConflict
      | _, _ => .error (.typeError "IR metadata duplicates require enumerable own string data")

/-- Sorted by the text of the key first, then by the components of the key. -/
def uniqueSortedMetadataByKey (keyOf : MetadataRecord → MetadataTuple) (values : List MetadataRecord) :
    Except FactStoreFailure (List MetadataRecord) := do
  let byKey ← values.foldlM (claimKey keyOf) OrderedMap.empty
  return sortBy keyOf ((sortBy Prod.fst byKey.entries).map Prod.snd)

def normalizeProvenance (provenance : List MetadataRecord) : Except FactStoreFailure (List MetadataRecord) :=
  uniqueSortedMetadataByKey provenanceKey provenance

def normalizeEvidence (evidence : List MetadataRecord) : Except FactStoreFailure (List MetadataRecord) :=
  uniqueSortedMetadataByKey evidenceKey evidence

/-! ## Objects -/

mutual
theorem isFinite_normalizeSemanticValue : (v : Value) → isFinite v → isFinite (normalizeSemanticValue v)
  | .arr items, h => isFinite_normalizeSemanticItems items h
  | .obj members, h => by
      refine isFiniteMembers_iff.mpr fun m hm => ?_
      exact isFiniteMembers_iff.mp (isFinite_normalizeSemanticMembers members h) m ((canonicalOrder_perm _).mem_iff.mp hm)
  | .null, _ | .bool _, _ | .num _, h | .str _, _ => by first | rfl | exact h

theorem isFinite_normalizeSemanticItems : (vs : List Value) → isFiniteItems vs → isFiniteItems (normalizeSemanticItems vs)
  | [], _ => rfl
  | v :: vs, h => by
      simp only [isFiniteItems, normalizeSemanticItems, Bool.and_eq_true] at h ⊢
      exact ⟨isFinite_normalizeSemanticValue v h.1, isFinite_normalizeSemanticItems vs h.2⟩

theorem isFinite_normalizeSemanticMembers :
    (ms : List (Text × Value)) → isFiniteMembers ms → isFiniteMembers (normalizeSemanticMembers ms)
  | [], _ => rfl
  | (k, v) :: ms, h => by
      simp only [isFiniteMembers, normalizeSemanticMembers, Bool.and_eq_true] at h ⊢
      exact ⟨isFinite_normalizeSemanticValue v h.1, isFinite_normalizeSemanticMembers ms h.2⟩
end

def normalizeFactObject : SemanticFactObject → SemanticFactObject
  | .entity entityId => .entity entityId
  | .value content => .value ⟨normalizeSemanticValue content.val, isFinite_normalizeSemanticValue _ content.property⟩

/-!
## The store of facts

A fact is added under the id of its subject, predicate and object. Assertions with one id merge their evidence; a
different confidence under one id is refused.
-/

/-! ### Inputs and facts -/

structure FactInput where
  subject : Text
  predicate : SemanticPredicate
  object : SemanticFactObject
  authority : SemanticAuthority
  provenance : List MetadataRecord
  evidence : Option (List MetadataRecord)
  confidence : Option JsNumber
  deriving DecidableEq

structure StoredAssertion where
  id : Text
  authority : SemanticAuthority
  confidence : JsNumber
  provenance : List MetadataRecord
  evidence : List MetadataRecord
  validFromRevision : Text
  deriving DecidableEq

structure StoredFact where
  id : Text
  subject : Text
  predicate : SemanticPredicate
  object : SemanticFactObject
  assertions : List StoredAssertion
  deriving DecidableEq

/-- What `JSON.stringify` writes of an assertion. -/
def StoredAssertion.toValue (assertion : StoredAssertion) : Value := .obj [
  ("id", .str assertion.id),
  ("authority", .str assertion.authority.toText),
  ("confidence", .num assertion.confidence),
  ("provenance", .arr (assertion.provenance.map MetadataRecord.toValue)),
  ("evidence", .arr (assertion.evidence.map MetadataRecord.toValue)),
  ("validFromRevision", .str assertion.validFromRevision)]

def StoredFact.toValue (fact : StoredFact) : Value := .obj [
  ("id", .str fact.id),
  ("subject", .str fact.subject),
  ("predicate", .str fact.predicate.toText),
  ("object", fact.object.toValue),
  ("assertions", .arr (fact.assertions.map StoredAssertion.toValue))]

/-- `JSON.stringify(provenance)`. -/
def provenanceText (provenance : List MetadataRecord) : Text :=
  Json.render (.arr (provenance.map MetadataRecord.toValue) : Value)

/-- `input.confidence ?? 1`. -/
def FactInput.confidenceOrOne (input : FactInput) : JsNumber := input.confidence.getD (.ofNat 1)

/-- `input.evidence ?? []`. -/
def FactInput.evidenceOrNone (input : FactInput) : List MetadataRecord := input.evidence.getD []

/-! ### Building -/

/-- The subject, the predicate and the object of a failure. -/
def tripleDetails (subject : Text) (predicate : SemanticPredicate) (object : SemanticFactObject) : List (Text × Value) :=
  [("subject", .str subject), ("predicate", .str predicate.toText), ("object", object.toValue)]

def assertFactInput (input : FactInput) : Except FactStoreFailure Unit := do
  let confidence := input.confidenceOrOne
  require (¬(confidence.isFinite = false ∨ confidence.isNegative = true ∨ confidence.gtOne = true))
    (.coded ⟨"IR-AUTHORITY-001", "Semantic fact assertion confidence must be between 0 and 1",
      some (.obj (tripleDetails input.subject input.predicate input.object ++
        ([("confidence", .num confidence)] : List (Text × Value))))⟩)
  require (input.provenance ≠ []) (.coded ⟨"IR-AUTHORITY-002", "Semantic fact assertion must include provenance",
    some (.obj (tripleDetails input.subject input.predicate input.object))⟩)

section Hash

variable [Sha256]

def factAssertionId (factId : Text) (authority : SemanticAuthority) (provenance : List MetadataRecord) : Text :=
  let identity := Text.joinWith [0] [factId, authority.toText, provenanceText provenance]
  Text.cat ["assertion:", (digestHex identity).take 24]

def buildAssertion (factId : Text) (input : FactInput) : Except FactStoreFailure StoredAssertion := do
  let provenance ← normalizeProvenance input.provenance
  let evidence ← normalizeEvidence input.evidenceOrNone
  return {
    id := factAssertionId factId input.authority provenance
    authority := input.authority
    confidence := input.confidenceOrOne
    provenance
    evidence
    validFromRevision := "build" }

/-- `factIdentity` as a step of the store. -/
def identityOf (subject : Text) (predicate : SemanticPredicate) (object : SemanticFactObject) :
    Except FactStoreFailure Text := (factIdentity subject predicate object).mapError .coded

def buildFact (input : FactInput) : Except FactStoreFailure StoredFact := do
  assertFactInput input
  let normalizedObject := normalizeFactObject input.object
  let identity ← identityOf input.subject input.predicate normalizedObject
  let id := Text.cat ["fact:", (digestHex identity).take 24]
  let assertion ← buildAssertion id input
  return {
    id
    subject := input.subject
    predicate := input.predicate
    object := normalizedObject
    assertions := [assertion] }

end Hash

/-! ### Merging -/

def mergeAssertion (existing incoming : StoredAssertion) : Except FactStoreFailure StoredAssertion := do
  require (¬(existing.id ≠ incoming.id ∨ existing.authority ≠ incoming.authority ∨
      provenanceText existing.provenance ≠ provenanceText incoming.provenance))
    (.coded ⟨"IR-AUTHORITY-003", Text.cat ["Fact assertion id \"", existing.id,
      "\" collides across different assertion identities"], none⟩)
  require (existing.confidence.strictEquals incoming.confidence)
    (.coded ⟨"IR-AUTHORITY-003", Text.cat ["Fact assertion \"", existing.id, "\" has conflicting confidence"],
      some (.obj [("existingConfidence", .num existing.confidence), ("incomingConfidence", .num incoming.confidence)])⟩)
  let evidence ← normalizeEvidence (existing.evidence ++ incoming.evidence)
  return { existing with evidence }

/-- One turn of the loop over the incoming assertions. -/
def placeAssertion (assertions : OrderedMap Text StoredAssertion) (assertion : StoredAssertion) :
    Except FactStoreFailure (OrderedMap Text StoredAssertion) :=
  match assertions.get? assertion.id with
  | some current => do
      let merged ← mergeAssertion current assertion
      return assertions.set assertion.id merged
  | none => .ok (assertions.set assertion.id assertion)

def appendFactAssertions (existing incoming : StoredFact) : Except FactStoreFailure StoredFact := do
  let existingIdentity ← identityOf existing.subject existing.predicate existing.object
  let incomingIdentity ← identityOf incoming.subject incoming.predicate incoming.object
  require (existingIdentity = incomingIdentity)
    (.coded ⟨"IR-FACT-001", Text.cat ["Semantic fact id \"", existing.id, "\" collides across different triples"],
      some (.obj [
        ("existing", .obj (tripleDetails existing.subject existing.predicate existing.object)),
        ("incoming", .obj (tripleDetails incoming.subject incoming.predicate incoming.object))])⟩)
  let known := OrderedMap.ofList (existing.assertions.map fun assertion => (assertion.id, assertion))
  let assertions ← incoming.assertions.foldlM placeAssertion known
  return { existing with assertions := sortBy StoredAssertion.id assertions.values }

/-! ### Adding -/

abbrev FactStore := OrderedMap Text StoredFact

/-- The fact is set under its id, with the assertions that stand there. -/
def placeFact (facts : FactStore) (fact : StoredFact) : Except FactStoreFailure FactStore :=
  match facts.get? fact.id with
  | some existing => do
      let merged ← appendFactAssertions existing fact
      return facts.set fact.id merged
  | none => .ok (facts.set fact.id fact)

section Hash

variable [Sha256]

/-- The store after the call and the id that it returns. -/
def addFact (facts : FactStore) (input : FactInput) : Except FactStoreFailure (FactStore × Text) := do
  let fact ← buildFact input
  let facts ← placeFact facts fact
  return (facts, fact.id)

/-- The inputs added one after the other. -/
def addFacts (facts : FactStore) (inputs : List FactInput) : Except FactStoreFailure FactStore :=
  inputs.foldlM (fun facts input => Prod.fst <$> addFact facts input) facts

end Hash

/-- `[...facts.values()].sort((left, right) => compareCodeUnits(left.id, right.id))`. -/
def sortedFacts (facts : FactStore) : List StoredFact := sortBy StoredFact.id facts.values

end SecPlatform.Compiler.IR
