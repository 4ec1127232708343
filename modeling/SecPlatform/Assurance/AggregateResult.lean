import SecPlatform.Assurance.VerificationResult
import SecPlatform.Contracts.Canonical
import SecPlatform.Library.Except

/-!
# Verification data

Snapshots of plain data: finite numbers, and no `toJSON` member. Two snapshots are compared member by member, in
whatever order an object lists its members.
-/

namespace SecPlatform.Assurance

open Contracts

mutual
/-- `snapshotVerificationData`. The snapshot of plain data is the data; that objects and arrays are plain is guaranteed
by their type. -/
def assertVerificationData (label : Text) : Value → Except Text Unit
  | .null | .str _ | .bool _ => .ok ()
  | .num n => require n.isFinite (Text.cat [label, " must contain only finite numbers."])
  | .arr items => assertVerificationItems label 0 items
  | .obj members => do
      require (Text.ofString "toJSON" ∉ members.map Prod.fst) (Text.cat [label, " must not define or inherit toJSON."])
      assertVerificationMembers label members

def assertVerificationItems (label : Text) (index : Nat) : List Value → Except Text Unit
  | [] => .ok ()
  | item :: items => do
      assertVerificationData (Text.cat [label, "[", Text.ofNat index, "]"]) item
      assertVerificationItems label (index + 1) items

def assertVerificationMembers (label : Text) : List (Text × Value) → Except Text Unit
  | [] => .ok ()
  | (key, value) :: members => do
      assertVerificationData (Text.cat [label, ".", key]) value
      assertVerificationMembers label members
end

/-- `===` of numbers that are finite. -/
def strictlyEqual (n m : JsNumber) : Bool :=
  n = m || (n = .zero true || n = .zero false) && (m = .zero true || m = .zero false)

mutual
def snapshotsEqual : Value → Value → Bool
  | .null, .null => true
  | .bool a, .bool b => a = b
  | .num n, .num m => strictlyEqual n m
  | .str s, .str t => s = t
  | .arr left, .arr right => itemsEqual left right
  | .obj left, .obj right =>
      sortBy id (left.map Prod.fst) = sortBy id (right.map Prod.fst) && membersEqual left right
  | _, _ => false

def itemsEqual : List Value → List Value → Bool
  | [], [] => true
  | item :: left, item' :: right => snapshotsEqual item item' && itemsEqual left right
  | _, _ => false

/-- Every member of the left record equals the member of the right one under its key. -/
def membersEqual : List (Text × Value) → List (Text × Value) → Bool
  | [], _ => true
  | (key, value) :: left, right =>
      (match Json.get? key right with
        | some value' => snapshotsEqual value value'
        | none => false) && membersEqual left right
end

/-!
## A serialized aggregate

A value that claims to be the aggregate of an input is checked field by field, then against the input, and must equal
what the writer returns for that input.
-/

/-! ### The data of an aggregate -/

def VerificationClaimResult.toValue (result : VerificationClaimResult) : Value := .obj [
  ("claimId", .str result.claimId),
  ("status", .str result.status.toText),
  ("reasonCode", .str result.reasonCode.toText),
  ("contributingGateIds", .arr (result.contributingGateIds.map .str)),
  ("coverageComplete", .bool result.coverageComplete)]

def VerificationAggregateResult.toValue (result : VerificationAggregateResult) : Value := .obj [
  ("overallStatus", .str result.overallStatus.toText),
  ("overallReasonCode", .str result.overallReasonCode.toText),
  ("claimResults", .arr (result.claimResults.map VerificationClaimResult.toValue))]

/-! ### Fields -/

def assertObject (value : Value) (label : Text) : Except Text (List (Text × Value)) :=
  match value with
  | .obj members => .ok members
  | _ => .error (Text.cat [label, " must be an object."])

def assertExactKeys (members : List (Text × Value)) (expected : List Text) (label : Text) : Except Text Unit :=
  let actual := sortBy id (members.map Prod.fst)
  let wanted := sortBy id expected
  require (actual = wanted) (Text.cat
    [label, " has unknown or missing fields: ", Text.joinWith ", " actual, "; expected: ", Text.joinWith ", " wanted, "."])

/-- A field of a record whose keys have been checked. -/
def field (members : List (Text × Value)) (key : Text) : Value := (Json.get? key members).getD .null

/-- `assertString` of any value. -/
def assertStringValue (value : Value) (label : Text) : Except Text Text :=
  match value with
  | .str text => do
      assertString text label
      return text
  | _ => .error (Text.cat [label, " must be a non-empty control-character-free string."])

def assertIdentityValue (value : Value) (label : Text) : Except Text Text := do
  let text ← assertStringValue value label
  assertIdentity text label
  return text

/-- `assertStringSet`, with what the texts stand for. -/
def assertStringSet {α : Type} (toText : α → Text) (allowed : List α) (value : Value) (label : Text) : Except Text α := do
  let text ← assertStringValue value label
  match allowed.find? fun a => decide (toText a = text) with
  | some a => return a
  | none => throw (Text.cat
      [label, " must be one of: ", Text.joinWith ", " (allowed.map toText), "; received: ", text, "."])

def RESULT_STATUSES : List VerificationResultStatus := [.passed, .failed, .notRun, .unsupported, .invalidated]

def REASON_CODES : List VerificationReasonCode := [
  .executedSuccess, .executedFailure, .notApplicable, .failFastPrerequisiteFailed, .currentRunnerNotOwningEnvironment,
  .notDispatched, .requiredArtifactMissing, .capabilityUnsupported, .platformUnsupported, .selectionUnresolved,
  .inputInvalidated, .evidenceStale, .supersededRevision, .cancelled, .timeout, .cleanupFailed, .processSettlementFailed]

/-- `CodexDevelopmentAssertVerificationStatusReason`. -/
def assertStatusReasonValue (status reasonCode : Value) (label : Text) : Except Text StatusDecision := do
  let status ← assertStringSet VerificationResultStatus.toText RESULT_STATUSES status (Text.cat [label, ".status"])
  let reasonCode ← assertStringSet VerificationReasonCode.toText REASON_CODES reasonCode (Text.cat [label, ".reasonCode"])
  assertStatusReason status reasonCode label
  return ⟨status, reasonCode⟩

/-- `assertUniqueIdentityArray` of any value. -/
def assertUniqueIdentityItems (label : Text) (seen : List Text) : List Value → Except Text (List Text)
  | [] => .ok []
  | entry :: entries => do
      let identity ← assertIdentityValue entry (Text.cat [label, "[", Text.ofNat seen.length, "]"])
      require (identity ∉ seen) (Text.cat [label, " must not contain duplicate identity ", identity, "."])
      let identities ← assertUniqueIdentityItems label (seen ++ [identity]) entries
      return identity :: identities

def assertArray (value : Value) (label : Text) : Except Text (List Value) :=
  match value with
  | .arr items => .ok items
  | _ => .error (Text.cat [label, " must be an array."])

def assertBoolean (value : Value) (label : Text) : Except Text Bool :=
  match value with
  | .bool b => .ok b
  | _ => .error (Text.cat [label, " must be a boolean."])

/-! ### The check -/

def CLAIM_RESULT_KEYS : List Text := ["claimId", "status", "reasonCode", "contributingGateIds", "coverageComplete"]

def assertVerificationClaimResult (value : Value) (label : Text) : Except Text VerificationClaimResult := do
  let members ← assertObject value label
  assertExactKeys members CLAIM_RESULT_KEYS label
  let claimId ← assertIdentityValue (field members "claimId") (Text.cat [label, ".claimId"])
  let decision ← assertStatusReasonValue (field members "status") (field members "reasonCode") label
  let entries ← assertArray (field members "contributingGateIds") (Text.cat [label, ".contributingGateIds"])
  let contributingGateIds ← assertUniqueIdentityItems (Text.cat [label, ".contributingGateIds"]) [] entries
  let coverageComplete ← assertBoolean (field members "coverageComplete") (Text.cat [label, ".coverageComplete"])
  require (decision.status = .passed → coverageComplete)
    (Text.cat [label, " passed status requires coverageComplete=true."])
  require (decision.status = .passed → contributingGateIds ≠ [])
    (Text.cat [label, " passed status requires non-empty contributingGateIds."])
  return ⟨decision, claimId, contributingGateIds, coverageComplete⟩

def resultLabel : Text := "verification aggregate result"

/-- `${label}.claimResults[${index}]`. -/
def claimResultLabel (index : Nat) : Text := Text.cat [resultLabel, ".claimResults[", Text.ofNat index, "]"]

/-- The claim results of an aggregate, no two of them of one claim. -/
def assertClaimResults (seen : List Text) : List Value → Except Text (List VerificationClaimResult)
  | [] => .ok []
  | value :: values => do
      let result ← assertVerificationClaimResult value (claimResultLabel seen.length)
      require (result.claimId ∉ seen)
        (Text.cat [resultLabel, ".claimResults must not contain duplicate claimId ", result.claimId, "."])
      let results ← assertClaimResults (seen ++ [result.claimId]) values
      return result :: results

def assertKnownGates (gates : List VerificationGateResult) (entry : VerificationClaimResult × Nat) : Except Text Unit :=
  entry.1.contributingGateIds.forM fun gateId =>
    require (gateId ∈ gates.map VerificationGateResult.gateId)
      (Text.cat [claimResultLabel entry.2, " references unknown contributing gateId ", gateId, "."])

def AGGREGATE_RESULT_KEYS : List Text := ["overallStatus", "overallReasonCode", "claimResults"]

/-- `CodexDevelopmentAssertVerificationAggregateResultV1`. -/
def assertVerificationAggregateResult (value : Value) (input : VerificationAggregateInput) : Except Text Unit := do
  assertVerificationData resultLabel value
  let members ← assertObject value resultLabel
  assertExactKeys members AGGREGATE_RESULT_KEYS resultLabel
  let _ ← assertStatusReasonValue (field members "overallStatus") (field members "overallReasonCode")
    (Text.cat [resultLabel, ".overall"])
  let entries ← assertArray (field members "claimResults") (Text.cat [resultLabel, ".claimResults"])
  let claimResults ← assertClaimResults [] entries
  assertVerificationAggregateInput input
  claimResults.zipIdx.forM (assertKnownGates input.gateResults)
  let expected ← aggregateVerificationClaims input
  require (snapshotsEqual value expected.toValue)
    (Text.cat [resultLabel, " does not exactly match the canonical aggregate writer output."])

end SecPlatform.Assurance
