import SecPlatform.Contracts.Canonical

/-!
# Failures of an upgrade

What an operation of an upgrade can throw, and how the lifecycle wraps it. Any value can be thrown; reading the
message of an error, the details of a coded failure or the text of an object may throw in turn.
-/

namespace SecPlatform.Upgrade

open SecPlatform.Contracts (Value)

/-- `CodedFailure.details`, an error put there, or an accessor that throws an error with this message. -/
inductive FailureDetails where
  | value (details : Value)
  | error (name message : Text)
  | unreadable (reason : Text)
  deriving DecidableEq

/-- A thrown value. `hostile` is an error whose message accessor throws; an object that is no error is inspected
as `shown`, and its conversion to a string may throw. -/
inductive Thrown where
  | coded (code message : Text) (details : FailureDetails) (cause : Option Thrown)
  | error (message : Text)
  | hostile (shown reason : Text)
  | aggregate (errors : List Thrown) (message : Text) (cause : Option Thrown)
  | composite (failures : List (Text × Thrown))
  | primitive (text : Text)
  | object (shown : Text) (text : Except Text Text)

namespace Thrown

/-- `instanceof Error`. -/
def isError : Thrown → Bool
  | .coded .. | .error _ | .hostile .. | .aggregate .. | .composite _ => true
  | .primitive _ | .object .. => false

/-- `primary.message`. -/
def message : Thrown → Except Thrown Text
  | .coded _ message _ _ | .error message | .aggregate _ message _ => .ok message
  | .composite _ => .ok (Text.ofString "Resource composite settlement failed.")
  | .hostile _ reason => .error (.error reason)
  | .primitive text => .ok text
  | .object shown _ => .ok shown

/-- `failureMessage`, which never throws. -/
def failureMessage : Thrown → Text
  | .coded _ message _ _ | .error message | .aggregate _ message _ => message
  | .composite _ => Text.ofString "Resource composite settlement failed."
  | .hostile shown _ => shown
  | .primitive text => text
  | .object shown _ => shown

/-- `failure instanceof Error ? failure : new Error(String(failure))`. -/
def asError : Thrown → Except Thrown Thrown
  | .primitive text => .ok (.error text)
  | .object _ (.ok text) => .ok (.error text)
  | .object _ (.error reason) => .error (.error reason)
  | failure => .ok failure

/-! ## Reference identity -/

mutual
/-- `===` of two thrown values: an object is identified with its content. -/
def same : Thrown → Thrown → Bool
  | .coded code message details cause, .coded code' message' details' cause' =>
      code == code' && message == message' && decide (details = details') && sameCause cause cause'
  | .error message, .error message' => message == message'
  | .hostile shown reason, .hostile shown' reason' => shown == shown' && reason == reason'
  | .aggregate errors message cause, .aggregate errors' message' cause' =>
      sameList errors errors' && message == message' && sameCause cause cause'
  | .composite failures, .composite failures' => sameLabelled failures failures'
  | .primitive text, .primitive text' => text == text'
  | .object shown (.ok text), .object shown' (.ok text') => shown == shown' && text == text'
  | .object shown (.error reason), .object shown' (.error reason') => shown == shown' && reason == reason'
  | _, _ => false

def sameCause : Option Thrown → Option Thrown → Bool
  | none, none => true
  | some cause, some cause' => same cause cause'
  | _, _ => false

def sameList : List Thrown → List Thrown → Bool
  | [], [] => true
  | e :: es, e' :: es' => same e e' && sameList es es'
  | _, _ => false

def sameLabelled : List (Text × Thrown) → List (Text × Thrown) → Bool
  | [], [] => true
  | (label, e) :: es, (label', e') :: es' => label == label' && same e e' && sameLabelled es es'
  | _, _ => false
end

end Thrown

/-! ## Wrapping -/

def upgradeFailureWithSecondaryFailures (primary : Thrown) (secondaryFailures : List Thrown) (message : Text) :
    Except Thrown Thrown := do
  if secondaryFailures.isEmpty then return primary
  let primaryMessage ← primary.message
  return .aggregate (primary :: secondaryFailures) (message ++ Text.ofString ": " ++ primaryMessage) (some primary)

/-- `normalizeCauseDetails`. -/
def normalizeCauseDetails : FailureDetails → Value
  | .value details => details
  | .error name message => .obj [(Text.ofString "name", .str name), (Text.ofString "message", .str message)]
  | .unreadable reason => .str reason

def restored : Text × Value := (Text.ofString "rollbackStatus", .str (Text.ofString "restored"))

/-- The details of `withRollbackDiagnostics`: empty ones are replaced, a plain object is extended and anything
else becomes their cause. -/
def rollbackDetails : FailureDetails → Except Thrown Value
  | .unreadable reason => .error (.error reason)
  | .value .null => .ok (.obj [restored])
  | .value (.obj members) => .ok (.obj (Json.define members restored.1 restored.2))
  | details => .ok (.obj [restored, (Text.ofString "causeDetails", normalizeCauseDetails details)])

/-- `withRollbackDiagnostics`, for a coded failure with these fields. -/
def withRollbackDiagnostics (code message : Text) (details : FailureDetails) (cause : Option Thrown) :
    Except Thrown Thrown := do
  let rollback ← rollbackDetails details
  return .coded code message (.value rollback) (some (.coded code message details cause))

end SecPlatform.Upgrade
