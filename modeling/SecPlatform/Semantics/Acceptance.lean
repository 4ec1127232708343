import SecPlatform.Contracts.LogicalPath
import SecPlatform.Library.Except
import SecPlatform.Library.Sorting

/-!
# Acceptance items

An acceptance item declares tests of a block, the blocks it covers and the items it depends on. Its identities are
canonical texts and its tests canonical paths.
-/

namespace SecPlatform.Semantics

open Contracts

/-! ## Identities -/

def isLowerAlphanumeric (c : CodeUnit) : Bool := (unit 'a' ≤ c && c ≤ unit 'z') || (unit '0' ≤ c && c ≤ unit '9')

/-- `^[a-z0-9](?:[a-z0-9_-]{0,n}[a-z0-9])?$` with `n + 2` the longest length. -/
def isIdentitySegment (longest : Nat) (value : Text) : Bool :=
  decide (value.length ≤ longest) && value.head?.any isLowerAlphanumeric && value.getLast?.any isLowerAlphanumeric &&
    value.all fun c => isLowerAlphanumeric c || c = unit '_' || c = unit '-'

/-- `isCanonicalAcceptanceId(value)`. -/
def isCanonicalAcceptanceId (value : Text) : Bool := isIdentitySegment 128 value

section

variable [UnicodeText]

def isCanonicalBlockId (value : Text) : Bool :=
  let segments := Text.splitAt (unit '/') value
  decide (value ≠ []) && decide (value.length ≤ 256) && decide (2 ≤ segments.length) &&
    segments.all fun segment => isIdentitySegment 64 segment && !isWindowsReservedLogicalComponent segment

end

/-! ## Items -/

structure AcceptanceItemSource where
  tests : List Text

structure AcceptanceCovers where
  blocks : Option (List Text)

structure AcceptanceItem where
  id : Text
  source : Option AcceptanceItemSource
  dependsOn : Option (List Text)
  covers : Option AcceptanceCovers

structure AcceptanceSource where
  declaringBlockId : Text
  acceptance : AcceptanceItem

section

variable [UnicodeText]

def canonicalAcceptanceTestPath (value : Text) : Except Text Text := do
  assertCanonicalPortableLogicalPath value "Acceptance proof path"
  require (Text.ofString "tests/acceptance/" <+: value ∧ isSecRepositoryTestModulePath value)
    (Text.ofString "Acceptance proof path is outside the canonical test domain: " ++ value)
  return value

def validateAcceptanceSourceTests (tests : List Text) : Except Text Unit := do
  require (tests ≠ []) (Text.ofString "Acceptance source tests must be a nonempty canonical path array")
  let paths ← tests.mapM canonicalAcceptanceTestPath
  require (paths = uniqueSorted paths) (Text.ofString "Acceptance source tests must be unique and canonically ordered")

/-- `validateAcceptanceItem`, for an item of the right shape. -/
def validateAcceptanceItem (item : AcceptanceItem) : Except Text Unit := do
  require (isCanonicalAcceptanceId item.id) (Text.ofString "Acceptance has a non-canonical Acceptance id")
  require (∀ dependsOn ∈ item.dependsOn, ∀ id ∈ dependsOn, isCanonicalAcceptanceId id)
    (Text.ofString "Acceptance has a non-canonical dependency identity")
  require (∀ covers ∈ item.covers, ∀ blocks ∈ covers.blocks, ∀ id ∈ blocks, isCanonicalBlockId id)
    (Text.ofString "Acceptance has a non-canonical Block coverage identity")
  match item.source with
  | some source => validateAcceptanceSourceTests source.tests
  | none => return

end

end SecPlatform.Semantics
