import SecPlatform.Library.Json

/-!
# Canonical values and digests

`canonicalJson` sorts the keys of every object and writes `-0` as `0`; a number that is not finite has no
canonical value. `sha256` hashes the text of the canonical value. The hash function itself is a
parameter: any function from text to digests.
-/

namespace SecPlatform.Contracts

/-! ## Digests -/

def isHexDigit (c : CodeUnit) : Bool := (unit '0' ≤ c && c ≤ unit '9') || (unit 'a' ≤ c && c ≤ unit 'f')

def isDigestHex (value : Text) : Bool := value.length = 64 && value.all isHexDigit

/-- `isDigest(value, 'sha256')`. -/
def isDigest (value : Text) : Bool := Text.ofString "sha256:" <+: value && isDigestHex (value.drop 7)

/-- A text of the form `sha256:` with 64 hexadecimal digits. -/
abbrev Digest := { value : Text // isDigest value }

instance Digest.instLawfulBEq : LawfulBEq Digest := inferInstance

instance HexDigit.instNeZero : NeZero 16 := ⟨by decide⟩

theorem isDigest_zeros : isDigest (Text.ofString "sha256:" ++ List.replicate 64 (unit '0')) := by decide

theorem isDigest_hexDigit (digit : Fin 16) :
    isDigest (Text.ofString "sha256:" ++ List.replicate 63 (unit '0') ++ [Json.hexDigit digit]) := by
  decide +revert

/-- SHA-256 of the UTF-8 bytes of a text. -/
class Sha256 where
  rawSha256 : Text → Digest

/-! ## Canonical values -/

abbrev Value := Json JsNumber

mutual
/-- Every number in the value is finite. -/
def isFinite : Value → Bool
  | .num n => n.isFinite
  | .arr items => isFiniteItems items
  | .obj members => isFiniteMembers members
  | .null | .bool _ | .str _ => true

def isFiniteItems : List Value → Bool
  | [] => true
  | v :: vs => isFinite v && isFiniteItems vs

def isFiniteMembers : List (Text × Value) → Bool
  | [] => true
  | (_, v) :: ms => isFinite v && isFiniteMembers ms
end

/-- `Object.keys(entry).sort(compareCodeUnits)`, and the order the new object lists these keys in. -/
def canonicalOrder {α : Type} (members : List (Text × α)) : List (Text × α) :=
  Json.ownOrder (sortBy Prod.fst members)

mutual
/-- The canonical value, when every number is finite. -/
def canonical : Value → Value
  | .num n => .num (if n = .zero true then .zero false else n)
  | .arr items => .arr (canonicalItems items)
  | .obj members => .obj (canonicalOrder (canonicalMembers members))
  | .null => .null
  | .bool b => .bool b
  | .str s => .str s

def canonicalItems : List Value → List Value
  | [] => []
  | v :: vs => canonical v :: canonicalItems vs

def canonicalMembers : List (Text × Value) → List (Text × Value)
  | [] => []
  | (k, v) :: ms => (k, canonical v) :: canonicalMembers ms
end

/-- The retained canonical encoding. -/
def canonicalEncoding (value : Value) : Text := (canonical value).render

/-- `Canonical JSON numbers must be finite`. -/
structure NotFinite where
  deriving DecidableEq, Repr

def canonicalJson (value : Value) : Except NotFinite Value :=
  if isFinite value then .ok (canonical value) else .error ⟨⟩

section Hash

variable [Sha256]

def sha256 (value : Value) : Except NotFinite Digest :=
  if isFinite value then .ok (Sha256.rawSha256 (canonicalEncoding value)) else .error ⟨⟩

end Hash

/-! ## Failures -/

/-- A failure with a code, as a producer throws it. -/
structure CodedFailure where
  code : Text
  message : Text
  details : Option Value
  deriving DecidableEq

/-- `fail(code, message, details)`. -/
def failWith {α : Type} (code message : Text) (details : List (Text × Value)) : Except CodedFailure α :=
  .error ⟨code, message, some (.obj details)⟩

end SecPlatform.Contracts
