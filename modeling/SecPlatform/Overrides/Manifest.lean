import SecPlatform.Contracts.Canonical
import SecPlatform.Contracts.LogicalPath
import SecPlatform.Library.Except
import SecPlatform.Library.OrderedMap

/-!
# Override manifests

A manifest lists the files that replace files of the project. Two overrides never share a target, not even on a file
system that ignores case.
-/

namespace SecPlatform.Overrides

open Contracts

/-! ## Failures -/

/-- An override whose target could not be restored. -/
structure RollbackFailure where
  overrideId : Text
  target : Text
  deriving DecidableEq

/-- What a call throws: a coded failure, or any other error without a code. -/
structure Thrown where
  code : Option Text
  message : Text
  rollbackFailures : List RollbackFailure
  deriving DecidableEq

def coded (code message : Text) : Thrown := ⟨some code, message, []⟩

/-! ## Entries -/

inductive OverrideSource where
  | manual | ruleBacked
  deriving DecidableEq, Repr

structure OverrideEntry where
  id : Text
  entry : Text
  target : Text
  reason : Text
  source : OverrideSource
  conflictsWith : List Text
  deriving DecidableEq

/-! ## Schema -/

def isIdEdge (c : CodeUnit) : Bool := (unit 'a' ≤ c && c ≤ unit 'z') || (unit '0' ≤ c && c ≤ unit '9')

/-- At most 128 characters, letters and digits at both ends and also underscores and hyphens between them. -/
def isOverrideId (value : Text) : Bool :=
  decide (value ≠ []) && decide (value.length ≤ 128) && value.head?.any isIdEdge && value.getLast?.any isIdEdge &&
    value.all fun c => isIdEdge c || c = unit '_' || c = unit '-'

def schemaText (p : Text → Bool) (value : Option Value) : Option Text :=
  match value with
  | some (.str s) => if p s then some s else none
  | _ => none

/-- A member with a default. -/
def schemaDefault {α : Type} (fallback : α) (parse : Value → Option α) (value : Option Value) : Option α :=
  match value with
  | none => some fallback
  | some value => parse value

def parseOverrideSource : Value → Option OverrideSource
  | .str s => if s = Text.ofString "manual" then some .manual
      else if s = Text.ofString "rule-backed" then some .ruleBacked else none
  | _ => none

/-- `z.array`. -/
def schemaArray {α : Type} (parse : Value → Option α) : Value → Option (List α)
  | .arr items => items.mapM parse
  | _ => none

def overrideEntryKeys : List Text := ["id", "entry", "target", "reason", "source", "conflictsWith"]

/-- `OverrideEntrySchema`. -/
def parseOverrideEntry : Value → Option OverrideEntry
  | .obj members => do
      guard (members.map Prod.fst ⊆ overrideEntryKeys)
      let id ← schemaText isOverrideId (Json.get? "id" members)
      let entry ← schemaText (fun s => s ≠ []) (Json.get? "entry" members)
      let target ← schemaText (fun s => s ≠ []) (Json.get? "target" members)
      let reason ← schemaText (fun s => s.trim ≠ []) (Json.get? "reason" members)
      let source ← schemaDefault .manual parseOverrideSource (Json.get? "source" members)
      let conflictsWith ← schemaDefault [] (schemaArray fun value => schemaText isOverrideId (some value))
        (Json.get? "conflictsWith" members)
      return ⟨id, entry, target, reason.trim, source, conflictsWith⟩
  | _ => none

/-- `OverrideManifestSchema`. -/
def parseOverrideManifest : Value → Option (List OverrideEntry)
  | .obj members => do
      guard (members.map Prod.fst ⊆ [Text.ofString "overrides"])
      schemaDefault [] (schemaArray parseOverrideEntry) (Json.get? "overrides" members)
  | _ => none

/-! ## Validation -/

section Validation

variable [UnicodeText] [LocaleCase]

def requireCanonicalOverridePath (kind value : Text) : Except Thrown Unit :=
  require (isCanonicalPortableLogicalPath value)
    (coded "OVERRIDE-SCHEMA-003" (Text.cat [kind, " must be one canonical portable relative path"]))

def overrideEntryRoots : List Text := ["patches/", "rules/", "manifests/"]

def blockedOverrideTargets : List Text := ["sec.yaml", "package.json", "tsconfig.json"]

def blockedOverrideTargetPrefixes : List Text := ["model/", ".sec/"]

/-- One turn of the loop over the conflicts of an entry. -/
def checkConflict (entry : OverrideEntry) (conflicts : List Text) (conflictId : Text) : Except Thrown (List Text) := do
  require (¬(conflictId = entry.id ∨ conflictId ∈ conflicts)) (coded "OVERRIDE-SCHEMA-007"
    (Text.cat ["Override \"", entry.id, "\" has an invalid conflictsWith identity \"", conflictId, "\""]))
  return conflictId :: conflicts

/-- The variables of the loop over the entries. -/
structure Owners where
  ids : List Text
  targetOwners : OrderedMap Text Text

def checkEntry (owners : Owners) (entry : OverrideEntry) : Except Thrown Owners := do
  require (entry.id ∉ owners.ids)
    (coded "OVERRIDE-SCHEMA-002" (Text.cat ["Duplicate override id \"", entry.id, "\""]))
  requireCanonicalOverridePath "Override entry" entry.entry
  requireCanonicalOverridePath "Override target" entry.target
  require (∃ root ∈ overrideEntryRoots, root <+: entry.entry) (coded "OVERRIDE-SCHEMA-004"
    (Text.cat ["Override \"", entry.id, "\" entry must be under patches/, rules/, or manifests/"]))
  require (¬(entry.target ∈ blockedOverrideTargets ∨ ∃ root ∈ blockedOverrideTargetPrefixes, root <+: entry.target))
    (coded "OVERRIDE-SCHEMA-005"
      (Text.cat ["Override \"", entry.id, "\" targets a reserved path \"", entry.target, "\""]))
  let targetKey ← (portableLogicalPathCollisionKey entry.target "Override target").mapError fun message =>
    ⟨none, message, []⟩
  require (owners.targetOwners.get? targetKey = none) (coded "OVERRIDE-SCHEMA-008"
    (Text.cat ["Override target \"", entry.target, "\" has multiple owners: \"",
      (owners.targetOwners.get? targetKey).getD [], "\", \"", entry.id, "\""]))
  let _ ← entry.conflictsWith.foldlM (checkConflict entry) []
  return ⟨entry.id :: owners.ids, owners.targetOwners.set targetKey entry.id⟩

/-- Every conflict of an entry is an entry of the manifest. -/
def checkKnown (ids : List Text) (entry : OverrideEntry) : Except Thrown Unit :=
  entry.conflictsWith.forM fun conflictId => require (conflictId ∈ ids) (coded "OVERRIDE-SCHEMA-007"
    (Text.cat ["Override \"", entry.id, "\" references unknown conflict \"", conflictId, "\""]))

def validateOverrideManifest (input : Value) : Except Thrown (List OverrideEntry) :=
  match parseOverrideManifest input with
  | none => .error (coded "OVERRIDE-SCHEMA-001" "Override manifest violates the exact schema: ")
  | some overrides => do
      let owners ← overrides.foldlM checkEntry ⟨[], OrderedMap.empty⟩
      overrides.forM (checkKnown owners.ids)
      return overrides

end Validation

end SecPlatform.Overrides
