import SecPlatform.Library.Surroundings
import SecPlatform.Overrides.Manifest

/-!
# Applying overrides

Every override is planned against the bytes of its source and of its target. Each is published by one of three ways, and a
failure takes the published ones back, the last one first. Files are asked for by requests: a check of a target and the
replacement behind it are two of them.
-/

namespace SecPlatform.Overrides

open Contracts
open CallM

abbrev Bytes : Type := List UInt8

/-! ## Requests -/

/-- The file operations and the fence of the caller. -/
inductive Request where
  | fence
  /-- `readOptionalRetainedOrdinaryFile`. -/
  | read (path : Text)
  /-- `inspectNoFollowDirectoryChain`. -/
  | inspectDirectory (path : Text)
  /-- `createNoFollowDirectoryChain`. -/
  | createDirectories (path : Text)
  /-- `readNoFollowOrdinaryFile`, or `inspectNoFollowOrdinaryFileEntry` where only an ordinary file has bytes. -/
  | check (path : Text)
  /-- `publishExclusiveDurableCanonicalFile`; the answer is whether the file was created. -/
  | publishExclusive (path : Text) (bytes : Bytes)
  /-- `replaceDurableCanonicalFile`. -/
  | replace (path : Text) (bytes : Bytes)
  /-- `deleteRetainedNoFollowEntry`. -/
  | delete (path : Text)
  deriving DecidableEq

abbrev Request.Answer : Request → Type
  | .fence | .inspectDirectory _ | .createDirectories _ | .replace .. | .delete _ => Unit
  | .read _ | .check _ => Option Bytes
  | .publishExclusive .. => Bool

/-- An override with the bytes it was planned against. -/
structure PreparedOverride where
  entry : OverrideEntry
  sourcePath : Text
  sourceBytes : Bytes
  targetPath : Text
  targetPreimage : Option Bytes
  deriving DecidableEq

/-- A program whose variable is the list of the published overrides. -/
abbrev Apply (α : Type) : Type := CallM (List PreparedOverride) Request Request.Answer Thrown α

abbrev ask (request : Request) : Apply request.Answer := perform request

def uncoded (message : Text) : Thrown := ⟨none, message, []⟩

/-! ## Paths -/

/-- Texts of manifests and sources: their UTF-8 decoding and the YAML reader. -/
class ManifestText where
  /-- `decodeExactUtf8` does not throw. -/
  isExactUtf8 : Bytes → Bool
  /-- `parseYamlValue`. -/
  parseYamlValue : Bytes → Except Thrown Value

/-- Paths are relative to the workspace root, which is the empty path. -/
def overridesRoot : Text := "model/patches"

def overrideManifestPath : Text := "model/patches/override-manifest.yaml"

/-- `isSafeRelativePath`. -/
def isSafeRelativePath (value : Text) : Bool :=
  let normalized := value.map fun c => if c = unit '\\' then unit '/' else c
  decide (value ≠ []) && decide (0 ∉ value) && !posixIsAbsolute value && !hasWindowsDrivePrefix value &&
    !decide (Text.ofString "//" <+: normalized) && decide (Text.ofString ".." ∉ Text.splitAt (unit '/') normalized)

/-- `resolvePathInside`. -/
def resolvePathInside (root relativePath : Text) : Option Text :=
  if isSafeRelativePath relativePath then
    some (if root = [] then relativePath else Text.cat [root, "/", relativePath])
  else none

/-- The path of the directory around a file. -/
def parentPath (path : Text) : Text := Text.joinWith "/" (Text.splitAt (unit '/') path).dropLast

/-- `/^[a-z0-9-]+$/u`, or `.tmp`. -/
def isCreatableSegment (segment : Text) : Bool :=
  decide (segment = Text.ofString ".tmp") ||
    (decide (segment ≠ []) && segment.all fun c => isIdEdge c || c = unit '-')

section Program

variable [UnicodeText] [LocaleCase] [ManifestText]

/-! ## Publication -/

/-- `workspaceRelativeSegments`. -/
def workspaceRelativeSegments (targetPath : Text) : Except Thrown (List Text) := do
  require (isCanonicalPortableLogicalPath targetPath) (uncoded (Text.cat
    ["Canonical workspace publication target \"", targetPath, "\" is not one portable logical path"]))
  return Text.splitAt (unit '/') targetPath

def checkCreatableSegment (segment : Text) : Except Thrown Unit :=
  require (isCreatableSegment segment) (uncoded (Text.cat
    ["Canonical workspace publication parent \"", segment, "\" is outside the retained canonical-directory vocabulary"]))

def retainedCreatablePublicationParent (targetPath : Text) (commitFence : Apply Unit) : Apply Unit := do
  let segments ← result (workspaceRelativeSegments targetPath)
  result (segments.dropLast.forM checkCreatableSegment)
  ask (.inspectDirectory [])
  commitFence
  if segments.dropLast = [] then pure () else ask (.createDirectories (parentPath targetPath))

def retainedExistingPublicationParent (targetPath : Text) (commitFence : Apply Unit) : Apply Unit := do
  let _ ← result (workspaceRelativeSegments targetPath)
  commitFence
  ask (.inspectDirectory (parentPath targetPath))

def publishExclusiveCanonicalWorkspaceFile (targetPath : Text) (bytes : Bytes) (commitFence : Apply Unit) :
    Apply Bool := do
  retainedCreatablePublicationParent targetPath commitFence
  commitFence
  ask (.publishExclusive targetPath bytes)

def publishExpectedCanonicalWorkspaceFile (targetPath : Text) (expectedBytes bytes : Bytes) (label : Text)
    (commitFence : Apply Unit) : Apply Unit := do
  retainedExistingPublicationParent targetPath commitFence
  commitFence
  let current ← ask (.check targetPath)
  result (require (current = some expectedBytes) (uncoded (Text.cat [label, " preimage changed before publication"])))
  ask (.replace targetPath bytes)

def deleteExpectedCanonicalWorkspaceFile (targetPath : Text) (expectedBytes : Bytes) (label : Text) : Apply Unit := do
  retainedExistingPublicationParent targetPath (pure ())
  let current ← ask (.check targetPath)
  result (require (current = some expectedBytes)
    (uncoded (Text.cat [label, " rollback preimage changed before deletion"])))
  ask (.delete targetPath)

/-! ## Planning -/

/-- The message of an override. -/
def overrideFailure (entry : OverrideEntry) (rest : Text) : Thrown :=
  coded "OVERRIDE-APPLY-001" (Text.cat ["Override \"", entry.id, "\"", rest])

def overridePaths (entry : OverrideEntry) : Except Thrown (Text × Text) :=
  match resolvePathInside overridesRoot entry.entry, resolvePathInside [] entry.target with
  | some sourcePath, some targetPath => .ok (sourcePath, targetPath)
  | _, _ => .error (overrideFailure entry " escaped its validated source/target root")

def readOverrideSource (entry : OverrideEntry) : Apply PreparedOverride := do
  let (sourcePath, targetPath) ← result (overridePaths entry)
  let source ← ask (.read sourcePath)
  let sourceBytes ← result (match source with
    | none => .error (overrideFailure entry (Text.cat [" source \"", entry.entry, "\" is missing"]))
    | some bytes => .ok bytes)
  result (require (ManifestText.isExactUtf8 sourceBytes) (overrideFailure entry " source is not exact UTF-8"))
  let targetPreimage ← ask (.read targetPath)
  return ⟨entry, sourcePath, sourceBytes, targetPath, targetPreimage⟩

/-- One turn of `assertPreparedOverrideInputsCurrent`. -/
def assertPreparedOverrideCurrent (override : PreparedOverride) : Apply Unit := do
  let source ← ask (.read override.sourcePath)
  let target ← ask (.read override.targetPath)
  result (require (source = some override.sourceBytes)
    (overrideFailure override.entry " source changed after planning"))
  result (require (target = override.targetPreimage)
    (overrideFailure override.entry " target preimage changed after planning"))

/-- The entries of the manifest of a workspace; no manifest has none. -/
def manifestEntries (bytes : Option Bytes) : Except Thrown (List OverrideEntry) :=
  match bytes with
  | none => .ok []
  | some source => do
      require (ManifestText.isExactUtf8 source) (uncoded "Override manifest is not exact UTF-8")
      let raw ← ManifestText.parseYamlValue source
      validateOverrideManifest (if raw = .null then .obj [] else raw)

def loadOverrideManifest : Apply (List OverrideEntry) := do
  let bytes ← ask (.read overrideManifestPath)
  result (manifestEntries bytes)

/-- Everything before the first effect. -/
def planOverrides : Apply (List PreparedOverride) := do
  let entries ← loadOverrideManifest
  let prepared ← entries.mapM readOverrideSource
  ask .fence
  prepared.forM assertPreparedOverrideCurrent
  return prepared

/-! ## Publishing -/

def publicationFence (override : PreparedOverride) : Apply Unit := do
  ask .fence
  let source ← ask (.read override.sourcePath)
  result (require (source = some override.sourceBytes)
    (overrideFailure override.entry " source changed before publication"))

/-- The label of an override. -/
def overrideLabel (override : PreparedOverride) (suffix : Text) : Text := Text.cat ["Override ", override.entry.id, suffix]

/-- One turn of the publishing loop; whether the override is published by this call. -/
def publishOverride (override : PreparedOverride) : Apply Bool :=
  match override.targetPreimage with
  | none => publishExclusiveCanonicalWorkspaceFile override.targetPath override.sourceBytes (publicationFence override)
  | some preimage =>
      if preimage = override.sourceBytes then do
        publicationFence override
        let current ← ask (.read override.targetPath)
        result (require (current = some override.sourceBytes)
          (overrideFailure override.entry " target changed before no-op completion"))
        return false
      else do
        publishExpectedCanonicalWorkspaceFile override.targetPath preimage override.sourceBytes
          (overrideLabel override []) (publicationFence override)
        return true

def publishAndRecord (override : PreparedOverride) : Apply Unit := do
  let published ← publishOverride override
  if published then change fun published => published ++ [override] else pure ()

/-! ## Rollback -/

def rollbackOverride (override : PreparedOverride) : Apply Unit :=
  match override.targetPreimage with
  | none => deleteExpectedCanonicalWorkspaceFile override.targetPath override.sourceBytes
      (overrideLabel override " rollback")
  | some preimage => publishExpectedCanonicalWorkspaceFile override.targetPath override.sourceBytes preimage
      (overrideLabel override " rollback") (pure ())

/-- The failure of one compensation is kept, and the others are attempted. -/
def compensate (override : PreparedOverride) : Apply (List RollbackFailure) :=
  tryCatch ((fun _ => []) <$> rollbackOverride override) fun _ => pure [⟨override.entry.id, override.targetPath⟩]

/-- `rollbackPublishedOverrides` on the overrides from the last to the first. -/
def rollbackPublishedOverrides : List PreparedOverride → Apply (List RollbackFailure)
  | [] => pure []
  | override :: rest => do
      let failed ← compensate override
      let others ← rollbackPublishedOverrides rest
      return failed ++ others

/-- The handler of a failed publication. -/
def recoverOverrides (failure : Thrown) : Apply Unit := do
  let published ← current
  let failures ← rollbackPublishedOverrides published.reverse
  if failures ≠ [] then
    throw ⟨some "OVERRIDE-APPLY-002", "Override publication failed and exact rollback could not be proven", failures⟩
  else throw failure

def publishOverrides (prepared : List PreparedOverride) : Apply Unit :=
  tryCatch (prepared.forM publishAndRecord) recoverOverrides

def applyOverrides : Apply Unit := do
  let prepared ← planOverrides
  publishOverrides prepared

end Program

end SecPlatform.Overrides
