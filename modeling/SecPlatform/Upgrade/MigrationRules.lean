import SecPlatform.Contracts.Canonical
import SecPlatform.Library.Except

/-!
# Migration rules for JSON documents

What the JSON entries of an upgrade manifest do to a document. Documents and entries are plain JSON data: an object
is the list of its members in the order they were created, and to change a member in place is to define it again.
-/

namespace SecPlatform.Upgrade

open SecPlatform.Contracts (Value CodedFailure)

abbrev Members := List (Text × Value)

def migrationFailure (code message : Text) : CodedFailure := ⟨code, message, none⟩

/-! ## Own data -/

def reservedKeys : List Text := ["__proto__", "constructor", "prototype"]

def assertSafeJsonMutationKey (key field : Text) : Except CodedFailure Unit :=
  require (key ∉ reservedKeys) (migrationFailure "UPGRADE-MIGRATION-030"
    (field ++ Text.ofString " contains reserved JSON mutation key \"" ++ key ++ Text.ofString "\""))

def readOwnJsonMutationValue (object : Members) (key : Text) : Except CodedFailure (Option Value) := do
  assertSafeJsonMutationKey key "JSON mutation property"
  return Json.get? key object

def setOwnJsonValue (object : Members) (key : Text) (value : Value) : Except CodedFailure Members := do
  assertSafeJsonMutationKey key "JSON mutation property"
  return Json.define object key value

/-- `delete current[key]`. -/
def deleteOwn (object : Members) (key : Text) : Members := object.filter fun m => m.1 ≠ key

def assertSafeJsonMutationPath (pathSegments : List Text) (field : Text) : Except CodedFailure Unit :=
  pathSegments.forM fun segment => assertSafeJsonMutationKey segment field

mutual
def assertSafeJsonMergeValue (field : Text) : Value → Except CodedFailure Unit
  | .obj members => assertSafeJsonMergeObject field members
  | .null | .bool _ | .num _ | .str _ | .arr _ => .ok ()

def assertSafeJsonMergeObject (field : Text) : Members → Except CodedFailure Unit
  | [] => .ok ()
  | (key, child) :: rest => do
      assertSafeJsonMutationKey key field
      assertSafeJsonMergeValue field child
      assertSafeJsonMergeObject field rest
end

def ensureJsonObject (config : Value) (label : Text) : Except CodedFailure Members :=
  match config with
  | .obj members => .ok members
  | _ => .error (migrationFailure "UPGRADE-MIGRATION-009" (label ++ Text.ofString " target must contain a JSON object"))

/-! ## Paths -/

/-- Walks along a path to the object that has its last key and changes that object. `enter` is the object a walk goes
on with where the segment has this value; without one the document stays as it is. -/
def updateAt (enter : Option Value → Except CodedFailure (Option Members))
    (change : Members → Text → Except CodedFailure Members) : List Text → Members → Except CodedFailure Members
  | [], current => .ok current
  | [key], current => change current key
  | segment :: rest, current => do
      let next ← readOwnJsonMutationValue current segment
      match ← enter next with
      | none => return current
      | some inner =>
          let inner ← updateAt enter change rest inner
          setOwnJsonValue current segment (.obj inner)

/-- A parent that is no object is replaced by an empty one. -/
def createParent : Option Value → Except CodedFailure (Option Members)
  | some (.obj inner) => .ok (some inner)
  | _ => .ok (some [])

/-- A parent that is no object ends the walk. -/
def existingParent : Option Value → Except CodedFailure (Option Members)
  | some (.obj inner) => .ok (some inner)
  | _ => .ok none

/-- A missing parent is created, and one that is no object refused. -/
def mergeParent : Option Value → Except CodedFailure (Option Members)
  | some (.obj inner) => .ok (some inner)
  | none => .ok (some [])
  | some _ => .error (migrationFailure "UPGRADE-MIGRATION-013" "JSON object merge parent must be an object")

/-! ## Entries -/

/-- An update sets its value unless its operation is `delete`. -/
inductive ConfigOperation where
  | set (value : Value)
  | delete
  deriving DecidableEq

structure ConfigUpdate where
  path : List Text
  operation : ConfigOperation
  deriving DecidableEq

def applyConfigUpdate (root : Members) (update : ConfigUpdate) : Except CodedFailure Members := do
  require (update.path ≠ []) (migrationFailure "UPGRADE-MIGRATION-010" "Config rewrite path must not be empty")
  assertSafeJsonMutationPath update.path "Config rewrite path"
  match update.operation with
  | .set value => updateAt createParent (fun current key => setOwnJsonValue current key value) update.path root
  | .delete => updateAt existingParent (fun current key => .ok (deleteOwn current key)) update.path root

def applyConfigUpdates (config : Value) (updates : List ConfigUpdate) : Except CodedFailure Value := do
  let root ← ensureJsonObject config "Config rewrite"
  let root ← updates.foldlM applyConfigUpdate root
  return .obj root

/-- The checks of `resolveJsonArrayTarget`, and the change of the object it finds. -/
def updateJsonArrayTarget (enter : Option Value → Except CodedFailure (Option Members))
    (change : Members → Text → Except CodedFailure Members) (config : Value) (path : List Text) (label : Text) :
    Except CodedFailure Value := do
  require (path ≠ []) (migrationFailure "UPGRADE-MIGRATION-010" "JSON array migration path must not be empty")
  assertSafeJsonMutationPath path (label ++ Text.ofString " path")
  let root ← ensureJsonObject config label
  let root ← updateAt enter change path root
  return .obj root

/-- `JSON.stringify(item)`. -/
def serializedItem (item : Value) : Text := Json.render (Json.ofTree item)

/-- The array and the texts of the items seen in it. -/
def appendItem (state : List Value × List Text) (item : Value) : List Value × List Text :=
  if serializedItem item ∈ state.2 then state else (state.1 ++ [item], state.2 ++ [serializedItem item])

/-- The array to append to: a missing one is empty. -/
def existingItems : Option Value → Except CodedFailure (List Value)
  | none => .ok []
  | some (.arr existing) => .ok existing
  | some _ => .error (migrationFailure "UPGRADE-MIGRATION-012" "JSON array append target must be an array")

def appendItems (items : List Value) (parent : Members) (key : Text) : Except CodedFailure Members := do
  let target ← readOwnJsonMutationValue parent key
  let existing ← existingItems target
  setOwnJsonValue parent key (.arr (items.foldl appendItem (existing, existing.map serializedItem)).1)

def applyJsonArrayAppend (config : Value) (path : List Text) (items : List Value) : Except CodedFailure Value :=
  updateJsonArrayTarget createParent (appendItems items) config path "JSON array append"

def removeItems (items : List Value) (parent : Members) (key : Text) : Except CodedFailure Members := do
  match ← readOwnJsonMutationValue parent key with
  | none => return parent
  | some (.arr target) =>
      setOwnJsonValue parent key (.arr (target.filter fun item => serializedItem item ∉ items.map serializedItem))
  | some _ => .error (migrationFailure "UPGRADE-MIGRATION-012" "JSON array remove target must be an array")

def applyJsonArrayRemove (config : Value) (path : List Text) (items : List Value) : Except CodedFailure Value :=
  updateJsonArrayTarget existingParent (removeItems items) config path "JSON array remove"

-- `Object.keys` lists array indices first; the members a merge creates are enumerated in that order in any case.
mutual
/-- What a merge leaves under a key: two objects are merged, any other value is replaced. -/
def mergeJsonValue (existing : Option Value) : Value → Except CodedFailure Value
  | .obj value =>
      match existing with
      | some (.obj existing) => do return .obj (← mergeJsonObjects existing value)
      | _ => .ok (.obj value)
  | value => .ok value

def mergeJsonObjects (target : Members) : Members → Except CodedFailure Members
  | [] => .ok target
  | (key, value) :: source => do
      assertSafeJsonMutationKey key "JSON object merge value"
      let existing ← readOwnJsonMutationValue target key
      let merged ← mergeJsonValue existing value
      let target ← setOwnJsonValue target key merged
      mergeJsonObjects target source
end

/-- The object to merge into: a missing one is empty. -/
def targetObject : Option Value → Except CodedFailure Members
  | none => .ok []
  | some (.obj target) => .ok target
  | some _ => .error (migrationFailure "UPGRADE-MIGRATION-013" "JSON object merge target must be an object")

def mergeTarget (value : Members) (parent : Members) (key : Text) : Except CodedFailure Members := do
  let target ← readOwnJsonMutationValue parent key
  let targetObject ← targetObject target
  let merged ← mergeJsonObjects targetObject value
  setOwnJsonValue parent key (.obj merged)

def applyJsonObjectMerge (config : Value) (path : List Text) (value : Members) : Except CodedFailure Value := do
  require (path ≠ []) (migrationFailure "UPGRADE-MIGRATION-010" "JSON object merge path must not be empty")
  assertSafeJsonMutationPath path "JSON object merge path"
  assertSafeJsonMergeObject "JSON object merge value" value
  let root ← ensureJsonObject config "JSON object merge"
  let root ← updateAt mergeParent (mergeTarget value) path root
  return .obj root

/-- An object of JSON data, which has no key twice. -/
abbrev JsonObject := { members : Members // (Json.obj members : Value).UniqueKeys }

/-- The migration entries that change a JSON document. -/
inductive JsonMigrationEntry where
  | configRewrite (updates : List ConfigUpdate)
  | jsonArrayAppend (path : List Text) (items : List Value)
  | jsonArrayRemove (path : List Text) (items : List Value)
  | jsonObjectMerge (path : List Text) (value : JsonObject)
  deriving DecidableEq

def applyJsonMigration (entry : JsonMigrationEntry) (config : Value) : Except CodedFailure Value :=
  match entry with
  | .configRewrite updates => applyConfigUpdates config updates
  | .jsonArrayAppend path items => applyJsonArrayAppend config path items
  | .jsonArrayRemove path items => applyJsonArrayRemove config path items
  | .jsonObjectMerge path value => applyJsonObjectMerge config path value.val

/-! ## What a document holds -/

/-- What stands at a path: an object, or a value that is none. -/
inductive Content where
  | object
  | leaf (value : Value)
  deriving DecidableEq

def contentAt : Value → List Text → Option Content
  | .obj _, [] => some .object
  | value, [] => some (.leaf value)
  | .obj members, key :: path =>
      match Json.get? key members with
      | some value => contentAt value path
      | none => none
  | _, _ :: _ => none

/-- Two documents are equal when the same stands at every path. The order in which an object lists its members is no
part of a JSON document. -/
def SameDocument (config config' : Value) : Prop := ∀ path, contentAt config path = contentAt config' path

end SecPlatform.Upgrade
