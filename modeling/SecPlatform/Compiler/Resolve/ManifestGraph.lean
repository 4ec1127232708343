import SecPlatform.Contracts.ObjectGraph
import SecPlatform.Library.Except
import SecPlatform.Library.OrderedMap
import Mathlib.Data.Prod.Lex

/-!
# The manifest dependency graph

`resolveManifestGraph` selects the explicit entries, adds providers that the compiler packages for what
they require, checks the conflicts and orders the selection with every provider before its consumers.
-/

namespace SecPlatform.Compiler

open Contracts

/-! ## Manifests -/

inductive ManifestKind where
  | capability
  | strategy
  | infra
  | governance
  deriving DecidableEq, Repr

def ManifestKind.toText : ManifestKind → Text
  | .capability => Text.ofString "capability"
  | .strategy => Text.ofString "strategy"
  | .infra => Text.ofString "infra"
  | .governance => Text.ofString "governance"

/-- `KIND_PRIORITY`. -/
def ManifestKind.priority : ManifestKind → Nat
  | .infra => 0
  | .governance => 1
  | .capability => 2
  | .strategy => 3

inductive RegistryKind where
  | official
  | privateKind
  | community
  deriving DecidableEq, Repr

def RegistryKind.toText : RegistryKind → Text
  | .official => Text.ofString "official"
  | .privateKind => Text.ofString "private"
  | .community => Text.ofString "community"

inductive RegistryLocation where
  | compiler
  | workspace
  deriving DecidableEq, Repr

def RegistryLocation.toText : RegistryLocation → Text
  | .compiler => Text.ofString "compiler"
  | .workspace => Text.ofString "workspace"

def BUILTIN_OFFICIAL_REGISTRY_RELATIVE_PATH : Text := Text.ofString "catalog/registry/official"

structure RegistryManifestIdentity where
  version : Text
  registrySourceId : Text
  registryKind : RegistryKind
  registryLocation : RegistryLocation
  registryPath : Text

/-- The sources a manifest was preferred to, for diagnostics. -/
structure RegistrySourceResolution where
  shadowed : List RegistryManifestIdentity

def manifestFields : List Text :=
  ["id", "version", "kind", "requires", "provides", "conflicts"].map Text.ofString

/-- The fields of a manifest that only the comparison of definitions reads: its profiles, compatibility,
installs, pins, acceptance, upgrade, contracts and generators. None of them holds a number. -/
structure ManifestDetails where
  members : List (Text × Value)
  finite : isFiniteMembers members
  keys : (manifestFields ++ members.map Prod.fst).Nodup

structure BlockManifest where
  id : Text
  version : Text
  kind : ManifestKind
  requires : List Text
  provides : List Text
  conflicts : List Text
  details : ManifestDetails

def textsValue (texts : List Text) : Value := .arr (texts.map .str)

theorem isFinite_textsValue (texts : List Text) : isFinite (textsValue texts) := by
  induction texts with
  | nil => rfl
  | cons t texts ih => simpa [textsValue, isFinite, isFiniteItems] using ih

def BlockManifest.toValue (manifest : BlockManifest) : FiniteValue :=
  ⟨.obj (manifestFields.zip [.str manifest.id, .str manifest.version, .str manifest.kind.toText,
      textsValue manifest.requires, textsValue manifest.provides, textsValue manifest.conflicts] ++
      manifest.details.members), by
    simp [manifestFields, isFinite, isFiniteMembers, isFinite_textsValue, manifest.details.finite]⟩

structure ManifestEntry where
  registryResolution : Option RegistrySourceResolution
  manifest : BlockManifest
  manifestPath : Text
  manifestRoot : Text
  resourceRoots : List Text
  registryRoot : Text
  registrySourceId : Text
  registryKind : RegistryKind
  registryLocation : RegistryLocation
  registryPath : Text

def identityFields : List Text :=
  ["manifest", "manifestPath", "manifestRoot", "resourceRoots", "registryRoot", "registrySourceId",
    "registryKind", "registryLocation", "registryPath"].map Text.ofString

/-- The entry without its diagnostics. -/
def selectedManifestIdentity (entry : ManifestEntry) : FiniteValue :=
  ⟨.obj (identityFields.zip [entry.manifest.toValue.val, .str entry.manifestPath, .str entry.manifestRoot,
      textsValue entry.resourceRoots, .str entry.registryRoot, .str entry.registrySourceId,
      .str entry.registryKind.toText, .str entry.registryLocation.toText, .str entry.registryPath]), by
    have hmanifest := entry.manifest.toValue.property
    simp [identityFields, isFinite, isFiniteMembers, isFinite_textsValue, hmanifest]⟩

/-! ## Failures -/

inductive ResolveFailure where
  | conflictingDefinitions (previous entry : ManifestEntry)
  | conflictingSelections (selected entry : ManifestEntry)
  | missingProvider (capability : Text)
  | ambiguousProviders (capability : Text) (candidates : List ManifestEntry)
  | unsatisfiedSelection (requiredBy : ManifestEntry) (requirement : Text) (alreadySelected provider : ManifestEntry)
  | unauthorized (requiredBy : ManifestEntry) (capability : Text) (provider : ManifestEntry)
  | conflictsWithBlock (entry : ManifestEntry) (conflict : Text)
  | conflictsWithCapability (entry : ManifestEntry) (conflict : Text)
  | missingAdjacency (id : Text)
  | cycle (blockedBlockIds : List Text)

namespace ResolveFailure

def code : ResolveFailure → Text
  | .conflictingDefinitions .. | .conflictingSelections .. | .ambiguousProviders .. | .unsatisfiedSelection .. =>
      Text.ofString "RESOLVE-CONFLICT-004"
  | .missingProvider .. => Text.ofString "RESOLVE-MISSING-001"
  | .unauthorized .. => Text.ofString "RESOLVE-AUTHORITY-007"
  | .conflictsWithBlock .. => Text.ofString "RESOLVE-CONFLICT-002"
  | .conflictsWithCapability .. => Text.ofString "RESOLVE-CONFLICT-003"
  | .missingAdjacency .. => Text.ofString "RESOLVE-INTERNAL-001"
  | .cycle .. => Text.ofString "RESOLVE-CYCLE-003"

def message : ResolveFailure → Text
  | .conflictingDefinitions _ entry =>
      Text.cat [Text.ofString "Conflicting manifest definitions for \"", entry.manifest.id,
        Text.ofString "\" version \"", entry.manifest.version, Text.ofString "\""]
  | .conflictingSelections _ entry =>
      Text.cat [Text.ofString "Conflicting explicit selections for block \"", entry.manifest.id, Text.ofString "\""]
  | .missingProvider capability =>
      Text.cat [Text.ofString "Missing provider for capability \"", capability, Text.ofString "\""]
  | .ambiguousProviders capability candidates =>
      Text.cat [Text.ofString "Ambiguous providers for capability \"", capability, Text.ofString "\": ",
        Text.joinWith (Text.ofString ", ") (candidates.map fun provider => provider.manifest.id)]
  | .unsatisfiedSelection _ requirement _ provider =>
      Text.cat [Text.ofString "Selected block \"", provider.manifest.id,
        Text.ofString "\" does not provide required capability \"", requirement, Text.ofString "\""]
  | .unauthorized _ capability provider =>
      Text.cat [Text.ofString "Provider \"", provider.manifest.id, Text.ofString "\" for capability \"", capability,
        Text.ofString "\" requires an explicit Plan.blocks selection"]
  | .conflictsWithBlock entry conflict =>
      Text.cat [Text.ofString "Block \"", entry.manifest.id, Text.ofString "\" conflicts with \"", conflict,
        Text.ofString "\""]
  | .conflictsWithCapability entry conflict =>
      Text.cat [Text.ofString "Block \"", entry.manifest.id, Text.ofString "\" conflicts with provided capability \"",
        conflict, Text.ofString "\""]
  | .missingAdjacency id => Text.cat [Text.ofString "Missing adjacency for \"", id, Text.ofString "\""]
  | .cycle _ => Text.ofString "Dependency cycle detected"

/-- The details of the failure, when it has any. -/
def details : ResolveFailure → List (Text × Value)
  | .conflictingDefinitions previous entry =>
      [("selectedSource", .str previous.registrySourceId), ("requestedSource", .str entry.registrySourceId),
        ("selectedManifestPath", .str previous.manifestPath), ("requestedManifestPath", .str entry.manifestPath)]
  | .conflictingSelections selected entry =>
      [("selectedVersion", .str selected.manifest.version), ("requestedVersion", .str entry.manifest.version),
        ("selectedSource", .str selected.registrySourceId), ("requestedSource", .str entry.registrySourceId)]
  | .unsatisfiedSelection requiredBy requirement alreadySelected provider =>
      [("requiredBy", .str requiredBy.manifest.id), ("requirement", .str requirement),
        ("selectedVersion", .str alreadySelected.manifest.version),
        ("candidateVersion", .str provider.manifest.version)]
  | .unauthorized requiredBy capability provider =>
      [("requiredBy", .str requiredBy.manifest.id), ("capability", .str capability),
        ("providerBlockId", .str provider.manifest.id), ("registrySourceId", .str provider.registrySourceId)]
  | .cycle blockedBlockIds => [("blockedBlockIds", textsValue blockedBlockIds)]
  | _ => []

end ResolveFailure

abbrev Resolving := Except ResolveFailure

/-! ## Definitions -/

/-- The key of a definition: `JSON.stringify([id, version])`. -/
def definitionKey (manifest : BlockManifest) : Text :=
  (Json.arr [.str manifest.id, .str manifest.version] : Value).render

def assertConsistentDefinition (definitions : OrderedMap Text ManifestEntry) (entry : ManifestEntry) :
    Resolving (OrderedMap Text ManifestEntry) :=
  match definitions.get? (definitionKey entry.manifest) with
  | none => .ok (definitions.set (definitionKey entry.manifest) entry)
  | some previous =>
      if canonicalEquals previous.manifest.toValue entry.manifest.toValue then .ok definitions
      else .error (.conflictingDefinitions previous entry)

def assertManifestDefinitionConsistency (entries : List ManifestEntry) : Resolving Unit := do
  let _ ← entries.foldlM assertConsistentDefinition .empty
  return ()

/-! ## Providers -/

abbrev Providers := OrderedMap Text (List ManifestEntry)

def addCapability (entry : ManifestEntry) (index : Providers) (capability : Text) : Providers :=
  match index.get? capability with
  | none => index.set capability [entry]
  | some providers => index.set capability (providers ++ [entry])

/-- Repeating a capability in one manifest is not a second implementation. -/
def addProvider (index : Providers) (entry : ManifestEntry) : Providers :=
  entry.manifest.provides.eraseDups.foldl (addCapability entry) index

/-! ## The ready set -/

/-- A binary heap of ranks. -/
structure ReadyRanks where
  ranks : List Nat

namespace ReadyRanks

/-- The rank moves up from a free place. -/
def siftUp (rank : Nat) (index : Nat) (ranks : List Nat) : List Nat :=
  if index = 0 then ranks.set index rank
  else
    let parent := (index - 1) / 2
    let value := ranks.getD parent 0
    if value ≤ rank then ranks.set index rank else siftUp rank parent (ranks.set index value)
  termination_by index
  decreasing_by omega

def add (ready : ReadyRanks) (rank : Nat) : ReadyRanks :=
  ⟨siftUp rank ready.ranks.length (ready.ranks ++ [rank])⟩

/-- The smaller child of a place. -/
def smallerChild (ranks : List Nat) (index : Nat) : Nat :=
  let child := index * 2 + 1
  if child + 1 < ranks.length ∧ ranks.getD (child + 1) 0 < ranks.getD child 0 then child + 1 else child

/-- The last rank moves down from a free place. -/
def siftDown (last : Nat) (index : Nat) (ranks : List Nat) : List Nat :=
  if index * 2 + 1 < ranks.length then
    let child := smallerChild ranks index
    if last ≤ ranks.getD child 0 then ranks.set index last
    else siftDown last child (ranks.set index (ranks.getD child 0))
  else ranks.set index last
  termination_by ranks.length - index
  decreasing_by
    simp only [smallerChild, List.length_set]
    split <;> omega

def take (ready : ReadyRanks) : Option (Nat × ReadyRanks) :=
  match ready.ranks with
  | [] => none
  | first :: rest =>
      let last := (first :: rest).getLast (by simp)
      let ranks := (first :: rest).dropLast
      some (first, ⟨if ranks = [] then [] else siftDown last 0 ranks⟩)

end ReadyRanks

/-! ## Ordering -/

/-- The kind of a manifest first, then the code units of its id. -/
def rankKey (entry : ManifestEntry) : Nat ×ₗ Text := toLex (entry.manifest.kind.priority, entry.manifest.id)

/-- The dependents of each rank and how many of its predecessors are not yet ordered. -/
structure DependencyGraph where
  adjacency : List (List Nat)
  indegree : List Nat

def DependencyGraph.addEdge (graph : DependencyGraph) (predecessor rank : Nat) : DependencyGraph :=
  if predecessor = rank ∨ rank ∈ graph.adjacency.getD predecessor [] then graph
  else
    { adjacency := graph.adjacency.modify predecessor (· ++ [rank])
      indegree := graph.indegree.modify rank (· + 1) }

def addPredecessor (rankById : OrderedMap Text Nat) (rank : Nat) (graph : DependencyGraph) (provider : ManifestEntry) :
    Resolving DependencyGraph :=
  match rankById.get? provider.manifest.id with
  | none => .error (.missingAdjacency provider.manifest.id)
  | some predecessor => .ok (graph.addEdge predecessor rank)

def addRequirement (rankById : OrderedMap Text Nat) (providers : Providers) (rank : Nat) (graph : DependencyGraph)
    (requirement : Text) : Resolving DependencyGraph :=
  match (providers.get? requirement).getD [] with
  | [] => .error (.missingProvider requirement)
  | candidates => candidates.foldlM (addPredecessor rankById rank) graph

def addDependencies (rankById : OrderedMap Text Nat) (providers : Providers) (graph : DependencyGraph)
    (ranked : ManifestEntry × Nat) : Resolving DependencyGraph :=
  ranked.1.manifest.requires.eraseDups.foldlM (addRequirement rankById providers ranked.2) graph

def dependencyGraph (ranked : List ManifestEntry) (providers : Providers) : Resolving DependencyGraph :=
  let rankById := OrderedMap.ofList (ranked.zipIdx.map fun e => (e.1.manifest.id, e.2))
  ranked.zipIdx.foldlM (addDependencies rankById providers)
    { adjacency := ranked.map fun _ => [], indegree := ranked.map fun _ => 0 }

/-- The loop that takes the least ready rank. -/
structure Schedule where
  indegree : List Nat
  ready : ReadyRanks
  ordered : List Nat

/-- A dependent loses a predecessor and becomes ready after the last one. -/
def Schedule.release (s : Schedule) (dependent : Nat) : Schedule :=
  let indegree := s.indegree.modify dependent (· - 1)
  { s with indegree, ready := if indegree.getD dependent 0 = 0 then s.ready.add dependent else s.ready }

def Schedule.run (adjacency : List (List Nat)) : Nat → Schedule → Schedule
  | 0, s => s
  | fuel + 1, s =>
      match s.ready.take with
      | none => s
      | some (rank, ready) =>
          run adjacency fuel
            ((adjacency.getD rank []).foldl release { s with ready, ordered := s.ordered ++ [rank] })

def Schedule.start (indegree : List Nat) : Schedule where
  indegree := indegree
  ready := ((List.range indegree.length).filter fun rank => indegree.getD rank 0 = 0).foldl ReadyRanks.add ⟨[]⟩
  ordered := []

def orderManifests (entries : List ManifestEntry) (providers : Providers) : Resolving (List ManifestEntry) := do
  let ranked := sortBy rankKey entries
  let graph ← dependencyGraph ranked providers
  let final := (Schedule.start graph.indegree).run graph.adjacency ranked.length
  if final.ordered.length ≠ ranked.length then
    .error (.cycle ((ranked.zipIdx.filter fun e => 0 < final.indegree.getD e.2 0).map fun e => e.1.manifest.id))
  else return final.ordered.filterMap (ranked[·]?)

/-! ## Selection -/

structure Selection where
  byId : OrderedMap Text ManifestEntry
  selectedProviders : Providers
  queue : List ManifestEntry

namespace Selection

def empty : Selection := ⟨.empty, .empty, []⟩

def select (s : Selection) (entry : ManifestEntry) : Selection where
  byId := s.byId.set entry.manifest.id entry
  selectedProviders := addProvider s.selectedProviders entry
  queue := s.queue ++ [entry]

def selectExplicit (s : Selection) (entry : ManifestEntry) : Resolving Selection :=
  match s.byId.get? entry.manifest.id with
  | none => .ok (s.select entry)
  | some selected =>
      if canonicalEquals (selectedManifestIdentity selected) (selectedManifestIdentity entry) then .ok s
      else .error (.conflictingSelections selected entry)

/-- The source that may add a provider on its own. -/
def isPackaged (provider : ManifestEntry) : Bool :=
  provider.registryKind = .official && provider.registryLocation = .compiler &&
    provider.registryPath = BUILTIN_OFFICIAL_REGISTRY_RELATIVE_PATH

def require (catalogProviders : Providers) (entry : ManifestEntry) (s : Selection) (requirement : Text) :
    Resolving Selection :=
  if s.selectedProviders.has requirement then .ok s
  else
    match (catalogProviders.get? requirement).getD [] with
    | [] => .error (.missingProvider requirement)
    | [provider] =>
        match s.byId.get? provider.manifest.id with
        | some alreadySelected => .error (.unsatisfiedSelection entry requirement alreadySelected provider)
        | none =>
            if isPackaged provider then .ok (s.select provider) else .error (.unauthorized entry requirement provider)
    | candidates => .error (.ambiguousProviders requirement candidates)

/-- The entries of the queue from an index on, as far as the fuel goes; the queue grows meanwhile. -/
def close (catalogProviders : Providers) : Nat → Nat → Selection → Resolving Selection
  | 0, _, s => .ok s
  | fuel + 1, index, s =>
      match s.queue[index]? with
      | none => .ok s
      | some entry => do
          let s ← entry.manifest.requires.foldlM (require catalogProviders entry) s
          close catalogProviders fuel (index + 1) s

def assertNoConflict (s : Selection) (entry : ManifestEntry) (conflict : Text) : Resolving Unit :=
  if s.byId.has conflict then .error (.conflictsWithBlock entry conflict)
  else if s.selectedProviders.has conflict then .error (.conflictsWithCapability entry conflict)
  else .ok ()

end Selection

structure ResolvedGraph where
  entries : List ManifestEntry
  capabilities : List Text

def resolveManifestGraph (explicitEntries catalog : List ManifestEntry) : Resolving ResolvedGraph := do
  assertManifestDefinitionConsistency (explicitEntries ++ catalog)
  let s ← explicitEntries.foldlM Selection.selectExplicit .empty
  let s ← s.close (catalog.foldl addProvider .empty) (explicitEntries.length + catalog.length) 0
  s.queue.forM fun entry => entry.manifest.conflicts.forM (s.assertNoConflict entry)
  let entries ← orderManifests s.queue s.selectedProviders
  return ⟨entries, sortBy id s.selectedProviders.keys⟩

end SecPlatform.Compiler
