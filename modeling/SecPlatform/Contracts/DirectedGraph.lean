import SecPlatform.Library.Json
import SecPlatform.Library.OrderedMap
import SecPlatform.Library.Sorting

/-!
# Strong components of a closed directed graph

An iterative depth-first search. Nodes get indices in the order they are entered; a node whose low link is its own
index when its frame is left closes a component: the nodes above it on the stack.
-/

namespace SecPlatform.Contracts

structure DirectedGraphEdge where
  «from» : Text
  «to» : Text
  deriving DecidableEq

/-! ## Targets -/

abbrev TargetsByNodeId := OrderedMap Text (List Text)

/-- `Set.add`. -/
def addTarget (targets : List Text) (target : Text) : List Text :=
  if target ∈ targets then targets else targets ++ [target]

def unknownEndpoint (edge : DirectedGraphEdge) : Text :=
  Text.ofString "[directed-graph-unknown-endpoint] " ++ Json.quoted edge.from ++ Text.ofString " -> " ++
    Json.quoted edge.«to»

def addEdge (targetsByNodeId : TargetsByNodeId) (edge : DirectedGraphEdge) : Except Text TargetsByNodeId :=
  match targetsByNodeId.get? edge.from, targetsByNodeId.get? edge.«to» with
  | some targets, some _ => .ok (targetsByNodeId.set edge.from (addTarget targets edge.«to»))
  | _, _ => .error (unknownEndpoint edge)

def compileTargets (orderedNodeIds : List Text) (edges : List DirectedGraphEdge) : Except Text TargetsByNodeId :=
  edges.foldlM addEdge (OrderedMap.ofList (orderedNodeIds.map fun nodeId => (nodeId, [])))

/-! ## The search -/

/-- A node being visited with the targets its iterator has not given yet. -/
structure VisitFrame where
  nodeId : Text
  targets : List Text

/-- The variables of the search; stacks have their top first. -/
structure ComponentSearch where
  indexByNodeId : Text → Option Nat
  lowLinkByNodeId : Text → Option Nat
  stack : List Text
  onStack : Text → Bool
  components : List (List Text)
  nextIndex : Nat
  frames : List VisitFrame

namespace ComponentSearch

def initial : ComponentSearch := ⟨fun _ => none, fun _ => none, [], fun _ => false, [], 0, []⟩

def index (s : ComponentSearch) (nodeId : Text) : Nat := (s.indexByNodeId nodeId).getD 0

def lowLink (s : ComponentSearch) (nodeId : Text) : Nat := (s.lowLinkByNodeId nodeId).getD 0

def enter (targetsOf : Text → List Text) (nodeId : Text) (s : ComponentSearch) : ComponentSearch :=
  { s with
    indexByNodeId := Function.update s.indexByNodeId nodeId (some s.nextIndex)
    lowLinkByNodeId := Function.update s.lowLinkByNodeId nodeId (some s.nextIndex)
    nextIndex := s.nextIndex + 1
    stack := nodeId :: s.stack
    onStack := Function.update s.onStack nodeId true
    frames := ⟨nodeId, targetsOf nodeId⟩ :: s.frames }

/-- `lowLinkByNodeId.set(nodeId, Math.min(…))`. -/
def lower (nodeId : Text) (link : Nat) (s : ComponentSearch) : ComponentSearch :=
  { s with lowLinkByNodeId := Function.update s.lowLinkByNodeId nodeId (some (min (s.lowLink nodeId) link)) }

/-- The members popped from a stack, to the node itself, and the stack below. -/
def popMembers (nodeId : Text) : List Text → List Text × List Text
  | [] => ([], [])
  | member :: stack =>
      if member = nodeId then ([member], stack)
      else (member :: (popMembers nodeId stack).1, (popMembers nodeId stack).2)

def closeComponent (nodeId : Text) (s : ComponentSearch) : ComponentSearch :=
  let popped := popMembers nodeId s.stack
  { s with
    stack := popped.2
    onStack := fun member => s.onStack member && !popped.1.contains member
    components := s.components ++ [sortBy id popped.1] }

/-- A frame gives its next target. -/
def advance (targetsOf : Text → List Text) (nodeId target : Text) (s : ComponentSearch) : ComponentSearch :=
  if s.indexByNodeId target = none then s.enter targetsOf target
  else if s.onStack target then s.lower nodeId (s.index target)
  else s

/-- A frame whose targets are exhausted is left. -/
def leave (nodeId : Text) (s : ComponentSearch) : ComponentSearch :=
  let s := if s.lowLink nodeId = s.index nodeId then s.closeComponent nodeId else s
  match s.frames with
  | [] => s
  | parent :: _ => s.lower parent.nodeId (s.lowLink nodeId)

/-- One turn of the inner loop; none when no frame is left. -/
def step (targetsOf : Text → List Text) (s : ComponentSearch) : Option ComponentSearch :=
  match s.frames with
  | [] => none
  | ⟨nodeId, target :: targets⟩ :: frames =>
      some (advance targetsOf nodeId target { s with frames := ⟨nodeId, targets⟩ :: frames })
  | ⟨nodeId, []⟩ :: frames => some (leave nodeId { s with frames := frames })

/-- The inner loop, with a bound on its turns. -/
def drain (targetsOf : Text → List Text) : Nat → ComponentSearch → Option ComponentSearch
  | 0, s => if s.frames.isEmpty then some s else none
  | fuel + 1, s =>
      match s.step targetsOf with
      | none => some s
      | some s' => drain targetsOf fuel s'

/-- The outer loop. -/
def visitRoots (targetsOf : Text → List Text) (fuel : Nat) : List Text → ComponentSearch → Option ComponentSearch
  | [], s => some s
  | root :: roots, s =>
      if (s.indexByNodeId root).isSome then visitRoots targetsOf fuel roots s
      else (drain targetsOf fuel (s.enter targetsOf root)).bind (visitRoots targetsOf fuel roots)

end ComponentSearch

/-- One turn for each node and each of its targets. -/
def searchFuel (targetsOf : Text → List Text) (nodeIds : List Text) : Nat :=
  (nodeIds.map fun nodeId => (targetsOf nodeId).length + 1).sum

/-- The components in the order of their first nodes; none would be a search that does not end. -/
def searchComponents (targetsOf : Text → List Text) (orderedNodeIds : List Text) : Option (List (List Text)) :=
  (ComponentSearch.visitRoots targetsOf (searchFuel targetsOf orderedNodeIds) orderedNodeIds .initial).map fun s =>
    sortBy (fun component => component.headD []) s.components

def compileClosedDirectedGraphStrongComponents (nodeIds : List Text) (edges : List DirectedGraphEdge) :
    Except Text (Option (List (List Text))) := do
  let orderedNodeIds := uniqueSorted nodeIds
  let targetsByNodeId ← compileTargets orderedNodeIds edges
  return searchComponents (fun nodeId => (targetsByNodeId.get? nodeId).getD []) orderedNodeIds

end SecPlatform.Contracts
