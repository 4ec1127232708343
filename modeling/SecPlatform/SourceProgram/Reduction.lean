import SecPlatform.Contracts.Canonical
import SecPlatform.Library.Except
import SecPlatform.Library.Sorting
import SecPlatform.Library.Spans
import Mathlib.Data.Prod.Lex

/-!
# Graph-cut reductions

Declarations without a consumer are cut out of their files. The plan blocks every cut that overlaps another one, lets
the files without the declarations be verified, and is rendered as a patch later on. A removal span has the fields
`start` and `end` of the source, the latter as `stop`. The TypeScript compiler, the owner intents, the verification of
the virtual files and the text of a two-file patch are parameters.
-/

namespace SecPlatform.SourceProgram

open Contracts

variable [Sha256]

/-! ## Models and files -/

structure SourceProgramFileInput where
  path : Text
  source : Text
  contentDigest : Text
  deriving DecidableEq

structure SourceProgramFile where
  path : Text
  contentDigest : Text
  deriving DecidableEq

structure SourceProgramDeclaration where
  observationId : Text
  path : Text
  name : Text
  span : Span
  deriving DecidableEq

/-- `targetObservationId` of a reference. -/
structure SourceProgramReference where
  targetObservationId : Option Text
  deriving DecidableEq

structure SourceProgramEntrypoint where
  kind : Text
  targetPaths : List Text
  deriving DecidableEq

structure SourceProgramCandidate where
  code : Text
  observationClass : Text
  paths : List Text
  subject : Text
  deriving DecidableEq

structure SourceProgramUnknown where
  code : Text
  path : Text
  deriving DecidableEq

/-- The members of a model that a reduction reads; `compiled` says whether the model was compiled from a repository,
and `candidates` is `none` where no candidate analysis was requested. -/
structure SourceProgramModel where
  sourceRevision : Text
  files : List SourceProgramFile
  declarations : List SourceProgramDeclaration
  references : List SourceProgramReference
  entrypoints : List SourceProgramEntrypoint
  candidates : Option (List SourceProgramCandidate)
  unknowns : List SourceProgramUnknown
  modelDigest : Text
  compiled : Bool
  deriving DecidableEq

inductive SourceProgramReductionAdmissionFailureCode where
  | compilerIssuedPlanRequired
  | sourceSnapshotDrift
  deriving DecidableEq

/-- An admission error has a code, any other error has none. -/
structure ReductionFailure where
  code : Option SourceProgramReductionAdmissionFailureCode
  message : Text
  deriving DecidableEq

/-! ## Source snapshots -/

/-- `{ path, contentDigest: rawSha256(source) }`, the members in canonical order. -/
def snapshotEntry (file : SourceProgramFile) : Value :=
  .obj [("contentDigest", .str file.contentDigest), ("path", .str file.path)]

/-- `sha256` of the files in the order of their paths. -/
def filesDigest (files : List SourceProgramFile) : Digest :=
  Sha256.rawSha256 (canonicalEncoding (.arr ((sortBy SourceProgramFile.path files).map snapshotEntry)))

def observedFile (file : SourceProgramFileInput) : SourceProgramFile := ⟨file.path, (Sha256.rawSha256 file.source).val⟩

def sourceFileSnapshotDigest (files : List SourceProgramFileInput) : Digest := filesDigest (files.map observedFile)

def sourceFilesBindModel (model : SourceProgramModel) (files : List SourceProgramFileInput) : Bool :=
  (files.map SourceProgramFileInput.path).Nodup && filesDigest model.files = sourceFileSnapshotDigest files

def assertReductionSourceSnapshot (expectedDigest : Digest) (files : List SourceProgramFileInput) :
    Except ReductionFailure Unit :=
  require (sourceFileSnapshotDigest files = expectedDigest) ⟨some .sourceSnapshotDrift,
    "Reduction patch source bytes do not match the compiler-sealed Source Program snapshot"⟩

/-! ## The receipt of the provider of unused symbols -/

structure SourceProgramUnusedSymbolEvidence where
  path : Text
  name : Text
  deriving DecidableEq

namespace SourceProgramUnusedSymbolEvidence

/-- By path, then by name. -/
def order (item : SourceProgramUnusedSymbolEvidence) : Text ×ₗ Text := toLex (item.path, item.name)

def key (item : SourceProgramUnusedSymbolEvidence) : Text := item.path ++ 0 :: item.name

def toValue (item : SourceProgramUnusedSymbolEvidence) : Value :=
  .obj [("name", .str item.name), ("path", .str item.path)]

end SourceProgramUnusedSymbolEvidence

structure SourceProgramUnusedSymbolProviderReceipt where
  providerRevision : Text
  sourceRevision : Text
  sourceSnapshotDigest : Digest
  candidateDigest : Digest
  candidates : List SourceProgramUnusedSymbolEvidence
  receiptDigest : Digest
  deriving DecidableEq

structure CompileSourceProgramUnusedSymbolProviderReceiptInput where
  model : SourceProgramModel
  files : List SourceProgramFileInput
  providerRevision : Text
  candidates : List SourceProgramUnusedSymbolEvidence

def candidatesDigest (candidates : List SourceProgramUnusedSymbolEvidence) : Digest :=
  Sha256.rawSha256 (canonicalEncoding (.arr (candidates.map SourceProgramUnusedSymbolEvidence.toValue)))

def sourceProgramModelEvidenceIsExact (model : SourceProgramModel) : Bool :=
  isDigest model.modelDigest && isDigest model.sourceRevision && model.compiled

def isCanonicalSymbol (item : SourceProgramUnusedSymbolEvidence) : Bool :=
  item.path ≠ [] && item.path.head? ≠ some (unit '/') && unit '\\' ∉ item.path
    && (Text.splitAt (unit '/') item.path).all (fun segment =>
      segment ≠ [] && segment ≠ Text.ofString "." && segment ≠ Text.ofString "..")
    && item.name.trim ≠ []

/-- The schema, the provider and the settlement are constants of the receipt; its own digest is a parameter. -/
def compileSourceProgramUnusedSymbolProviderReceipt (receiptDigest : Digest)
    (input : CompileSourceProgramUnusedSymbolProviderReceiptInput) :
    Except ReductionFailure SourceProgramUnusedSymbolProviderReceipt := do
  require (sourceProgramModelEvidenceIsExact input.model ∧ sourceFilesBindModel input.model input.files
      ∧ isDigest input.providerRevision) ⟨some .compilerIssuedPlanRequired,
    "Unused-symbol provider evidence requires one completed exact-snapshot provider observation"⟩
  let candidates := sortBy SourceProgramUnusedSymbolEvidence.order input.candidates
  require (candidates.all isCanonicalSymbol ∧ (candidates.map SourceProgramUnusedSymbolEvidence.key).Nodup)
    ⟨some .compilerIssuedPlanRequired, "Unused-symbol provider candidates are not canonical repository symbols"⟩
  return { providerRevision := input.providerRevision
           sourceRevision := input.model.sourceRevision
           sourceSnapshotDigest := sourceFileSnapshotDigest input.files
           candidateDigest := candidatesDigest candidates
           candidates
           receiptDigest }

/-- A member of `compiledUnusedSymbolProviderReceipts`. -/
structure CompiledReceipt where
  receipt : SourceProgramUnusedSymbolProviderReceipt
  input : CompileSourceProgramUnusedSymbolProviderReceiptInput
  compiled : compileSourceProgramUnusedSymbolProviderReceipt receipt.receiptDigest input = .ok receipt

/-! ## Cuts -/

inductive ReductionStatus where
  | ready
  | blocked
  deriving DecidableEq

inductive ReductionDisposition where
  | delete
  | requiredUnmaterialized
  | blocked
  deriving DecidableEq

structure SourceProgramGraphCutReduction (Obligation : Type) where
  status : ReductionStatus
  disposition : ReductionDisposition
  path : Text
  name : Text
  removalSpan : Option Span
  requiredUnmaterializedObligations : List Obligation
  reason : Option Text
  deriving DecidableEq

/-- A statement of a source file; the name that it declares is not empty. -/
structure DeclarationNode where
  tokenStart : Nat
  nodeEnd : Nat
  start_lt_end : tokenStart < nodeEnd

/-- `lastIndexOf('\n', Math.max(0, tokenStart - 1)) + 1`. -/
def lineStart (text : Text) (tokenStart : Nat) : Nat :=
  ((text.take (tokenStart - 1 + 1)).reverse.dropWhile (· ≠ unit '\n')).length

/-- `/^\s*$/u.test(text.slice(lineStart, tokenStart))`. -/
def startsLine (text : Text) (tokenStart : Nat) : Bool :=
  ((text.take tokenStart).drop (lineStart text tokenStart)).all Text.isTrimSpace

def removalStart (text : Text) (tokenStart : Nat) : Nat :=
  if startsLine text tokenStart then lineStart text tokenStart else tokenStart

/-- A line break right behind the node goes with it. -/
def removalStop (text : Text) (nodeEnd : Nat) : Nat :=
  if [unit '\r', unit '\n'] <+: text.drop nodeEnd then nodeEnd + 2
  else if text[nodeEnd]? = some (unit '\n') ∨ text[nodeEnd]? = some (unit '\r') then nodeEnd + 1
  else nodeEnd

omit [Sha256] in
theorem lineStart_le (text : Text) (tokenStart : Nat) : lineStart text tokenStart ≤ tokenStart - 1 + 1 := by
  have hdrop := (List.dropWhile_sublist (fun c => decide (c ≠ unit '\n'))
    (l := (text.take (tokenStart - 1 + 1)).reverse)).length_le
  have htake := List.length_take_le (tokenStart - 1 + 1) text
  rw [List.length_reverse] at hdrop
  exact hdrop.trans htake

omit [Sha256] in
theorem removalStart_le_removalStop (text : Text) (node : DeclarationNode) :
    removalStart text node.tokenStart ≤ removalStop text node.nodeEnd := by
  have hline := lineStart_le text node.tokenStart
  have hnode := node.start_lt_end
  have hstart : removalStart text node.tokenStart ≤ node.nodeEnd := by
    unfold removalStart
    split <;> omega
  have hstop : node.nodeEnd ≤ removalStop text node.nodeEnd := by
    unfold removalStop
    split_ifs <;> omega
  exact hstart.trans hstop

def graphCutRemovalSpan (text : Text) (node : DeclarationNode) : Span where
  start := removalStart text node.tokenStart
  stop := removalStop text node.nodeEnd
  start_le_stop := removalStart_le_removalStop text node

/-! ## Candidates -/

structure TypeScriptModel where
  sourceRevision : Text
  files : List SourceProgramFile
  exact : Bool

/-- The TypeScript model of a compilation and what the compilers answer: the text of a source file, the top-level
node of a declaration that can be removed (`graphCutRemovalNode(graphCutNode(..))`), the obligations of a declaration
with or without consumers, and whether the virtual files mean the same without the excluded declarations, with a digest
of the verification. -/
structure SourceProgramReductionCompilerContext (Obligation : Type) where
  typeScriptModel : TypeScriptModel
  sourceFile : Text → Option Text
  removalNode : Text → Text → Span → Option DeclarationNode
  obligations : SourceProgramDeclaration → Bool → List Obligation
  verify : List SourceProgramFileInput → List SourceProgramFileInput → List Text →
    Except ReductionFailure (Option Text × Digest)

variable {Obligation : Type}

/-- The digest that the repository has for a path; of two entries the later one counts. -/
def repositoryDigest (model : SourceProgramModel) (path : Text) : Option Text :=
  (model.files.reverse.find? (·.path = path)).map SourceProgramFile.contentDigest

def exactReductionTypeScriptModel (model : SourceProgramModel) (typeScriptModel : TypeScriptModel) :
    Except ReductionFailure Unit :=
  require (typeScriptModel.sourceRevision = model.sourceRevision ∧ typeScriptModel.exact
      ∧ typeScriptModel.files.all fun file => repositoryDigest model file.path = some file.contentDigest)
    ⟨some .compilerIssuedPlanRequired,
      "Reduction requires the exact TypeScript generation bound to the repository projection"⟩

def isConsumerZero (candidate : SourceProgramCandidate) : Bool :=
  candidate.code = Text.ofString "production-declaration-without-consumer"
    || candidate.code = Text.ofString "identity-token-without-consumer"

def candidateKeys (candidates : List SourceProgramCandidate) : List Text :=
  (candidates.filter isConsumerZero).flatMap fun candidate => candidate.paths.map (· ++ 0 :: candidate.subject)

def unknownCandidateKeys (candidates : List SourceProgramCandidate) : List Text :=
  (candidates.filter fun candidate =>
      isConsumerZero candidate && candidate.observationClass = Text.ofString "unknown").flatMap
    fun candidate => candidate.paths.map (· ++ 0 :: candidate.subject)

def moduleEntrypointPaths (model : SourceProgramModel) : List Text :=
  (model.entrypoints.filter (·.kind = Text.ofString "module-entrypoint")).flatMap SourceProgramEntrypoint.targetPaths

def dynamicFrontierPaths (model : SourceProgramModel) : List Text :=
  (model.unknowns.filter fun u => u.code = Text.ofString "dynamic-module-unresolved"
    || u.code = Text.ofString "dynamic-runtime-opaque"
    || u.code = Text.ofString "computed-property-unresolved").map SourceProgramUnknown.path

/-- The declaration of a symbol where it is the only one. -/
def onlyDeclaration (model : SourceProgramModel) (item : SourceProgramUnusedSymbolEvidence) :
    Option SourceProgramDeclaration :=
  match model.declarations.filter fun d => d.path = item.path && d.name = item.name with
  | [declaration] => some declaration
  | _ => none

def hasConsumers (model : SourceProgramModel) (declaration : SourceProgramDeclaration) : Bool :=
  model.references.any (·.targetObservationId = some declaration.observationId)

section Candidate

variable (context : SourceProgramReductionCompilerContext Obligation) (model : SourceProgramModel)
  (candidates : List SourceProgramCandidate) (item : SourceProgramUnusedSymbolEvidence)

/-- The node to remove, with the text of its file. -/
def itemRemovalNode : Option (Text × DeclarationNode) := do
  let declaration ← onlyDeclaration model item
  let text ← context.sourceFile item.path
  let node ← context.removalNode item.path item.name declaration.span
  return (text, node)

def itemObligations : List Obligation :=
  match onlyDeclaration model item with
  | none => []
  | some declaration => context.obligations declaration (hasConsumers model declaration)

/-- Why a symbol is not cut. -/
def blockingReason : Option Text :=
  if item.path ∈ moduleEntrypointPaths model then
    some "module entrypoint exports require an explicit external-consumer retirement"
  else if Text.ofString "." ∈ dynamicFrontierPaths model ∨ item.path ∈ dynamicFrontierPaths model then
    some "source file has an unresolved dynamic consumer frontier"
  else if 1 < (model.declarations.filter fun d => d.path = item.path && d.name = item.name).length then
    some "unused symbol resolves to multiple declarations"
  else if onlyDeclaration model item = none ∨ context.sourceFile item.path = none then
    some "declaration source snapshot is unresolved"
  else if (onlyDeclaration model item).any (hasConsumers model) then
    some "TypeScript Program resolved one or more value, type, alias, or re-export consumers"
  else if ¬(itemObligations context model item).isEmpty then
    some ("owner-issued operation obligation is required-unmaterialized; " ++
      "target acceptance must precede source retirement" : String)
  else if item.key ∈ unknownCandidateKeys candidates then
    some ("canonical Source Program consumer frontier is unknown; " ++
      "unused provider evidence cannot authorize deletion" : String)
  else if item.key ∉ candidateKeys candidates then
    some "canonical Source Program did not admit consumer-zero evidence"
  else if itemRemovalNode context model item = none then
    some "declaration is not an independently removable top-level node"
  else none

def graphCutReduction : SourceProgramGraphCutReduction Obligation :=
  let reason := blockingReason context model candidates item
  { status := if reason = none then .ready else .blocked
    disposition :=
      if reason = none then .delete
      else if (itemObligations context model item).isEmpty then .blocked else .requiredUnmaterialized
    path := item.path
    name := item.name
    removalSpan :=
      if reason = none then
        (itemRemovalNode context model item).map fun (text, node) => graphCutRemovalSpan text node
      else none
    requiredUnmaterializedObligations := itemObligations context model item
    reason }

end Candidate

/-- The first item of each key. -/
def unseenItems (seen : List Text) : List SourceProgramUnusedSymbolEvidence → List SourceProgramUnusedSymbolEvidence
  | [] => []
  | item :: items =>
      if item.key ∈ seen then unseenItems seen items else item :: unseenItems (item.key :: seen) items

/-! ## Overlapping cuts -/

namespace SourceProgramGraphCutReduction

def key (reduction : SourceProgramGraphCutReduction Obligation) : Text := reduction.path ++ 0 :: reduction.name

/-- By path, then by name. -/
def order (reduction : SourceProgramGraphCutReduction Obligation) : Text ×ₗ Text :=
  toLex (reduction.path, reduction.name)

def block (reason : Text) (reduction : SourceProgramGraphCutReduction Obligation) :
    SourceProgramGraphCutReduction Obligation :=
  { reduction with status := .blocked, disposition := .blocked, removalSpan := none, reason := some reason }

end SourceProgramGraphCutReduction

/-- A ready reduction with its removal span. -/
structure GraphCutEdit where
  path : Text
  name : Text
  removalSpan : Span
  deriving DecidableEq

namespace GraphCutEdit

def key (edit : GraphCutEdit) : Text := edit.path ++ 0 :: edit.name

/-- By start, then by end. -/
def order (edit : GraphCutEdit) : Nat ×ₗ Nat := toLex (edit.removalSpan.start, edit.removalSpan.stop)

end GraphCutEdit

def readyEdit (reduction : SourceProgramGraphCutReduction Obligation) : Option GraphCutEdit :=
  if reduction.status = .ready then
    reduction.removalSpan.map fun removalSpan => ⟨reduction.path, reduction.name, removalSpan⟩
  else none

def readyEdits (reductions : List (SourceProgramGraphCutReduction Obligation)) : List GraphCutEdit :=
  reductions.filterMap readyEdit

/-- The edits of one file, in the order of the list. -/
def editsOf (path : Text) (edits : List GraphCutEdit) : List GraphCutEdit := edits.filter (·.path = path)

/-- The keys of neighbours that overlap. -/
def overlappingNeighbours : List GraphCutEdit → List Text
  | [] => []
  | [_] => []
  | edit :: next :: edits =>
      if edit.removalSpan.stop ≤ next.removalSpan.start then overlappingNeighbours (next :: edits)
      else edit.key :: next.key :: overlappingNeighbours (next :: edits)

def overlappingKeys (edits : List GraphCutEdit) : List Text :=
  (edits.map GraphCutEdit.path).dedup.flatMap fun path =>
    overlappingNeighbours (sortBy GraphCutEdit.order (editsOf path edits))

/-- The reductions without the cuts that overlap. -/
def blockOverlaps (reductions : List (SourceProgramGraphCutReduction Obligation)) :
    List (SourceProgramGraphCutReduction Obligation) :=
  reductions.map fun reduction =>
    if reduction.key ∈ overlappingKeys (readyEdits reductions) then
      reduction.block "graph-cut removal overlaps another candidate declaration"
    else reduction

/-! ## Virtual files -/

/-- `source.replace(/[\t \r\n]+$/u, '')` with a line break behind it, for a source that is not empty. -/
def withFinalLineBreak (source : Text) : Text :=
  if source = [] then []
  else (source.reverse.dropWhile fun c => c = unit '\t' || c = unit ' ' || c = unit '\r' || c = unit '\n').reverse
    ++ [unit '\n']

/-- The edits are sorted by their starts alone, the last one first. -/
def virtualSource (source : Text) (edits : List GraphCutEdit) : Text :=
  withFinalLineBreak (Span.removeAll
    ((sortBy (fun edit => OrderDual.toDual edit.removalSpan.start) edits).map GraphCutEdit.removalSpan) source)

def graphCutVirtualFile (edits : List GraphCutEdit) (file : SourceProgramFileInput) : SourceProgramFileInput :=
  if editsOf file.path edits = [] then file
  else
    let source := virtualSource file.source (editsOf file.path edits)
    { file with source, contentDigest := (Sha256.rawSha256 source).val }

def graphCutVirtualFiles (files : List SourceProgramFileInput)
    (reductions : List (SourceProgramGraphCutReduction Obligation)) : List SourceProgramFileInput :=
  files.map (graphCutVirtualFile (readyEdits reductions))

/-! ## Plans -/

structure SourceProgramGraphCutReductionPlan (Obligation : Type) where
  sourceRevision : Text
  sourceSnapshotDigest : Digest
  evidenceDigest : Digest
  verificationDigest : Digest
  planDigest : Digest
  reductions : List (SourceProgramGraphCutReduction Obligation)
  deriving DecidableEq

/-- The observations of the declarations that the cuts remove. -/
def excludedDeclarationIds (model : SourceProgramModel)
    (reductions : List (SourceProgramGraphCutReduction Obligation)) : List Text :=
  ((readyEdits reductions).filterMap fun edit =>
    (onlyDeclaration model ⟨edit.path, edit.name⟩).map SourceProgramDeclaration.observationId).filter (· ≠ [])

/-- `sha256({ status: 'no-ready-reductions' })`. -/
def noReadyReductionsDigest : Digest :=
  Sha256.rawSha256 (canonicalEncoding (.obj [("status", .str "no-ready-reductions")]))

/-- What a verification says about the virtual files, where there is a ready reduction. -/
def verifyReductions (context : SourceProgramReductionCompilerContext Obligation) (model : SourceProgramModel)
    (files : List SourceProgramFileInput) (reductions : List (SourceProgramGraphCutReduction Obligation)) :
    Except ReductionFailure (Option Text × Digest) :=
  if readyEdits reductions = [] then .ok (none, noReadyReductionsDigest)
  else context.verify files (graphCutVirtualFiles files reductions) (excludedDeclarationIds model reductions)

/-- A verification that fails blocks every ready reduction. -/
def applyVerification (verificationReason : Option Text) (reductions : List (SourceProgramGraphCutReduction Obligation)) :
    List (SourceProgramGraphCutReduction Obligation) :=
  match verificationReason with
  | none => reductions
  | some reason => reductions.map fun reduction =>
      if reduction.status = .ready then reduction.block reason else reduction

/-- The reductions of a receipt before they are compared with each other. -/
def candidateReductions (context : SourceProgramReductionCompilerContext Obligation) (model : SourceProgramModel)
    (candidates : List SourceProgramCandidate) (unusedSymbols : SourceProgramUnusedSymbolProviderReceipt) :
    List (SourceProgramGraphCutReduction Obligation) :=
  (unseenItems [] (sortBy SourceProgramUnusedSymbolEvidence.order unusedSymbols.candidates)).map
    (graphCutReduction context model candidates)

/-- The digest of the plan itself is a parameter. -/
def compileSourceProgramGraphCutReductionPlan (planDigest : Digest) (model : SourceProgramModel)
    (files : List SourceProgramFileInput) (unusedSymbols : CompiledReceipt)
    (context : SourceProgramReductionCompilerContext Obligation) :
    Except ReductionFailure (SourceProgramGraphCutReductionPlan Obligation) := do
  let receipt := unusedSymbols.receipt
  exactReductionTypeScriptModel model context.typeScriptModel
  require (receipt.sourceRevision = model.sourceRevision
      ∧ receipt.sourceSnapshotDigest = sourceFileSnapshotDigest files
      ∧ receipt.candidateDigest = candidatesDigest receipt.candidates) ⟨some .compilerIssuedPlanRequired,
    "Graph-cut reduction requires one compiler-issued exact provider candidate receipt"⟩
  let candidates ← (match model.candidates with
    | none => .error ⟨none, "Source Program candidate analysis was not requested"⟩
    | some candidates => .ok candidates)
  let reductions := blockOverlaps (candidateReductions context model candidates receipt)
  let (verificationReason, verificationDigest) ← verifyReductions context model files reductions
  return { sourceRevision := model.sourceRevision
           sourceSnapshotDigest := sourceFileSnapshotDigest files
           evidenceDigest := receipt.receiptDigest
           verificationDigest
           planDigest
           reductions := sortBy SourceProgramGraphCutReduction.order (applyVerification verificationReason reductions) }

/-! ## Patches -/

/-- One changed file of a patch. -/
structure ChangedFile where
  path : Text
  beforeDigest : Text
  afterDigest : Digest
  deriving DecidableEq

structure SourceProgramVersionSuffixReductionPatch where
  sourceRevision : Text
  planDigest : Digest
  patchDigest : Digest
  patch : Text
  files : List ChangedFile
  deriving DecidableEq

/-- A file and its new source. -/
structure FileChange where
  file : SourceProgramFileInput
  nextSource : Text
  deriving DecidableEq

/-- `Overlapping graph-cut edits: ..`. -/
def overlappingEdits (path : Text) : ReductionFailure :=
  ⟨none, Text.cat [Text.ofString "Overlapping graph-cut edits: ", path]⟩

/-- No edit reaches into the next one. -/
def NeighboursApart : List GraphCutEdit → Prop
  | [] => True
  | [_] => True
  | edit :: next :: edits => edit.removalSpan.stop ≤ next.removalSpan.start ∧ NeighboursApart (next :: edits)

instance NeighboursApart.decidable : (edits : List GraphCutEdit) → Decidable (NeighboursApart edits)
  | [] => .isTrue trivial
  | [_] => .isTrue trivial
  | edit :: next :: edits =>
      have := NeighboursApart.decidable (next :: edits)
      inferInstanceAs (Decidable (edit.removalSpan.stop ≤ next.removalSpan.start ∧ NeighboursApart (next :: edits)))

/-- The new source of a file; the edits are sorted by start and end and removed from the last one on. -/
def renderSource (file : SourceProgramFileInput) (rawEdits : List GraphCutEdit) : Except ReductionFailure Text := do
  let edits := sortBy GraphCutEdit.order rawEdits
  require (NeighboursApart edits) (overlappingEdits file.path)
  return withFinalLineBreak (Span.removeAll (edits.reverse.map GraphCutEdit.removalSpan) file.source)

/-- The change of one file, if it has one. -/
def renderFile (files : List SourceProgramFileInput) (edits : List GraphCutEdit) (path : Text) :
    Except ReductionFailure (Option FileChange) :=
  match files.reverse.find? (·.path = path) with
  | none => .error ⟨none, Text.cat [Text.ofString "Graph-cut location has no source snapshot: ", path]⟩
  | some file => do
      let nextSource ← renderSource file (editsOf path edits)
      return if nextSource = file.source then none else some ⟨file, nextSource⟩

/-- The patch of a plan, with the function that writes the difference of two files. -/
def sealPatch (createTwoFilesPatch : Text → Text → Text → Text) (plan : SourceProgramGraphCutReductionPlan Obligation)
    (changes : List FileChange) : SourceProgramVersionSuffixReductionPatch :=
  let patch := Text.cat (changes.map fun change =>
    createTwoFilesPatch change.file.path change.file.source change.nextSource)
  { sourceRevision := plan.sourceRevision
    planDigest := plan.planDigest
    patchDigest := Sha256.rawSha256 patch
    patch
    files := changes.map fun change =>
      ⟨change.file.path, change.file.contentDigest, Sha256.rawSha256 change.nextSource⟩ }

/-- A member of `compiledGraphCutReductionPlans`. -/
structure CompiledPlan (Obligation : Type) where
  plan : SourceProgramGraphCutReductionPlan Obligation
  model : SourceProgramModel
  files : List SourceProgramFileInput
  unusedSymbols : CompiledReceipt
  context : SourceProgramReductionCompilerContext Obligation
  compiled : compileSourceProgramGraphCutReductionPlan plan.planDigest model files unusedSymbols context = .ok plan

def renderSourceProgramGraphCutReductionPatch (createTwoFilesPatch : Text → Text → Text → Text)
    (compiledPlan : CompiledPlan Obligation) (files : List SourceProgramFileInput) :
    Except ReductionFailure SourceProgramVersionSuffixReductionPatch := do
  let plan := compiledPlan.plan
  assertReductionSourceSnapshot plan.sourceSnapshotDigest files
  let ready := readyEdits plan.reductions
  require (ready ≠ []) ⟨none, "Graph-cut patch requires at least one ready reduction"⟩
  let changes ← (uniqueSorted (ready.map GraphCutEdit.path)).mapM (renderFile files ready)
  return sealPatch createTwoFilesPatch plan (changes.filterMap id)

end SecPlatform.SourceProgram
