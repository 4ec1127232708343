import SecPlatform.Contracts.Canonical
import SecPlatform.Library.Except
import SecPlatform.Library.Lines

/-!
# Merging Prisma schemas

A schema is read line by line into blocks; a template's blocks are merged into those of an existing schema member by
member, and the ones that are new are appended. An offset into the source stands as the text before it.
-/

namespace SecPlatform.Compiler.Templates

open Contracts

def lineFeed : CodeUnit := unit '\n'

def carriageReturn : CodeUnit := unit '\r'

def prismaParseError {α : Type} (message : Text) : Except CodedFailure α := .error ⟨"COMPOSE-PRISMA-002", message, none⟩

def prismaRequire (condition : Prop) [Decidable condition] (message : Text) : Except CodedFailure Unit :=
  require condition ⟨"COMPOSE-PRISMA-002", message, none⟩

/-! ## Lines -/

structure LineScan where
  depth : Nat
  quoted : Bool
  escaped : Bool
  opening : Option Nat
  closing : Option Nat
  deriving DecidableEq

/-- One turn of the loop over the characters of a line, past the test for a comment. -/
def scanPrismaChar (index : Nat) (char : CodeUnit) (s : LineScan) : Except CodedFailure LineScan :=
  if s.closing.isSome then
    if Text.isTrimSpace char then .ok s
    else prismaParseError "Prisma block has trailing syntax after its closing brace"
  else if s.quoted then
    if s.escaped then .ok { s with escaped := false }
    else if char = unit '\\' then .ok { s with escaped := true }
    else if char = unit '"' then .ok { s with quoted := false }
    else .ok s
  else if char = unit '"' then .ok { s with quoted := true }
  else if char = unit '\x7b' then
    .ok { s with depth := s.depth + 1, opening := if s.depth = 0 then some index else s.opening }
  else if char = unit '\x7d' then
    match s.depth with
    | 0 => prismaParseError "Prisma block closes unexpectedly"
    | depth + 1 => .ok { s with depth := depth, closing := if depth = 0 then some index else s.closing }
  else .ok s

def scanPrismaChars (index : Nat) : Text → LineScan → Except CodedFailure LineScan
  | [], s => .ok s
  | char :: rest, s =>
      if s.quoted = false ∧ char = unit '/' ∧ rest.head? = some (unit '/') then .ok s
      else do
        let next ← scanPrismaChar index char s
        scanPrismaChars (index + 1) rest next

/-- The delimiters of a line; those in strings and line comments do not count. -/
def scanPrismaLine (line : Text) (initialDepth : Nat) : Except CodedFailure LineScan := do
  let s ← scanPrismaChars 0 line ⟨initialDepth, false, false, none, none⟩
  prismaRequire (s.quoted = false) "Prisma string is not closed on its source line"
  return s

/-! ## Documents -/

structure PrismaBlock where
  type : Text
  name : Text
  content : Text
  before : Text
  deriving DecidableEq

def PrismaBlock.key (block : PrismaBlock) : Text := Text.cat [block.type, ":", block.name]

def blockTypes : List Text := ["model", "enum", "datasource", "generator", "type"]

/-- `[A-Za-z]` -/
def isLetter (c : CodeUnit) : Bool := (unit 'A' ≤ c && c ≤ unit 'Z') || (unit 'a' ≤ c && c ≤ unit 'z')

/-- `[A-Za-z0-9_]` -/
def isNameUnit (c : CodeUnit) : Bool := isLetter c || (unit '0' ≤ c && c ≤ unit '9') || c == unit '_'

/-- `[A-Za-z][A-Za-z0-9_]*` at the start of a text, and the text behind it. -/
def matchName (s : Text) : Option (Text × Text) :=
  if s.head?.any isLetter then some (s.takeWhile isNameUnit, s.dropWhile isNameUnit) else none

/-- `/^(model|enum|datasource|generator|type)\s+([A-Za-z][A-Za-z0-9_]*)\s*\{/u` -/
def matchBlockHeader (trimmed : Text) : Option (Text × Text) :=
  (blockTypes.find? (· <+: trimmed)).bind fun type =>
    let behind := trimmed.drop type.length
    if behind.head?.any Text.isTrimSpace then
      (matchName (behind.dropWhile Text.isTrimSpace)).bind fun named =>
        if (named.2.dropWhile Text.isTrimSpace).head? = some (unit '\x7b') then some (type, named.1) else none
    else none

/-- `replaceAll('\r\n', '\n')` -/
def replaceCrLf : Text → Text
  | [] => []
  | [c] => [c]
  | c :: d :: rest =>
      if c = carriageReturn ∧ d = lineFeed then lineFeed :: replaceCrLf rest else c :: replaceCrLf (d :: rest)

/-- `replaceAll('\r\n', '\n').replaceAll('\r', '\n')` -/
def normalizedLines (content : Text) : Text :=
  (replaceCrLf content).map fun c => if c = carriageReturn then lineFeed else c

structure DocumentScan where
  blocks : List PrismaBlock
  /-- The source since the end of the last block. -/
  gap : Text
  /-- The block that is open, as far as it has been read, and its brace count. -/
  currentBlock : Option (PrismaBlock × Nat)

/-- The end of a line of a block. -/
def DocumentScan.endLine (s : DocumentScan) (block : PrismaBlock) (braceCount : Nat) : DocumentScan :=
  if braceCount = 0 then ⟨s.blocks ++ [block], [], none⟩ else ⟨s.blocks, [], some (block, braceCount)⟩

/-- One turn of the loop over the lines; the separator is what stands between the line and the one before it. -/
def parsePrismaLine (separator line : Text) (s : DocumentScan) : Except CodedFailure DocumentScan :=
  match s.currentBlock with
  | none =>
      match matchBlockHeader line.trim with
      | some (type, name) => do
          let scan ← scanPrismaLine line 0
          return s.endLine ⟨type, name, line, s.gap ++ separator⟩ scan.depth
      | none => do
          prismaRequire (line.trim = [] ∨ Text.ofString "//" <+: line.trim)
            (Text.cat ["Unsupported top-level Prisma syntax: ", line.trim])
          return { s with gap := s.gap ++ separator ++ line }
  | some (block, braceCount) => do
      let scan ← scanPrismaLine line braceCount
      return s.endLine { block with content := block.content ++ separator ++ line } scan.depth

def parsePrismaLines (separator : Text) : List Text → DocumentScan → Except CodedFailure DocumentScan
  | [], s => .ok s
  | line :: lines, s => do
      let next ← parsePrismaLine separator line s
      parsePrismaLines [lineFeed] lines next

def assertUniqueBlocks (label : Text) : List PrismaBlock → List Text → Except CodedFailure Unit
  | [], _ => .ok ()
  | block :: blocks, seen => do
      prismaRequire (block.key ∉ seen) (Text.cat [label, " declares duplicate Prisma block ", block.key])
      assertUniqueBlocks label blocks (seen ++ [block.key])

structure PrismaDocument where
  blocks : List PrismaBlock
  trailing : Text

/-- The end of the source is no place for an open block. -/
def endDocument (s : DocumentScan) : Except CodedFailure PrismaDocument :=
  match s.currentBlock with
  | some (block, _) => prismaParseError (Text.cat ["Prisma block ", block.key, " is not closed"])
  | none => do
      assertUniqueBlocks "Schema" s.blocks []
      return ⟨s.blocks, s.gap⟩

def parsePrismaDocument (content : Text) : Except CodedFailure PrismaDocument := do
  let s ← parsePrismaLines [] (Text.splitAt lineFeed (normalizedLines content)) ⟨[], [], none⟩
  endDocument s

/-! ## Bodies -/

def bodyBoundsFrom : List Text → Nat → Nat → Option Nat → Except CodedFailure (Nat × Nat)
  | [], _, _, _ => prismaParseError "Prisma block has no valid body"
  | line :: lines, depth, offset, opening => do
      let observed ← scanPrismaLine line depth
      let opening := opening <|> observed.opening.map (offset + ·)
      match opening, observed.closing with
      | some opening, some closing => .ok (opening, offset + closing)
      | opening, _ => bodyBoundsFrom lines observed.depth (offset + line.length + 1) opening

/-- The places of the opening and of the closing brace. -/
def bodyBounds (content : Text) : Except CodedFailure (Nat × Nat) :=
  bodyBoundsFrom (Text.splitAt lineFeed content) 0 0 none

def bodyLines (content : Text) : Except CodedFailure (List Text) := do
  let (opening, closing) ← bodyBounds content
  return Text.splitAt lineFeed ((content.take closing).drop (opening + 1))

def normalizedBlock (content : Text) : Text :=
  Text.joinWith [lineFeed] (((Text.splitAt lineFeed (normalizedLines content)).map Text.trim).filter (· ≠ []))

/-! ## Members -/

structure KnownMembers where
  /-- The text of each member under its name. -/
  members : List (Text × Text)
  attributes : List Text

def memberName (enumeration : Bool) (text : Text) : Option Text :=
  (matchName text).bind fun named =>
    if enumeration || named.2.head?.any Text.isTrimSpace then some named.1 else none

/-- Whether the member is new. -/
def remember (blockLabel : Text) (enumeration : Bool) (text name : Text) (known : KnownMembers) :
    Except CodedFailure (KnownMembers × Bool) :=
  match known.members.lookup name with
  | some previous => do
      prismaRequire (previous = text) (Text.cat [blockLabel, " ", if enumeration then "enum value" else "field", " \"",
        name, "\" conflicts with the existing schema"])
      return (known, false)
  | none => .ok ({ known with members := known.members ++ [(name, text)] }, true)

def KnownMembers.addAttribute (known : KnownMembers) (text : Text) : KnownMembers :=
  if text ∈ known.attributes then known else { known with attributes := known.attributes ++ [text] }

def isComment (text : Text) : Bool := decide (Text.ofString "//" <+: text)

def isAttribute (enumeration : Bool) (text : Text) : Bool := !enumeration && decide (Text.ofString "@@" <+: text)

/-- One turn of the loop over the existing lines. -/
def readExistingLine (blockLabel : Text) (enumeration : Bool) (known : KnownMembers) (line : Text) :
    Except CodedFailure KnownMembers :=
  let text := line.trim
  if text = [] ∨ isComment text then .ok known
  else if isAttribute enumeration text then .ok (known.addAttribute text)
  else
    match memberName enumeration text with
    | some name => do
        let (known, _) ← remember blockLabel enumeration text name known
        return known
    | none =>
        if enumeration then prismaParseError (Text.cat [blockLabel, " contains unsupported enum syntax: ", text])
        else .ok known

structure Additions where
  known : KnownMembers
  additions : List Text
  comments : List Text

/-- Whether a line of the template that is no comment declares something new. -/
def readTemplateMember (blockLabel : Text) (enumeration : Bool) (known : KnownMembers) (text : Text) :
    Except CodedFailure (KnownMembers × Bool) :=
  if isAttribute enumeration text then .ok (known.addAttribute text, decide (text ∉ known.attributes))
  else
    match memberName enumeration text with
    | some name => remember blockLabel enumeration text name known
    | none =>
        prismaParseError (Text.cat [blockLabel, " contains unsupported ", if enumeration then "enum" else "template",
          " syntax: ", text])

/-- One turn of the loop over the lines of the template. -/
def readTemplateLine (blockLabel : Text) (enumeration : Bool) (s : Additions) (line : Text) :
    Except CodedFailure Additions :=
  let text := line.trim
  if text = [] then .ok s
  else if isComment text then .ok { s with comments := s.comments ++ [line] }
  else do
    let (known, added) ← readTemplateMember blockLabel enumeration s.known text
    return ⟨known, if added then s.additions ++ s.comments ++ [line] else s.additions, []⟩

/-- The lines without the empty ones at both ends. -/
def withoutEmptyEdges (lines : List Text) : List Text :=
  ((lines.dropWhile (·.trim = [])).reverse.dropWhile (·.trim = [])).reverse

def mergeMemberLines (existingContent templateContent blockLabel : Text) (enumeration : Bool) :
    Except CodedFailure Text := do
  let existing ← bodyLines existingContent
  let known ← existing.foldlM (readExistingLine blockLabel enumeration) ⟨[], []⟩
  let template ← bodyLines templateContent
  let read ← template.foldlM (readTemplateLine blockLabel enumeration) ⟨known, [], []⟩
  if read.additions = [] then return existingContent
  else
    let (opening, closing) ← bodyBounds existingContent
    let header := existingContent.take (opening + 1)
    let closingLine := existingContent.drop closing
    return Text.cat [header, [lineFeed], Text.joinWith [lineFeed] (withoutEmptyEdges existing ++ read.additions), [lineFeed],
      closingLine]

/-! ## Schemas -/

/-- What a block of the template makes of the existing block of the same key. -/
def mergeBlock (existingBlock templateBlock : PrismaBlock) : Except CodedFailure PrismaBlock := do
  let key := templateBlock.key
  if templateBlock.type = Text.ofString "model" ∨ templateBlock.type = Text.ofString "type" then
    let content ← mergeMemberLines existingBlock.content templateBlock.content key false
    return { existingBlock with content := content }
  else if templateBlock.type = Text.ofString "enum" then
    let content ← mergeMemberLines existingBlock.content templateBlock.content key true
    return { existingBlock with content := content }
  else do
    prismaRequire (normalizedBlock existingBlock.content = normalizedBlock templateBlock.content)
      (Text.cat [key, " conflicts with the existing schema; Compose cannot choose a winner by source order"])
    return existingBlock

structure SchemaMerge where
  mergedList : List PrismaBlock
  addedBlocks : List PrismaBlock

/-- The block of a key in place of the one that stood under it. -/
def replaceBlock (block : PrismaBlock) (blocks : List PrismaBlock) : List PrismaBlock :=
  blocks.map fun other => if other.key = block.key then block else other

/-- One turn of the loop over the blocks of the template. -/
def mergeTemplateBlock (s : SchemaMerge) (templateBlock : PrismaBlock) : Except CodedFailure SchemaMerge :=
  match (s.mergedList ++ s.addedBlocks).find? (·.key = templateBlock.key) with
  | none => .ok { s with addedBlocks := s.addedBlocks ++ [templateBlock] }
  | some existingBlock => do
      let merged ← mergeBlock existingBlock templateBlock
      return ⟨replaceBlock merged s.mergedList, replaceBlock merged s.addedBlocks⟩

def PrismaBlock.text (block : PrismaBlock) : Text := block.before ++ block.content

def renderMerge (s : SchemaMerge) (trailing : Text) : Text :=
  let output := (s.mergedList.map PrismaBlock.text).flatten ++ trailing
  if s.addedBlocks = [] then output
  else
    let additions := s.addedBlocks.map fun block => block.text.trim
    Text.joinWith [lineFeed, lineFeed] ((if Text.trimEnd output = [] then [] else [Text.trimEnd output]) ++ additions) ++ [lineFeed]

def mergePrismaSchemas (existingContent templateContent : Text) : Except CodedFailure Text := do
  let existing ← parsePrismaDocument existingContent
  let template ← parsePrismaDocument templateContent
  let merge ← template.blocks.foldlM mergeTemplateBlock ⟨existing.blocks, []⟩
  return renderMerge merge existing.trailing

end SecPlatform.Compiler.Templates
